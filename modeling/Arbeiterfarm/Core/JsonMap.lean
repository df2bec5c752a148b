import Arbeiterfarm.Core.Json
import Arbeiterfarm.Foundation.Entries
import Mathlib.Data.String.Basic

/-!
# Objects as maps

The fields of a JSON object are sorted by their keys. A field is inserted where it belongs, in place
of the one with its key.
-/

namespace Arbeiterfarm.Json

open Foundation (lookup_cons_eq)

def insertField (key : String) (v : Json) : List (String × Json) → List (String × Json)
  | [] => [(key, v)]
  | (k, w) :: fields =>
    if key = k then (key, v) :: fields
    else if key < k then (key, v) :: (k, w) :: fields
    else (k, w) :: insertField key v fields

/-- The fields of an object are sorted. -/
def SortedKeys (fields : List (String × Json)) : Prop := (fields.map Prod.fst).Pairwise (· < ·)

lemma mem_keys_insertField {key k : String} {v : Json} {fields : List (String × Json)} :
    k ∈ (insertField key v fields).map Prod.fst ↔ k = key ∨ k ∈ fields.map Prod.fst := by
  induction fields with
  | nil => simp [insertField]
  | cons e fields ih =>
    obtain ⟨l, w⟩ := e
    rw [insertField]
    by_cases heq : key = l
    · rw [if_pos heq]
      simp [heq]
    · rw [if_neg heq]
      by_cases hlt : key < l
      · rw [if_pos hlt, List.map_cons, List.mem_cons]
      · rw [if_neg hlt, List.map_cons, List.mem_cons, ih, List.map_cons, List.mem_cons]
        tauto

lemma SortedKeys.insertField {key : String} {v : Json} {fields : List (String × Json)}
    (h : SortedKeys fields) : SortedKeys (insertField key v fields) := by
  induction fields with
  | nil => exact List.pairwise_singleton _ _
  | cons e fields ih =>
    obtain ⟨l, w⟩ := e
    rw [SortedKeys, List.map_cons, List.pairwise_cons] at h
    obtain ⟨hhead, hrest⟩ := h
    rw [Json.insertField]
    by_cases heq : key = l
    · rw [if_pos heq, SortedKeys, List.map_cons, List.pairwise_cons]
      exact ⟨heq ▸ hhead, hrest⟩
    · rw [if_neg heq]
      by_cases hlt : key < l
      · rw [if_pos hlt, SortedKeys, List.map_cons, List.pairwise_cons, List.map_cons,
          List.forall_mem_cons, List.pairwise_cons]
        exact ⟨⟨hlt, fun k hk => hlt.trans (hhead k hk)⟩, hhead, hrest⟩
      · rw [if_neg hlt, SortedKeys, List.map_cons, List.pairwise_cons]
        refine ⟨fun k hk => ?_, ih hrest⟩
        rcases mem_keys_insertField.mp hk with rfl | hk
        · exact lt_of_le_of_ne (not_lt.mp hlt) (Ne.symm heq)
        · exact hhead k hk

/-- An object has one field more, unless the key is there. -/
lemma length_insertField {key : String} {v : Json} {fields : List (String × Json)}
    (h : SortedKeys fields) : (insertField key v fields).length =
      if key ∈ fields.map Prod.fst then fields.length else fields.length + 1 := by
  induction fields with
  | nil => rfl
  | cons e fields ih =>
    obtain ⟨l, w⟩ := e
    rw [SortedKeys, List.map_cons, List.pairwise_cons] at h
    obtain ⟨hhead, hrest⟩ := h
    rw [insertField]
    by_cases heq : key = l
    · rw [if_pos heq, if_pos (by simp [heq])]
      rfl
    · rw [if_neg heq]
      by_cases hlt : key < l
      · have hnot : key ∉ ((l, w) :: fields).map Prod.fst := by
          rw [List.map_cons, List.mem_cons, not_or]
          exact ⟨heq, fun hmem => lt_asymm hlt (hhead key hmem)⟩
        rw [if_pos hlt, if_neg hnot]
        rfl
      · rw [if_neg hlt, List.length_cons, ih hrest, List.map_cons]
        by_cases hmem : key ∈ fields.map Prod.fst
        · rw [if_pos hmem, if_pos (List.mem_cons_of_mem _ hmem)]
          rfl
        · rw [if_neg hmem, if_neg (by simp [heq, hmem])]
          rfl

lemma lookup_insertField (key k : String) (v : Json) (fields : List (String × Json)) :
    (insertField key v fields).lookup k = if k = key then some v else fields.lookup k := by
  induction fields with
  | nil => exact lookup_cons_eq k key v []
  | cons e fields ih =>
    obtain ⟨l, w⟩ := e
    rw [insertField]
    by_cases heq : key = l
    · rw [if_pos heq, lookup_cons_eq, lookup_cons_eq, heq]
      by_cases hk : k = l
      · rw [if_pos hk, if_pos hk]
      · rw [if_neg hk, if_neg hk, if_neg hk]
    · rw [if_neg heq]
      by_cases hlt : key < l
      · rw [if_pos hlt, lookup_cons_eq]
      · rw [if_neg hlt, lookup_cons_eq, ih, lookup_cons_eq]
        by_cases hk : k = l
        · rw [if_pos hk, if_pos hk, if_neg (hk ▸ Ne.symm heq)]
        · rw [if_neg hk, if_neg hk]

lemma insertField_of_forall_lt {key : String} {v : Json} {fields : List (String × Json)}
    (h : ∀ k ∈ fields.map Prod.fst, k < key) : insertField key v fields = fields ++ [(key, v)] := by
  induction fields with
  | nil => rfl
  | cons e fields ih =>
    obtain ⟨l, w⟩ := e
    rw [List.map_cons, List.forall_mem_cons] at h
    rw [insertField, if_neg h.1.ne', if_neg (lt_asymm h.1), ih h.2, List.cons_append]

/-! ### Several fields -/

/-- The entries are inserted one after the other. -/
def insertAll (fields entries : List (String × Json)) : List (String × Json) :=
  entries.foldl (fun obj e => insertField e.1 e.2 obj) fields

lemma insertAll_cons (fields : List (String × Json)) (e : String × Json)
    (entries : List (String × Json)) :
    insertAll fields (e :: entries) = insertAll (insertField e.1 e.2 fields) entries := rfl

lemma length_insertAll_le {fields : List (String × Json)} (h : SortedKeys fields)
    (entries : List (String × Json)) :
    (insertAll fields entries).length ≤ fields.length + entries.length := by
  induction entries generalizing fields with
  | nil => exact Nat.le_refl _
  | cons e entries ih =>
    have hsorted : SortedKeys (insertField e.1 e.2 fields) := h.insertField
    have hlen := ih hsorted
    rw [length_insertField h] at hlen
    rw [insertAll_cons, List.length_cons]
    split_ifs at hlen
    · omega
    · omega

/-- No field is lost exactly if all keys are distinct. -/
lemma length_insertAll_iff {fields : List (String × Json)} (h : SortedKeys fields)
    (entries : List (String × Json)) :
    (insertAll fields entries).length = fields.length + entries.length ↔
      (entries.map Prod.fst).Nodup ∧ ∀ k ∈ entries.map Prod.fst, k ∉ fields.map Prod.fst := by
  induction entries generalizing fields with
  | nil => simp [insertAll]
  | cons e entries ih =>
    have hsorted : SortedKeys (insertField e.1 e.2 fields) := h.insertField
    rw [insertAll_cons, List.map_cons, List.nodup_cons, List.forall_mem_cons, List.length_cons]
    by_cases hmem : e.1 ∈ fields.map Prod.fst
    · have hle := length_insertAll_le hsorted entries
      rw [length_insertField h, if_pos hmem] at hle
      exact iff_of_false (by omega) fun hall => hall.2.1 hmem
    · have hiff := ih hsorted
      rw [length_insertField h, if_neg hmem] at hiff
      rw [Nat.add_comm entries.length, ← Nat.add_assoc, hiff]
      simp only [mem_keys_insertField, not_or]
      constructor
      · rintro ⟨hnodup, hnot⟩
        exact ⟨⟨fun hk => (hnot _ hk).1 rfl, hnodup⟩, hmem, fun k hk => (hnot k hk).2⟩
      · rintro ⟨⟨hhead, hnodup⟩, -, hnot⟩
        exact ⟨hnodup, fun k hk => ⟨fun heq => hhead (heq ▸ hk), hnot k hk⟩⟩

lemma lookup_insertAll_of_not_mem {k : String} {fields entries : List (String × Json)}
    (h : k ∉ entries.map Prod.fst) : (insertAll fields entries).lookup k = fields.lookup k := by
  induction entries generalizing fields with
  | nil => rfl
  | cons e entries ih =>
    rw [List.map_cons, List.mem_cons, not_or] at h
    rw [insertAll_cons, ih h.2, lookup_insertField, if_neg h.1]

lemma lookup_insertAll {fields entries : List (String × Json)}
    (h : (entries.map Prod.fst).Nodup) {e : String × Json} (he : e ∈ entries) :
    (insertAll fields entries).lookup e.1 = some e.2 := by
  induction entries generalizing fields with
  | nil => cases he
  | cons d entries ih =>
    rw [List.map_cons, List.nodup_cons] at h
    rw [insertAll_cons]
    rcases List.mem_cons.mp he with rfl | hrest
    · rw [lookup_insertAll_of_not_mem h.1, lookup_insertField, if_pos rfl]
    · exact ih h.2 hrest

lemma insertAll_of_sorted {fields entries : List (String × Json)}
    (h : SortedKeys (fields ++ entries)) : insertAll fields entries = fields ++ entries := by
  induction entries generalizing fields with
  | nil => exact (List.append_nil _).symm
  | cons e entries ih =>
    have hlt : ∀ k ∈ fields.map Prod.fst, k < e.1 := by
      intro k hk
      rw [SortedKeys, List.map_append, List.pairwise_append] at h
      exact h.2.2 k hk e.1 List.mem_cons_self
    rw [insertAll_cons, insertField_of_forall_lt hlt, ih (by simpa using h), List.append_assoc]
    rfl

/-- `Map::insert` of an object; other values have no fields. -/
def insert (obj : Json) (key : String) (v : Json) : Json :=
  match obj with
  | .obj fields => .obj (insertField key v fields)
  | v => v

/-- The value that a path of keys leads to. -/
def getJsonPath (value : Json) : List String → Option Json
  | [] => some value
  | key :: path => (value.get key).bind fun child => getJsonPath child path

/-- The object at the path up to the last key gets the new value at this key. -/
def setJsonPath (value : Json) (path : List String) (new_val : Json) : Json :=
  match path with
  | [] => value
  | [key] => value.insert key new_val
  | key :: path =>
    match value.get key with
    | some child => value.insert key (setJsonPath child path new_val)
    | none => value

end Arbeiterfarm.Json
