import Mathlib.Data.List.Nodup
import Mathlib.Data.String.Basic

/-!
# Editing a map key by key

A list of edits, each of which changes the value of one key, is applied to a map. When no key is
edited twice, the value of a key afterwards depends only on its value before and on its edit, if
there is one. The edits are often collected from another map, with at most one for each of its keys.
-/

namespace Foundation

open Std (ExtTreeMap TransOrd LawfulEqOrd)

variable {κ α β γ : Type*} [Ord κ] [TransOrd κ] [LawfulEqOrd κ] [DecidableEq κ]

/-- The edit `f` changes only the value of the key of its argument, by `g`. -/
def EditsKey (key : β → κ) (f : ExtTreeMap κ α → β → ExtTreeMap κ α)
    (g : β → Option α → Option α) : Prop :=
  ∀ m b k, (f m b)[k]? = if k = key b then g b m[k]? else m[k]?

lemma getElem?_insert_eq (m : ExtTreeMap κ α) (k k' : κ) (v : α) :
    (m.insert k v)[k']? = if k' = k then some v else m[k']? := by
  rw [ExtTreeMap.getElem?_insert]
  refine if_congr ?_ rfl rfl
  rw [Std.compare_eq_iff_eq, eq_comm]

lemma getElem?_erase_eq (m : ExtTreeMap κ α) (k k' : κ) :
    (m.erase k)[k']? = if k' = k then none else m[k']? := by
  rw [ExtTreeMap.getElem?_erase]
  refine if_congr ?_ rfl rfl
  rw [Std.compare_eq_iff_eq, eq_comm]

omit [LawfulEqOrd κ] in
/-- Edits of different keys do not interfere. -/
lemma getElem?_foldl {key : β → κ} {f : ExtTreeMap κ α → β → ExtTreeMap κ α}
    {g : β → Option α → Option α} (hf : EditsKey key f g) {edits : List β}
    (hnodup : (edits.map key).Nodup) (m : ExtTreeMap κ α) (k : κ) :
    (edits.foldl f m)[k]? =
      (edits.find? fun b => key b = k).elim m[k]? fun b => g b m[k]? := by
  induction edits generalizing m with
  | nil => rfl
  | cons b edits ih =>
    obtain ⟨hb, hnodup⟩ := List.nodup_cons.mp hnodup
    rw [List.foldl_cons, ih hnodup, hf, List.find?_cons]
    by_cases hk : key b = k
    · subst hk
      have hnone : edits.find? (fun b' => key b' = key b) = none := by
        rw [List.find?_eq_none]
        intro b' hb' heq
        rw [decide_eq_true_eq] at heq
        exact hb (heq ▸ List.mem_map_of_mem hb')
      simp only [hnone, decide_true, if_true, Option.elim_none, Option.elim_some]
    · simp only [decide_eq_false hk, if_neg (Ne.symm hk)]

/-! ### Edits that are collected from a map -/

section

variable {h : κ × γ → Option β} {key : β → κ}

omit [DecidableEq κ] in
lemma nodup_map_key_collected (hkey : ∀ e b, h e = some b → key b = e.1)
    (props : ExtTreeMap κ γ) : ((props.toList.filterMap h).map key).Nodup := by
  have hdistinct := props.distinct_keys_toList
  generalize props.toList = l at hdistinct
  induction l with
  | nil => exact .nil
  | cons e l ih =>
    obtain ⟨hhead, htail⟩ := List.pairwise_cons.mp hdistinct
    rw [List.filterMap_cons]
    cases he : h e with
    | none => exact ih htail
    | some b =>
      rw [List.map_cons, List.nodup_cons]
      refine ⟨?_, ih htail⟩
      intro hmem
      obtain ⟨b', hb', heq⟩ := List.mem_map.mp hmem
      obtain ⟨e', he', hb'⟩ := List.mem_filterMap.mp hb'
      refine hhead e' he' ?_
      rw [Std.compare_eq_iff_eq, ← hkey e b he, ← hkey e' b' hb', heq]

/-- The edit of a key is the one that its value gives. -/
lemma find?_collected (hkey : ∀ e b, h e = some b → key b = e.1) (props : ExtTreeMap κ γ) (k : κ) :
    (props.toList.filterMap h).find? (fun b => key b = k) =
      props[k]?.bind fun s => h (k, s) := by
  cases hfind : (props.toList.filterMap h).find? (fun b => key b = k) with
  | some b =>
    have hb := List.find?_some hfind
    rw [decide_eq_true_eq] at hb
    obtain ⟨e, he, hhe⟩ := List.mem_filterMap.mp (List.mem_of_find?_eq_some hfind)
    obtain ⟨k', s⟩ := e
    obtain rfl : k' = k := (hkey _ _ hhe).symm.trans hb
    rw [ExtTreeMap.mem_toList_iff_getElem?_eq_some.mp he, Option.bind_some, hhe]
  | none =>
    cases hk : props[k]? with
    | none => rfl
    | some s =>
      rw [Option.bind_some]
      cases hs : h (k, s) with
      | none => rfl
      | some b =>
        refine absurd ?_ (List.find?_eq_none.mp hfind b (List.mem_filterMap.mpr
          ⟨(k, s), ExtTreeMap.mem_toList_iff_getElem?_eq_some.mpr hk, hs⟩))
        rw [decide_eq_true_eq]
        exact hkey _ _ hs

lemma getElem?_foldl_collected {f : ExtTreeMap κ α → β → ExtTreeMap κ α}
    {g : β → Option α → Option α} (hf : EditsKey key f g)
    (hkey : ∀ e b, h e = some b → key b = e.1) (props : ExtTreeMap κ γ) (m : ExtTreeMap κ α)
    (k : κ) : ((props.toList.filterMap h).foldl f m)[k]? =
      (props[k]?.bind fun s => h (k, s)).elim m[k]? fun b => g b m[k]? := by
  rw [getElem?_foldl hf (nodup_map_key_collected hkey props), find?_collected hkey]

end

end Foundation
