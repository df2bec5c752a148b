import Arbeiterfarm.Agents.FixupArguments
import Mathlib.Data.List.DropRight

/-!
# What becomes of an argument

What is to be corrected is collected from the arguments as they were sent. So a value that takes the
place of a missing property is not corrected as its new property demands, unless it is a string for
an array; and a property that is stripped is missing only afterwards.
-/

namespace Arbeiterfarm.Agents

open Foundation
open Std (ExtTreeMap)

variable {text : Json → String} {props obj : Fields} {required : List String}

/-! ### Renamed arguments -/

lemma singularForm_singularForm (prop_name : String) :
    singularForm (singularForm prop_name) = singularForm prop_name := by
  simp only [singularForm, trimEndMatches, String.toList_ofList, List.reverse_reverse,
    List.dropWhile_idempotent]

lemma getElem?_rename {fixup : String × String} (k : String) :
    (rename props obj fixup)[k]? =
      match obj[fixup.1]? with
      | none => obj[k]?
      | some val =>
        if k = fixup.2 then some (renamedValue props fixup.2 val)
        else if k = fixup.1 then none
        else obj[k]? := by
  rw [rename]
  cases obj[fixup.1]? with
  | none => rfl
  | some val => simp only [getElem?_insert_eq, getElem?_erase_eq]

/-- The wrong key is gone. -/
lemma getElem?_rename_wrong {fixup : String × String} (hne : fixup.1 ≠ fixup.2) :
    (rename props obj fixup)[fixup.1]? = none := by
  rw [getElem?_rename]
  cases hval : obj[fixup.1]? with
  | none => rfl
  | some val => simp only [if_neg hne, if_true]

lemma getElem?_rename_of_ne {fixup : String × String} {k : String} (hcorrect : k ≠ fixup.2)
    (hwrong : k ≠ fixup.1) : (rename props obj fixup)[k]? = obj[k]? := by
  rw [getElem?_rename]
  cases hval : obj[fixup.1]? with
  | none => rfl
  | some val => simp only [if_neg hcorrect, if_neg hwrong]

/-- The value of a singular form moves to the first property that it is renamed to. -/
lemma getElem?_rename_all {fixups : List (String × String)}
    (hfixups : ∀ f ∈ fixups, f.1 = singularForm f.2 ∧ f.1 ≠ f.2) (obj : Fields) (k : String) :
    (fixups.foldl (rename props) obj)[k]? =
      if k ∈ fixups.map Prod.fst then none
      else
        match obj[singularForm k]?, fixups.find? (fun f => f.1 = singularForm k) with
        | some val, some f => if f.2 = k then some (renamedValue props k val) else obj[k]?
        | _, _ => obj[k]? := by
  induction fixups generalizing obj with
  | nil => cases obj[singularForm k]? <;> simp
  | cons f fixups ih =>
    obtain ⟨⟨hsingular, hne⟩, hfixups⟩ := List.forall_mem_cons.mp hfixups
    have hfixed : singularForm f.1 = f.1 := by rw [hsingular, singularForm_singularForm]
    have hgone : (rename props obj f)[f.1]? = none := getElem?_rename_wrong hne
    rw [List.foldl_cons, ih hfixups, List.map_cons, List.find?_cons]
    by_cases hk : k = f.1
    · subst hk
      rw [if_pos List.mem_cons_self, hfixed, hgone]
      split_ifs <;> rfl
    · have hmem : k ∈ f.1 :: fixups.map Prod.fst ↔ k ∈ fixups.map Prod.fst := by
        rw [List.mem_cons, or_iff_right hk]
      by_cases hwrong : k ∈ fixups.map Prod.fst
      · rw [if_pos hwrong, if_pos (hmem.mpr hwrong)]
      · rw [if_neg hwrong, if_neg (fun h => hwrong (hmem.mp h))]
        by_cases heq : f.1 = singularForm k
        · rw [← heq, hgone, decide_eq_true rfl, getElem?_rename]
          cases hval : obj[f.1]? with
          | none => rfl
          | some val =>
            by_cases hc : f.2 = k
            · subst hc
              simp only [if_true]
            · simp only [if_neg (Ne.symm hc), if_neg hk, if_neg hc]
        · have hcorrect : singularForm k ≠ f.2 := by
            intro h
            rw [← h, singularForm_singularForm] at hsingular
            exact heq hsingular
          have hkc : k ≠ f.2 := by
            rintro rfl
            exact heq hsingular
          rw [getElem?_rename_of_ne hcorrect (Ne.symm heq), getElem?_rename_of_ne hkc hk,
            decide_eq_false heq]

/-- The arguments once they have been renamed. -/
def renamed (props obj : Fields) : Fields := (renames props obj).foldl (rename props) obj

/-- The value of `w` becomes the one of the missing property `p`. -/
def Arrives (props obj : Fields) (w p : String) : Prop :=
  (renames props obj).find? (fun f => f.1 = w) = some (w, p)

lemma mem_renames {w p : String} : (w, p) ∈ renames props obj ↔
    (∃ s, props[p]? = some s) ∧ obj[p]? = none ∧ singularForm p = w ∧ w ≠ p ∧
      ∃ val, obj[w]? = some val := by
  rw [renames, List.mem_filterMap]
  constructor
  · rintro ⟨e, he, h⟩
    simp only [renameFor, ExtTreeMap.contains_eq_isSome_getElem?] at h
    split_ifs at h with hsome hsingular
    obtain ⟨rfl, rfl⟩ := Prod.mk.inj (Option.some.inj h)
    exact ⟨⟨e.2, ExtTreeMap.mem_toList_iff_getElem?_eq_some.mp he⟩,
      Option.not_isSome_iff_eq_none.mp hsome, rfl, hsingular.1,
      Option.isSome_iff_exists.mp hsingular.2⟩
  · rintro ⟨⟨s, hs⟩, hnone, rfl, hne, hw⟩
    refine ⟨(p, s), ExtTreeMap.mem_toList_iff_getElem?_eq_some.mpr hs, ?_⟩
    simp only [renameFor, ExtTreeMap.contains_eq_isSome_getElem?, hnone, Option.isSome_none,
      Bool.false_eq_true, if_false]
    exact if_pos ⟨hne, Option.isSome_iff_exists.mpr hw⟩

lemma Arrives.mem {w p : String} (h : Arrives props obj w p) : (w, p) ∈ renames props obj :=
  List.mem_of_find?_eq_some h

lemma exists_arrives {w p : String} (h : (w, p) ∈ renames props obj) :
    ∃ p', Arrives props obj w p' := by
  cases hfind : (renames props obj).find? (fun f => f.1 = w) with
  | none => exact absurd (decide_eq_true rfl) (List.find?_eq_none.mp hfind _ h)
  | some f =>
    obtain ⟨w', p'⟩ := f
    obtain rfl : w' = w := by simpa using List.find?_some hfind
    exact ⟨p', hfind⟩

lemma mem_map_fst_renames {w : String} : w ∈ (renames props obj).map Prod.fst ↔
    ∃ p, Arrives props obj w p := by
  rw [List.mem_map]
  constructor
  · rintro ⟨⟨w', p⟩, hmem, rfl⟩
    exact exists_arrives hmem
  · rintro ⟨p, h⟩
    exact ⟨(w, p), h.mem, rfl⟩

lemma getElem?_renamed (k : String) : (renamed props obj)[k]? =
    if k ∈ (renames props obj).map Prod.fst then none
    else
      match obj[singularForm k]?, (renames props obj).find? (fun f => f.1 = singularForm k) with
      | some val, some f => if f.2 = k then some (renamedValue props k val) else obj[k]?
      | _, _ => obj[k]? := by
  apply getElem?_rename_all
  rintro ⟨w, p⟩ hmem
  obtain ⟨-, -, rfl, hne, -⟩ := mem_renames.mp hmem
  exact ⟨rfl, hne⟩

lemma getElem?_renamed_of_gone {w p : String} (h : Arrives props obj w p) :
    (renamed props obj)[w]? = none := by
  rw [getElem?_renamed, if_pos (mem_map_fst_renames.mpr ⟨p, h⟩)]

lemma getElem?_renamed_of_arrives {w p : String} {val : Json} (h : Arrives props obj w p)
    (hval : obj[w]? = some val) : (renamed props obj)[p]? = some (renamedValue props p val) := by
  obtain ⟨-, -, hsingular, hne, -⟩ := mem_renames.mp h.mem
  have hwrong : p ∉ (renames props obj).map Prod.fst := by
    intro hmem
    obtain ⟨p', h'⟩ := mem_map_fst_renames.mp hmem
    obtain ⟨-, -, hsingular', -⟩ := mem_renames.mp h'.mem
    refine hne ?_
    rw [← hsingular, ← hsingular', singularForm_singularForm]
  rw [getElem?_renamed, if_neg hwrong, hsingular, hval, h]
  exact if_pos rfl

lemma getElem?_renamed_of_stays {k : String} (hgone : ∀ p, ¬Arrives props obj k p)
    (harrives : ∀ w, ¬Arrives props obj w k) : (renamed props obj)[k]? = obj[k]? := by
  have hwrong : k ∉ (renames props obj).map Prod.fst := by
    intro hmem
    obtain ⟨p, h⟩ := mem_map_fst_renames.mp hmem
    exact hgone p h
  rw [getElem?_renamed, if_neg hwrong]
  cases obj[singularForm k]? with
  | none => rfl
  | some val =>
    cases hfind : (renames props obj).find? (fun f => f.1 = singularForm k) with
    | none => rfl
    | some f =>
      refine if_neg ?_
      rintro rfl
      have hw : f.1 = singularForm f.2 := by simpa using List.find?_some hfind
      refine harrives (singularForm f.2) ?_
      rw [Arrives, hfind, ← hw]

/-! ### The other corrections -/

/-- What becomes of a value that stays at its key; `none` if it is stripped. -/
def repair (text : Json → String) (prop_schema : Json) (is_required : Bool) (val : Json) :
    Option Json :=
  if schemaType prop_schema = "array" ∧ val.isString then some (.arr [val])
  else if schemaType prop_schema = "string" ∧ val.isNumber then some (.str (numberText text val))
  else
    match violatedMinimum prop_schema val with
    | none => some val
    | some min_val => if is_required then some (.num (.int min_val)) else none

lemma violatedMinimum_eq_none {prop_schema : Json} (val : Json)
    (h : schemaType prop_schema = "array" ∨ schemaType prop_schema = "string") :
    violatedMinimum prop_schema val = none := by
  rw [violatedMinimum, if_neg]
  rcases h with h | h <;> simp [h]

lemma editsKey_replaceValue (f : Json → Json) :
    EditsKey id (replaceValue f) fun _ val => val.map f := by
  intro obj key k
  show (replaceValue f obj key)[k]? = if k = key then obj[k]?.map f else obj[k]?
  rw [replaceValue]
  cases h : obj[key]? with
  | none =>
    by_cases hk : k = key
    · rw [if_pos hk, hk, h, Option.map_none]
    · rw [if_neg hk]
  | some val =>
    simp only [getElem?_insert_eq, getElem?_erase_eq]
    by_cases hk : k = key
    · rw [if_pos hk, if_pos hk, hk, h, Option.map_some]
    · rw [if_neg hk, if_neg hk, if_neg hk]

lemma editsKey_strip : EditsKey id strip fun _ _ => none := by
  intro obj key k
  exact getElem?_erase_eq obj key k

lemma editsKey_clamp :
    EditsKey Prod.fst clamp fun fixup val => val.map fun _ => .num (.int fixup.2) := by
  intro obj fixup k
  show (clamp obj fixup)[k]? =
    if k = fixup.1 then obj[k]?.map fun _ => .num (.int fixup.2) else obj[k]?
  rw [clamp]
  cases h : obj[fixup.1]? with
  | none =>
    by_cases hk : k = fixup.1
    · rw [if_pos hk, hk, h, Option.map_none]
    · rw [if_neg hk]
  | some val =>
    simp only [getElem?_insert_eq]
    by_cases hk : k = fixup.1
    · rw [if_pos hk, if_pos hk, hk, h, Option.map_some]
    · rw [if_neg hk, if_neg hk]

lemma key_typeCoercion (e : String × Json) (k : String) (h : typeCoercion obj e = some k) :
    k = e.1 := by
  obtain ⟨val, -, h⟩ := Option.bind_eq_some_iff.mp h
  split_ifs at h
  exact (Option.some.inj h).symm

lemma key_numToStr (e : String × Json) (k : String) (h : numToStr obj e = some k) : k = e.1 := by
  obtain ⟨val, -, h⟩ := Option.bind_eq_some_iff.mp h
  split_ifs at h
  exact (Option.some.inj h).symm

lemma key_minClamp (e : String × Json) (b : String × ℤ) (h : minClamp required obj e = some b) :
    b.1 = e.1 := by
  obtain ⟨val, -, h⟩ := Option.bind_eq_some_iff.mp h
  obtain ⟨min_val, -, h⟩ := Option.bind_eq_some_iff.mp h
  split_ifs at h
  rw [← Option.some.inj h]

lemma key_minStrip (e : String × Json) (k : String) (h : minStrip required obj e = some k) :
    k = e.1 := by
  obtain ⟨val, -, h⟩ := Option.bind_eq_some_iff.mp h
  obtain ⟨min_val, -, h⟩ := Option.bind_eq_some_iff.mp h
  split_ifs at h
  exact (Option.some.inj h).symm

/-- The stages after the renaming, at one key. -/
lemma getElem?_fixupFields (k : String) : (fixupFields text props required obj)[k]? =
    (let coerced := (props[k]?.bind fun s => typeCoercion obj (k, s)).elim (renamed props obj)[k]?
      fun _ => (renamed props obj)[k]?.map fun val => .arr [val]
    let stripped := (props[k]?.bind fun s => minStrip required obj (k, s)).elim coerced
      fun _ => none
    let clamped := (props[k]?.bind fun s => minClamp required obj (k, s)).elim stripped
      fun b => stripped.map fun _ => .num (.int b.2)
    (props[k]?.bind fun s => numToStr obj (k, s)).elim clamped
      fun _ => clamped.map fun val => .str (numberText text val)) := by
  rw [fixupFields, coerceToString, coerceToArray,
    getElem?_foldl_collected (editsKey_replaceValue _) key_numToStr,
    getElem?_foldl_collected editsKey_clamp key_minClamp,
    getElem?_foldl_collected editsKey_strip key_minStrip,
    getElem?_foldl_collected (editsKey_replaceValue _) key_typeCoercion]
  rfl

/-- Of a key that was not sent, only the renaming decides. -/
lemma getElem?_fixupFields_of_none {k : String} (h : obj[k]? = none) :
    (fixupFields text props required obj)[k]? = (renamed props obj)[k]? := by
  rw [getElem?_fixupFields]
  cases props[k]? with
  | none => rfl
  | some s => simp [typeCoercion, minStrip, minClamp, numToStr, h]

lemma getElem?_fixupFields_of_gone {k : String} (h : (renamed props obj)[k]? = none) :
    (fixupFields text props required obj)[k]? = none := by
  rw [getElem?_fixupFields, h]
  cases props[k]? with
  | none => rfl
  | some s =>
    simp only [Option.bind_some]
    cases typeCoercion obj (k, s) <;> cases minStrip required obj (k, s) <;>
      cases minClamp required obj (k, s) <;> cases numToStr obj (k, s) <;> rfl

/-- A value that has not been renamed is repaired. -/
lemma getElem?_fixupFields_of_some {k : String} {val : Json} (h : obj[k]? = some val)
    (hrenamed : (renamed props obj)[k]? = some val) :
    (fixupFields text props required obj)[k]? =
      props[k]?.elim (some val) fun s => repair text s (k ∈ required) val := by
  rw [getElem?_fixupFields, hrenamed]
  cases props[k]? with
  | none => rfl
  | some s =>
    simp only [typeCoercion, minStrip, minClamp, numToStr, h, Option.bind_some, repair]
    by_cases harray : schemaType s = "array" ∧ val.isString
    · -- neither of the later stages is for an array
      have hstring : ¬(schemaType s = "string" ∧ val.isNumber) := by simp [harray.1]
      simp only [violatedMinimum_eq_none val (.inl harray.1), if_pos harray,
        if_neg hstring, Option.bind_none, Option.elim_none, Option.elim_some, Option.map_some]
    · by_cases hstring : schemaType s = "string" ∧ val.isNumber
      · simp only [violatedMinimum_eq_none val (.inr hstring.1), if_neg harray,
          if_pos hstring, Option.bind_none, Option.elim_none, Option.elim_some, Option.map_some]
      · simp only [if_neg harray, if_neg hstring, Option.elim_none, Option.elim_some]
        cases violatedMinimum s val with
        | none => rfl
        | some min_val => by_cases hrequired : k ∈ required <;> simp [hrequired]

/-! ### All corrections -/

/-- What becomes of the value of a key that stays. -/
def repairAt (text : Json → String) (props : Fields) (required : List String) (k : String)
    (val : Json) : Option Json :=
  props[k]?.elim (some val) fun s => repair text s (k ∈ required) val

lemma getElem?_fixupFields_of_arrives (text : Json → String) (required : List String)
    {w p : String} {val : Json} (h : Arrives props obj w p) (hval : obj[w]? = some val) :
    (fixupFields text props required obj)[p]? = some (renamedValue props p val) := by
  obtain ⟨-, hnone, -⟩ := mem_renames.mp h.mem
  rw [getElem?_fixupFields_of_none hnone, getElem?_renamed_of_arrives h hval]

lemma getElem?_fixupFields_of_moved (text : Json → String) (required : List String)
    {w p : String} (h : Arrives props obj w p) : (fixupFields text props required obj)[w]? = none :=
  getElem?_fixupFields_of_gone (getElem?_renamed_of_gone h)

lemma getElem?_fixupFields_of_stays (text : Json → String) (required : List String) {k : String}
    (hgone : ∀ p, ¬Arrives props obj k p) (harrives : ∀ w, ¬Arrives props obj w k) :
    (fixupFields text props required obj)[k]? = obj[k]?.bind (repairAt text props required k) := by
  have hrenamed := getElem?_renamed_of_stays hgone harrives
  cases hk : obj[k]? with
  | none =>
    rw [getElem?_fixupFields_of_none hk, hrenamed, hk]
    rfl
  | some val => exact getElem?_fixupFields_of_some hk (hrenamed.trans hk)

/-- Nothing is corrected when no property is to be renamed and each value suits its property. -/
lemma fixupFields_eq_self_iff : fixupFields text props required obj = obj ↔
    renames props obj = [] ∧
      ∀ k val, obj[k]? = some val → repairAt text props required k val = some val := by
  have hno (hnone : renames props obj = []) (w p : String) : ¬Arrives props obj w p := by
    intro h
    have hmem := h.mem
    rw [hnone] at hmem
    cases hmem
  constructor
  · intro h
    have hnone : renames props obj = [] := by
      rw [List.eq_nil_iff_forall_not_mem]
      rintro ⟨w, p⟩ hmem
      obtain ⟨p', harrives⟩ := exists_arrives hmem
      obtain ⟨-, hmissing, -, -, val, hval⟩ := mem_renames.mp harrives.mem
      have hp' := getElem?_fixupFields_of_arrives text required harrives hval
      rw [h, hmissing] at hp'
      cases hp'
    refine ⟨hnone, ?_⟩
    intro k val hval
    have hk := getElem?_fixupFields_of_stays text required (hno hnone k) (hno hnone · k)
    rw [h, hval, Option.bind_some] at hk
    exact hk.symm
  · rintro ⟨hnone, hrepair⟩
    apply ExtTreeMap.ext_getElem?
    intro k
    rw [getElem?_fixupFields_of_stays text required (hno hnone k) (hno hnone · k)]
    cases hk : obj[k]? with
    | none => rfl
    | some val => exact hrepair k val hk

end Arbeiterfarm.Agents
