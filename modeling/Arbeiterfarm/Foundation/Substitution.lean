import Mathlib.Data.List.Basic
import Mathlib.Logic.Relation

/-!
# Letters written as words

A letter is written as a word in which it does not occur. Two lists are written alike exactly if
one comes from the other by exchanging occurrences of the letter and of the word.
-/

namespace Foundation

variable {α : Type*} {a : α} {word : List α}

/-! ### Exchanging the letter and the word -/

/-- One occurrence of the letter gives way to the word. -/
def ReplacesOne (a : α) (word : List α) (l l' : List α) : Prop :=
  ∃ before after, l = before ++ a :: after ∧ l' = before ++ (word ++ after)

/-- Occurrences of the letter and of the word are exchanged. -/
def Exchangeable (a : α) (word : List α) : List α → List α → Prop :=
  Relation.EqvGen (ReplacesOne a word)

namespace Exchangeable

lemma refl (l : List α) : Exchangeable a word l l := Relation.EqvGen.refl l

lemma symm {l l' : List α} (h : Exchangeable a word l l') : Exchangeable a word l' l :=
  Relation.EqvGen.symm _ _ h

lemma trans {l l' l'' : List α} (h : Exchangeable a word l l') (h' : Exchangeable a word l' l'') :
    Exchangeable a word l l'' :=
  Relation.EqvGen.trans _ _ _ h h'

lemma of_replacesOne {l l' : List α} (h : ReplacesOne a word l l') : Exchangeable a word l l' :=
  Relation.EqvGen.rel _ _ h

lemma append_left {l l' : List α} (before : List α) (h : Exchangeable a word l l') :
    Exchangeable a word (before ++ l) (before ++ l') := by
  induction h with
  | rel l l' h =>
    obtain ⟨b, after, rfl, rfl⟩ := h
    exact of_replacesOne ⟨before ++ b, after, by simp, by simp⟩
  | refl l => exact refl _
  | symm l l' _ ih => exact ih.symm
  | trans l l' l'' _ _ ih ih' => exact ih.trans ih'

end Exchangeable

/-! ### Writing the letter as the word -/

variable [DecidableEq α]

/-- The list with the word in place of the letter. -/
def writeAs (a : α) (word : List α) (l : List α) : List α :=
  l.flatMap fun c => if c = a then word else [c]

@[simp] lemma writeAs_nil : writeAs a word [] = [] := rfl

lemma writeAs_append (l l' : List α) :
    writeAs a word (l ++ l') = writeAs a word l ++ writeAs a word l' :=
  List.flatMap_append

@[simp] lemma writeAs_cons_self (l : List α) :
    writeAs a word (a :: l) = word ++ writeAs a word l := by
  simp [writeAs]

lemma writeAs_cons_of_ne {c : α} (h : c ≠ a) (l : List α) :
    writeAs a word (c :: l) = c :: writeAs a word l := by
  simp [writeAs, h]

lemma writeAs_of_notMem {l : List α} (h : a ∉ l) : writeAs a word l = l := by
  induction l with
  | nil => rfl
  | cons c l ih =>
    obtain ⟨hne, hl⟩ := not_or.mp (mt List.mem_cons.mpr h)
    rw [writeAs_cons_of_ne (Ne.symm hne), ih hl]

lemma notMem_writeAs (hword : a ∉ word) (l : List α) : a ∉ writeAs a word l := by
  intro h
  obtain ⟨c, -, hc⟩ := List.mem_flatMap.mp h
  split_ifs at hc with heq
  · exact hword hc
  · exact heq (List.mem_singleton.mp hc).symm

lemma writeAs_eq_self_iff (hword : a ∉ word) {l : List α} : writeAs a word l = l ↔ a ∉ l :=
  ⟨fun h => h ▸ notMem_writeAs hword l, writeAs_of_notMem⟩

/-- Exchanges lead from every list to what it is written as. -/
lemma exchangeable_writeAs (a : α) (word l : List α) :
    Exchangeable a word l (writeAs a word l) := by
  induction l with
  | nil => exact .refl []
  | cons c l ih =>
    by_cases hc : c = a
    · subst hc
      rw [writeAs_cons_self]
      exact (Exchangeable.of_replacesOne ⟨[], l, rfl, rfl⟩).trans (ih.append_left word)
    · rw [writeAs_cons_of_ne hc]
      exact ih.append_left [c]

lemma Exchangeable.writeAs_eq (hword : a ∉ word) {l l' : List α} (h : Exchangeable a word l l') :
    writeAs a word l = writeAs a word l' := by
  induction h with
  | rel l l' h =>
    obtain ⟨before, after, rfl, rfl⟩ := h
    simp only [writeAs_append, writeAs_cons_self, writeAs_of_notMem hword]
  | refl l => rfl
  | symm l l' _ ih => exact ih.symm
  | trans l l' l'' _ _ ih ih' => exact ih.trans ih'

theorem writeAs_eq_iff_exchangeable (hword : a ∉ word) {l l' : List α} :
    writeAs a word l = writeAs a word l' ↔ Exchangeable a word l l' := by
  refine ⟨fun h => ?_, fun h => h.writeAs_eq hword⟩
  have hback := (exchangeable_writeAs a word l').symm
  rw [← h] at hback
  exact (exchangeable_writeAs a word l).trans hback

end Foundation
