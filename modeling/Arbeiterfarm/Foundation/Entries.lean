import Mathlib.Data.List.Basic

/-!
# Maps as lists of entries

A map is the list of its entries, and a key is looked up in the first entry that has it. There is
one lemma for what each operation does to a lookup.
-/

namespace Foundation

variable {κ β : Type*} [DecidableEq κ]

lemma lookup_cons_eq (k l : κ) (w : β) (m : List (κ × β)) :
    ((l, w) :: m).lookup k = if k = l then some w else m.lookup k := by
  by_cases hk : k = l
  · rw [if_pos hk, hk, List.lookup_cons_self]
  · rw [if_neg hk, List.lookup_cons, beq_false_of_ne hk]

lemma lookup_append_singleton (m : List (κ × β)) (k l : κ) (w : β) :
    (m ++ [(l, w)]).lookup k = (m.lookup k).or (if k = l then some w else none) := by
  rw [List.lookup_append, lookup_cons_eq, List.lookup_nil]

lemma lookup_filter_ne (m : List (κ × β)) (k l : κ) :
    (m.filter fun e => e.1 ≠ l).lookup k = if k = l then none else m.lookup k := by
  induction m with
  | nil => simp
  | cons e m ih =>
    obtain ⟨l', w⟩ := e
    by_cases hl : l' = l
    · rw [List.filter_cons_of_neg (by simpa using hl), ih, lookup_cons_eq, hl]
      by_cases hk : k = l
      · rw [if_pos hk, if_pos hk]
      · rw [if_neg hk, if_neg hk, if_neg hk]
    · rw [List.filter_cons_of_pos (by simpa using hl), lookup_cons_eq, ih, lookup_cons_eq]
      by_cases hk : k = l
      · rw [if_pos hk, if_pos hk, if_neg (hk ▸ Ne.symm hl)]
      · rw [if_neg hk, if_neg hk]

lemma lookup_filter_eq_some_iff {m : List (κ × β)} {k l : κ} {w : β} :
    (m.filter fun e => e.1 ≠ l).lookup k = some w ↔ k ≠ l ∧ m.lookup k = some w := by
  rw [lookup_filter_ne]
  by_cases hk : k = l
  · rw [if_pos hk]
    exact iff_of_false nofun fun h => h.1 hk
  · rw [if_neg hk, and_iff_right hk]

lemma lookup_eq_none_of_keys {m : List (κ × β)} {k : κ} (h : k ∉ m.map Prod.fst) :
    m.lookup k = none := by
  rw [List.lookup_eq_none_iff]
  intro e he
  exact bne_iff_ne.mpr fun heq => h (heq ▸ List.mem_map_of_mem he)

end Foundation
