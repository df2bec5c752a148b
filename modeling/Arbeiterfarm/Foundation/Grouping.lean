import Mathlib.Data.List.Pairwise
import Mathlib.Data.List.Sort

/-!
# Sorting and grouping by a key

A list is sorted stably by a key if the keys ascend and the elements of each key keep their order.
It is grouped by a key if each key that occurs has one group, the keys of the groups ascend, and the
elements of a group keep their order.
-/

namespace Foundation.Grouping

variable {α β κ : Type*} [LinearOrder κ]

/-- The stable sort of a list by a key. -/
def sortOn (k : α → κ) (l : List α) : List α := l.insertionSort fun a b => k a ≤ k b

structure StablySorted (k : α → κ) (l s : List α) : Prop where
  ascending : s.Pairwise fun a b => k a ≤ k b
  inOrder : ∀ c, (s.filter fun a => k a = c) = l.filter fun a => k a = c

structure Grouped (k : α → κ) (l : List α) (gs : List (List α)) : Prop where
  nonempty : ∀ g ∈ gs, g ≠ []
  oneKey : ∀ g ∈ gs, ∀ a ∈ g, ∀ b ∈ g, k a = k b
  ascending : gs.Pairwise fun g g' => ∀ a ∈ g, ∀ b ∈ g', k a < k b
  inOrder : ∀ c, (gs.flatten.filter fun a => k a = c) = l.filter fun a => k a = c

variable {k : α → κ} {l s : List α} {gs : List (List α)}

/-! ### The stable sort -/

lemma sortOn_map (f : β → α) (l : List β) :
    sortOn k (l.map f) = (sortOn (fun b => k (f b)) l).map f :=
  (List.map_insertionSort _ _ f l fun _ _ _ _ => Iff.rfl).symm

lemma pairwise_sortOn (k : α → κ) (l : List α) :
    (sortOn k l).Pairwise fun a b => k a ≤ k b :=
  have : Std.Total fun a b => k a ≤ k b := ⟨fun a b => le_total (k a) (k b)⟩
  have : IsTrans α fun a b => k a ≤ k b := ⟨fun _ _ _ => le_trans⟩
  List.pairwise_insertionSort (fun a b => k a ≤ k b) l

/-- An element is inserted before the elements of its key. -/
lemma filter_orderedInsert (a : α) (l : List α) (c : κ) :
    ((l.orderedInsert (fun a b => k a ≤ k b) a).filter fun b => k b = c) =
      (a :: l).filter fun b => k b = c := by
  induction l with
  | nil => rfl
  | cons b l ih =>
    by_cases hab : k a ≤ k b
    · rw [List.orderedInsert_cons, if_pos hab]
    · have hne : ¬(k a = c ∧ k b = c) := fun h => hab (h.1.trans h.2.symm).le
      rw [List.orderedInsert_cons, if_neg hab, List.filter_cons, ih]
      by_cases ha : k a = c
      · have hb : k b ≠ c := fun hb => hne ⟨ha, hb⟩
        simp [ha, hb]
      · simp [ha, List.filter_cons]

lemma filter_sortOn (k : α → κ) (l : List α) (c : κ) :
    ((sortOn k l).filter fun a => k a = c) = l.filter fun a => k a = c := by
  induction l with
  | nil => rfl
  | cons a l ih =>
    rw [sortOn, List.insertionSort_cons, filter_orderedInsert, ← sortOn, List.filter_cons,
      List.filter_cons, ih]

theorem stablySorted_sortOn (k : α → κ) (l : List α) : StablySorted k l (sortOn k l) :=
  ⟨pairwise_sortOn k l, filter_sortOn k l⟩

/-! ### Elements of one key -/

lemma mem_of_filter_eq {l s : List α} (h : ∀ c, (s.filter fun a => k a = c) =
    l.filter fun a => k a = c) {a : α} : a ∈ s ↔ a ∈ l := by
  have hmem : a ∈ (s.filter fun b => k b = k a) ↔ a ∈ l.filter fun b => k b = k a := by
    rw [h]
  simpa using hmem

/-! ### Groups -/

lemma Grouped.nil : Grouped k [] [] :=
  ⟨by simp, by simp, List.Pairwise.nil, fun _ => rfl⟩

lemma Grouped.cons {g : List α} (hg : g ≠ []) (hkey : ∀ a ∈ g, ∀ b ∈ g, k a = k b)
    (hlt : ∀ a ∈ g, ∀ b ∈ l, k a < k b) (h : Grouped k l gs) : Grouped k (g ++ l) (g :: gs) := by
  refine ⟨?_, ?_, ?_, ?_⟩
  · exact List.forall_mem_cons.mpr ⟨hg, h.nonempty⟩
  · exact List.forall_mem_cons.mpr ⟨hkey, h.oneKey⟩
  · refine List.Pairwise.cons (fun g' hg' a ha b hb => hlt a ha b ?_) h.ascending
    exact (mem_of_filter_eq h.inOrder).mp (List.mem_flatten_of_mem hg' hb)
  · intro c
    rw [List.flatten_cons, List.filter_append, List.filter_append, h.inOrder]

/-- The elements of a grouped list can come in another order if those of each key keep theirs. -/
lemma Grouped.congr (h : Grouped k s gs)
    (hinOrder : ∀ c, (s.filter fun a => k a = c) = l.filter fun a => k a = c) : Grouped k l gs :=
  ⟨h.nonempty, h.oneKey, h.ascending, fun c => (h.inOrder c).trans (hinOrder c)⟩

end Foundation.Grouping
