import Arbeiterfarm.Foundation.Linked

/-!
# Ranges of positions

Half-open ranges of natural numbers. Ranges that are sorted by their start are merged where they
touch, and the elements at the positions of the merged ranges are picked out of a list in one pass.
-/

namespace Foundation.Ranges

variable {α : Type*}

abbrev Range := ℕ × ℕ

def Range.Contains (r : Range) (j : ℕ) : Prop := r.1 ≤ j ∧ j < r.2

def Covers (ranges : List Range) (j : ℕ) : Prop := ∃ r ∈ ranges, r.Contains j

@[simp] lemma not_covers_nil (j : ℕ) : ¬ Covers [] j := by simp [Covers]

@[simp] lemma covers_cons (r : Range) (ranges : List Range) (j : ℕ) :
    Covers (r :: ranges) j ↔ r.Contains j ∨ Covers ranges j := by simp [Covers]

/-- The second range starts within the first or at its end. -/
def touches (x y : Range) : Bool := y.1 ≤ x.2

/-- Both ranges and what is between them. -/
def hull (x y : Range) : Range := (x.1, max x.2 y.2)

def mergeRanges (ranges : List Range) : List Range := mergeAdjacent touches hull ranges

def StartLe (x y : Range) : Prop := x.1 ≤ y.1

/-! ### Merged ranges -/

lemma contains_hull {x y : Range} (hstart : x.1 ≤ y.1) (h : touches x y) (j : ℕ) :
    (hull x y).Contains j ↔ x.Contains j ∨ y.Contains j := by
  simp only [touches, decide_eq_true_eq] at h
  simp only [Range.Contains, hull]
  omega

lemma covers_go {x : Range} {l : List Range} (h : (x :: l).Pairwise StartLe) (j : ℕ) :
    Covers (mergeAdjacent.go touches hull x l) j ↔ Covers (x :: l) j := by
  induction l generalizing x with
  | nil => rfl
  | cons y l ih =>
    rw [List.pairwise_cons, List.pairwise_cons] at h
    obtain ⟨hx, hy, hl⟩ := h
    rw [mergeAdjacent.go]
    by_cases htouch : touches x y
    · have hsorted : (hull x y :: l).Pairwise StartLe :=
        List.pairwise_cons.mpr ⟨fun z hz => hx z (List.mem_cons_of_mem y hz), hl⟩
      rw [if_pos htouch, ih hsorted, covers_cons, covers_cons, covers_cons,
        contains_hull (hx y List.mem_cons_self) htouch, or_assoc]
    · rw [if_neg htouch, covers_cons, ih (List.pairwise_cons.mpr ⟨hy, hl⟩), covers_cons x]

lemma start_le_of_mem_go {x : Range} {l : List Range} (h : (x :: l).Pairwise StartLe) {r : Range}
    (hr : r ∈ mergeAdjacent.go touches hull x l) : x.1 ≤ r.1 := by
  induction l generalizing x with
  | nil =>
    rw [mergeAdjacent.go, List.mem_singleton] at hr
    rw [hr]
  | cons y l ih =>
    rw [List.pairwise_cons, List.pairwise_cons] at h
    obtain ⟨hx, hy, hl⟩ := h
    rw [mergeAdjacent.go] at hr
    by_cases htouch : touches x y
    · rw [if_pos htouch] at hr
      exact ih (x := hull x y)
        (List.pairwise_cons.mpr ⟨fun z hz => hx z (List.mem_cons_of_mem y hz), hl⟩) hr
    · rw [if_neg htouch, List.mem_cons] at hr
      rcases hr with rfl | hr
      · exact Nat.le_refl _
      · exact Nat.le_trans (hx y List.mem_cons_self) (ih (List.pairwise_cons.mpr ⟨hy, hl⟩) hr)

/-- The ranges are not empty, and there is a gap between any two of them. -/
def Separated (ranges : List Range) : Prop :=
  (∀ r ∈ ranges, r.1 < r.2) ∧ ranges.Pairwise fun x y => x.2 < y.1

lemma separated_go {x : Range} {l : List Range} (h : (x :: l).Pairwise StartLe)
    (hne : ∀ r ∈ x :: l, r.1 < r.2) : Separated (mergeAdjacent.go touches hull x l) := by
  induction l generalizing x with
  | nil => exact ⟨hne, List.pairwise_singleton _ x⟩
  | cons y l ih =>
    have hsorted := h
    rw [List.pairwise_cons, List.pairwise_cons] at h
    obtain ⟨hx, hy, hl⟩ := h
    rw [List.forall_mem_cons, List.forall_mem_cons] at hne
    obtain ⟨hnex, hney, hnel⟩ := hne
    rw [mergeAdjacent.go]
    by_cases htouch : touches x y
    · rw [if_pos htouch]
      have hhull : (hull x y).1 < (hull x y).2 := Nat.lt_of_lt_of_le hnex (Nat.le_max_left _ _)
      exact ih (List.pairwise_cons.mpr ⟨fun z hz => hx z (List.mem_cons_of_mem y hz), hl⟩)
        (List.forall_mem_cons.mpr ⟨hhull, hnel⟩)
    · rw [if_neg htouch]
      have htail : (y :: l).Pairwise StartLe := List.pairwise_cons.mpr ⟨hy, hl⟩
      obtain ⟨hne, hgap⟩ := ih htail (List.forall_mem_cons.mpr ⟨hney, hnel⟩)
      refine ⟨List.forall_mem_cons.mpr ⟨hnex, hne⟩, List.pairwise_cons.mpr ⟨fun r hr => ?_, hgap⟩⟩
      simp only [touches, decide_eq_true_eq, Nat.not_le] at htouch
      exact Nat.lt_of_lt_of_le htouch (start_le_of_mem_go htail hr)

lemma covers_mergeRanges {ranges : List Range} (h : ranges.Pairwise StartLe) (j : ℕ) :
    Covers (mergeRanges ranges) j ↔ Covers ranges j := by
  cases ranges with
  | nil => rfl
  | cons x l => exact covers_go h j

lemma separated_mergeRanges {ranges : List Range} (h : ranges.Pairwise StartLe)
    (hne : ∀ r ∈ ranges, r.1 < r.2) : Separated (mergeRanges ranges) := by
  cases ranges with
  | nil => exact ⟨hne, List.Pairwise.nil⟩
  | cons x l => exact separated_go h hne

/-! ### Picking elements -/

/-- The first range is left when its end is reached. -/
def leave (current : ℕ) : List Range → List Range
  | [] => []
  | r :: ranges => if current ≥ r.2 then ranges else r :: ranges

/-- The elements of the list in the ranges, with their positions. The first element has the position
`current`. -/
def pick : List Range → ℕ → List α → List (ℕ × α)
  | _, _, [] => []
  | ranges, current, a :: l =>
    match leave current ranges with
    | [] => []
    | r :: ranges =>
      if r.1 ≤ current ∧ current < r.2 then (current, a) :: pick (r :: ranges) (current + 1) l
      else pick (r :: ranges) (current + 1) l

/-- The position is not behind the first range. -/
def Reached (current : ℕ) (ranges : List Range) : Prop := ∀ r ∈ ranges.head?, current ≤ r.2

lemma separated_leave {ranges : List Range} (h : Separated ranges) (current : ℕ) :
    Separated (leave current ranges) := by
  cases ranges with
  | nil => exact h
  | cons r ranges =>
    rw [leave]
    by_cases hleft : current ≥ r.2
    · rw [if_pos hleft]
      exact ⟨fun x hx => h.1 x (List.mem_cons_of_mem r hx), (List.pairwise_cons.mp h.2).2⟩
    · rwa [if_neg hleft]

/-- A range that is entered or ahead is not at its end. -/
lemma lt_of_mem_leave {ranges : List Range} (h : Separated ranges) {current : ℕ}
    (hreached : Reached current ranges) {r : Range} (hr : r ∈ leave current ranges) :
    current < r.2 := by
  cases ranges with
  | nil => cases hr
  | cons x ranges =>
    have hx : current ≤ x.2 := hreached x rfl
    have hlater : ∀ y ∈ ranges, current < y.2 := fun y hy => by
      have hgap := (List.pairwise_cons.mp h.2).1 y hy
      have hne := h.1 y (List.mem_cons_of_mem x hy)
      omega
    rw [leave] at hr
    by_cases hleft : current ≥ x.2
    · rw [if_pos hleft] at hr
      exact hlater r hr
    · rw [if_neg hleft, List.mem_cons] at hr
      rcases hr with rfl | hr
      · exact Nat.lt_of_not_le hleft
      · exact hlater r hr

lemma covers_leave {ranges : List Range} {current j : ℕ} (hj : current ≤ j)
    (h : Covers ranges j) : Covers (leave current ranges) j := by
  cases ranges with
  | nil => exact h
  | cons r ranges =>
    rw [leave]
    by_cases hleft : current ≥ r.2
    · rw [if_pos hleft]
      exact ((covers_cons r ranges j).mp h).resolve_left fun hr => by
        have := hr.2
        omega
    · rwa [if_neg hleft]

/-- Every position in the ranges has its element. -/
lemma lookup_pick {ranges : List Range} (h : Separated ranges) {current : ℕ}
    (hreached : Reached current ranges) (l : List α) {j : ℕ} (hj : current ≤ j)
    (hcovers : Covers ranges j) : (pick ranges current l).lookup j = l[j - current]? := by
  induction l generalizing ranges current with
  | nil => simp [pick]
  | cons a l ih =>
    rw [pick]
    have hsep := separated_leave h current
    have hlt := fun r => lt_of_mem_leave h hreached (r := r)
    have hcov := covers_leave hj hcovers
    cases hleave : leave current ranges with
    | nil => simp [hleave] at hcov
    | cons r rest =>
      rw [hleave] at hsep hlt hcov
      have hnext : Reached (current + 1) (r :: rest) := fun x hx => by
        obtain rfl : r = x := by simpa using hx
        exact hlt r List.mem_cons_self
      rcases Nat.eq_or_lt_of_le hj with rfl | hlater
      · -- a later range starts behind the first one
        have hr : r.1 ≤ current ∧ current < r.2 := by
          rcases (covers_cons r rest current).mp hcov with hr | ⟨x, hx, hstart, -⟩
          · exact hr
          · have hgap := (List.pairwise_cons.mp hsep.2).1 x hx
            have := hlt r List.mem_cons_self
            omega
        simp [hr]
      · have hindex : (a :: l)[j - current]? = l[j - (current + 1)]? := by
          rw [show j - current = j - (current + 1) + 1 by omega, List.getElem?_cons_succ]
        have hne : (j == current) = false := by simpa using Nat.ne_of_gt hlater
        rw [hindex, ← ih hsep hnext hlater hcov]
        by_cases hr : r.1 ≤ current ∧ current < r.2
        · simp [hr, List.lookup_cons, hne]
        · simp [hr]

end Foundation.Ranges
