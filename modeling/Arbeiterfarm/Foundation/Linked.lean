import Mathlib.Data.List.Basic
import Mathlib.Data.List.Chain

/-!
# Lists whose neighbours are linked

`Linked R p l` relates each element of `l` to the one before it and to the one after it, where
`p` stands before the list and `none` after it. A pass over a list that looks at the last
element it has emitted is specified by the relation it establishes between neighbours.

`mergeAdjacent` is the pass that merges neighbours of the same kind.
-/

namespace Foundation

variable {α β : Type*} {R S : Option α → Option α → Prop}

def Linked (R : Option α → Option α → Prop) : Option α → List α → Prop
  | p, []     => R p none
  | p, x :: l => R p (some x) ∧ Linked R (some x) l

lemma Linked.head {p : Option α} {l : List α} (h : Linked R p l) : R p l.head? := by
  cases l with
  | nil => exact h
  | cons x l => exact h.1

/-- Only the first link depends on what stands before the list. -/
lemma Linked.imp_head {p q : Option α} {l : List α} (h : Linked R p l)
    (hpq : R p l.head? → R q l.head?) : Linked R q l := by
  cases l with
  | nil => exact hpq h
  | cons x l => exact ⟨hpq h.1, h.2⟩

lemma Linked.imp (hRS : ∀ p q, R p q → S p q) {p : Option α} {l : List α} (h : Linked R p l) :
    Linked S p l := by
  induction l generalizing p with
  | nil => exact hRS _ _ h
  | cons x l ih => exact ⟨hRS _ _ h.1, ih h.2⟩

/-- The links around an element in the middle of the list. -/
lemma Linked.split {p : Option α} {l m : List α} {x : α} (h : Linked R p (l ++ x :: m)) :
    R (l.getLast?.or p) (some x) ∧ R (some x) m.head? := by
  induction l generalizing p with
  | nil => exact ⟨h.1, h.2.head⟩
  | cons y l ih =>
    have hlast : (y :: l).getLast?.or p = l.getLast?.or (some y) := by
      cases l <;> simp [List.getLast?_cons]
    rw [hlast]
    exact ih h.2

lemma Linked.isChain {T : α → α → Prop} (hRT : ∀ x y, R (some x) (some y) → T x y)
    {p : Option α} {l : List α} (h : Linked R p l) : l.IsChain T := by
  induction l generalizing p with
  | nil => exact List.isChain_nil
  | cons x l ih =>
    refine List.isChain_cons.mpr ⟨fun y hy => hRT x y ?_, ih h.2⟩
    have := h.2.head
    rwa [Option.mem_def.mp hy] at this

/-! ### Merging neighbours -/

section Merge

variable (same : α → α → Bool) (merge : α → α → α)

/-- `x` is the last element emitted so far; it absorbs its successors of the same kind. -/
def mergeAdjacent.go : α → List α → List α
  | x, []     => [x]
  | x, y :: l => if same x y then go (merge x y) l else x :: go y l

def mergeAdjacent : List α → List α
  | []     => []
  | x :: l => mergeAdjacent.go same merge x l

variable {same merge}

lemma flatMap_mergeAdjacent_go {f : α → List β}
    (hf : ∀ x y, same x y → f (merge x y) = f x ++ f y) (x : α) (l : List α) :
    (mergeAdjacent.go same merge x l).flatMap f = f x ++ l.flatMap f := by
  induction l generalizing x with
  | nil => simp [mergeAdjacent.go]
  | cons y l ih =>
    simp only [mergeAdjacent.go]
    split_ifs with hxy
    · rw [ih, hf x y hxy, List.flatMap_cons, List.append_assoc]
    · rw [List.flatMap_cons, ih, List.flatMap_cons]

/-- What is collected from the elements is not changed by merging them. -/
lemma flatMap_mergeAdjacent {f : α → List β}
    (hf : ∀ x y, same x y → f (merge x y) = f x ++ f y) (l : List α) :
    (mergeAdjacent same merge l).flatMap f = l.flatMap f := by
  cases l with
  | nil => rfl
  | cons x l => exact flatMap_mergeAdjacent_go hf x l

/-- Neighbours are linked by `R` and not of the same kind. -/
def Apart (same : α → α → Bool) (R : Option α → Option α → Prop) (p q : Option α) : Prop :=
  R p q ∧ ∀ x ∈ p, ∀ y ∈ q, same x y = false

lemma linked_mergeAdjacent_go
    (hsame : ∀ p x y, same x y → same p (merge x y) = same p x)
    (hleft : ∀ p x y, same x y → R p (some x) → R (some x) (some y) → R p (some (merge x y)))
    (hright : ∀ x y q, same x y → R (some x) (some y) → R (some y) q →
      R (some (merge x y)) q)
    {p : Option α} {x : α} {l : List α} (hp : ∀ z ∈ p, same z x = false)
    (h : Linked R p (x :: l)) : Linked (Apart same R) p (mergeAdjacent.go same merge x l) := by
  induction l generalizing p x with
  | nil => exact ⟨⟨h.1, fun z hz y hy => Option.mem_some_iff.mp hy ▸ hp z hz⟩, h.2, by simp⟩
  | cons y l ih =>
    obtain ⟨hpx, hxy, hyl⟩ := h
    simp only [mergeAdjacent.go]
    split_ifs with hs
    · refine ih (fun z hz => (hsame z x y hs).trans (hp z hz)) ⟨hleft p x y hs hpx hxy, ?_⟩
      exact hyl.imp_head (hright x y _ hs hxy)
    · refine ⟨⟨hpx, fun z hz w hw => Option.mem_some_iff.mp hw ▸ hp z hz⟩, ?_⟩
      refine ih (fun z hz => ?_) ⟨hxy, hyl⟩
      obtain rfl := Option.mem_some_iff.mp hz
      exact Bool.eq_false_iff.mpr hs

/-- Merging keeps the links and separates neighbours of the same kind, provided that a merged
element is linked to the left as its first part was and to the right as its second part was. -/
theorem linked_mergeAdjacent
    (hsame : ∀ p x y, same x y → same p (merge x y) = same p x)
    (hleft : ∀ p x y, same x y → R p (some x) → R (some x) (some y) → R p (some (merge x y)))
    (hright : ∀ x y q, same x y → R (some x) (some y) → R (some y) q →
      R (some (merge x y)) q)
    {l : List α} (h : Linked R none l) :
    Linked (Apart same R) none (mergeAdjacent same merge l) := by
  cases l with
  | nil => exact ⟨h, by simp⟩
  | cons x l => exact linked_mergeAdjacent_go hsame hleft hright (by simp) h

end Merge

/-! ### Chains -/

section Chains

variable {same : α → α → Bool} {merge : α → α → α} {R S : α → α → Prop}

/-- The first element that is emitted stands for `x`. -/
lemma isChain_cons_mergeAdjacent_go (hleft : ∀ w x y, same x y → (R w (merge x y) ↔ R w x))
    (w x : α) (l : List α) : (w :: mergeAdjacent.go same merge x l).IsChain R ↔
      R w x ∧ (mergeAdjacent.go same merge x l).IsChain R := by
  induction l generalizing x with
  | nil => simp [mergeAdjacent.go]
  | cons y l ih =>
    rw [mergeAdjacent.go]
    split_ifs with hxy
    · rw [ih (merge x y), hleft w x y hxy]
    · exact List.isChain_cons_cons

lemma isChain_mergeAdjacent_go (hleft : ∀ w x y, same x y → (R w (merge x y) ↔ R w x))
    (hright : ∀ x y z, same x y → (S (merge x y) z ↔ S y z)) (hsame : ∀ x y, same x y → S x y)
    (hapart : ∀ x y, same x y = false → (R x y ↔ S x y)) (x : α) (l : List α) :
    (mergeAdjacent.go same merge x l).IsChain R ↔ (x :: l).IsChain S := by
  induction l generalizing x with
  | nil => simp [mergeAdjacent.go]
  | cons y l ih =>
    rw [mergeAdjacent.go, List.isChain_cons_cons]
    split_ifs with hxy
    · have hhead : (merge x y :: l).IsChain S ↔ (y :: l).IsChain S := by
        cases l with
        | nil => simp
        | cons z l => simp only [List.isChain_cons_cons, hright x y z hxy]
      rw [ih (merge x y), hhead, and_iff_right (hsame x y hxy)]
    · rw [isChain_cons_mergeAdjacent_go hleft, ih y,
        hapart x y (Bool.eq_false_iff.mpr hxy)]

/-- Neighbours are related by `R` after the pass if they are related by `S` before it. -/
theorem isChain_mergeAdjacent_iff (hleft : ∀ w x y, same x y → (R w (merge x y) ↔ R w x))
    (hright : ∀ x y z, same x y → (S (merge x y) z ↔ S y z)) (hsame : ∀ x y, same x y → S x y)
    (hapart : ∀ x y, same x y = false → (R x y ↔ S x y)) (l : List α) :
    (mergeAdjacent same merge l).IsChain R ↔ l.IsChain S := by
  cases l with
  | nil => simp [mergeAdjacent]
  | cons x l => exact isChain_mergeAdjacent_go hleft hright hsame hapart x l

end Chains

end Foundation
