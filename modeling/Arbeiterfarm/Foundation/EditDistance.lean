import Mathlib.Data.List.Basic
import Mathlib.Order.MinMax

/-!
# Edit distance

The least number of elements that are deleted, inserted or replaced to turn one list into another.
It is computed from the front of the lists; since scripts of edits can be reversed, the same
recursion holds at the end.
-/

namespace Foundation.EditDistance

variable {α : Type*}

/-! ### Scripts -/

/-- With `n` edits, the first list becomes the second. -/
inductive Edits : List α → List α → ℕ → Prop
  | nil : Edits [] [] 0
  | delete {xs ys : List α} {n : ℕ} (x : α) (h : Edits xs ys n) : Edits (x :: xs) ys (n + 1)
  | insert {xs ys : List α} {n : ℕ} (y : α) (h : Edits xs ys n) : Edits xs (y :: ys) (n + 1)
  | keep {xs ys : List α} {n : ℕ} (x : α) (h : Edits xs ys n) : Edits (x :: xs) (x :: ys) n
  | replace {xs ys : List α} {n : ℕ} (x y : α) (h : Edits xs ys n) :
      Edits (x :: xs) (y :: ys) (n + 1)

namespace Edits

lemma refl (xs : List α) : Edits xs xs 0 := by
  induction xs with
  | nil => exact .nil
  | cons x xs ih => exact ih.keep x

lemma symm {xs ys : List α} {n : ℕ} (h : Edits xs ys n) : Edits ys xs n := by
  induction h with
  | nil => exact .nil
  | delete x _ ih => exact ih.insert x
  | insert y _ ih => exact ih.delete y
  | keep x _ ih => exact ih.keep x
  | replace x y _ ih => exact ih.replace y x

lemma deleteAll (xs : List α) : Edits xs [] xs.length := by
  induction xs with
  | nil => exact .nil
  | cons x xs ih => exact ih.delete x

lemma append {xs ys xs' ys' : List α} {m n : ℕ} (h : Edits xs ys m) (h' : Edits xs' ys' n) :
    Edits (xs ++ xs') (ys ++ ys') (n + m) := by
  induction h with
  | nil => exact h'
  | delete x _ ih => exact ih.delete x
  | insert y _ ih => exact ih.insert y
  | keep x _ ih => exact ih.keep x
  | replace x y _ ih => exact ih.replace x y

lemma reverse {xs ys : List α} {n : ℕ} (h : Edits xs ys n) : Edits xs.reverse ys.reverse n := by
  induction h with
  | nil => exact .nil
  | delete x _ ih =>
    rw [List.reverse_cons]
    simpa [Nat.add_comm] using ih.append (Edits.nil.delete x)
  | insert y _ ih =>
    rw [List.reverse_cons]
    simpa [Nat.add_comm] using ih.append (Edits.nil.insert y)
  | keep x _ ih =>
    rw [List.reverse_cons, List.reverse_cons]
    simpa using ih.append (Edits.nil.keep x)
  | replace x y _ ih =>
    rw [List.reverse_cons, List.reverse_cons]
    simpa [Nat.add_comm] using ih.append (Edits.nil.replace x y)

/-- Without edits, nothing changes. -/
lemma eq_of_zero {xs ys : List α} {n : ℕ} (h : Edits xs ys n) (hn : n = 0) : xs = ys := by
  induction h with
  | nil => rfl
  | delete _ _ _ | insert _ _ _ | replace _ _ _ _ => cases hn
  | keep x _ ih => rw [ih hn]

end Edits

/-! ### The distance -/

section Distance

variable [DecidableEq α]

/-- The cost of putting `y` in place of `x`. -/
def cost (x y : α) : ℕ := if x = y then 0 else 1

def editDistance : List α → List α → ℕ
  | [], ys => ys.length
  | x :: xs, [] => (x :: xs).length
  | x :: xs, y :: ys =>
    min (min (editDistance xs (y :: ys) + 1) (editDistance (x :: xs) ys + 1))
      (editDistance xs ys + cost x y)
termination_by xs ys => xs.length + ys.length

@[simp] lemma editDistance_nil_left (ys : List α) : editDistance [] ys = ys.length := by
  rw [editDistance]

@[simp] lemma editDistance_nil_right (xs : List α) : editDistance xs [] = xs.length := by
  cases xs with
  | nil => rw [editDistance]
  | cons x xs => rw [editDistance]

lemma editDistance_cons_cons (x y : α) (xs ys : List α) :
    editDistance (x :: xs) (y :: ys) =
      min (min (editDistance xs (y :: ys) + 1) (editDistance (x :: xs) ys + 1))
        (editDistance xs ys + cost x y) := by
  rw [editDistance]

lemma edits_cons_cons {x y : α} {xs ys : List α} {n : ℕ} (h : Edits xs ys n) :
    Edits (x :: xs) (y :: ys) (n + cost x y) := by
  by_cases hxy : x = y
  · rw [cost, if_pos hxy, ← hxy]
    exact h.keep x
  · rw [cost, if_neg hxy]
    exact h.replace x y

/-- There is a script of that many edits. -/
theorem edits_editDistance (xs ys : List α) : Edits xs ys (editDistance xs ys) := by
  induction xs, ys using editDistance.induct with
  | case1 ys =>
    rw [editDistance_nil_left]
    exact (Edits.deleteAll ys).symm
  | case2 x xs =>
    rw [editDistance_nil_right]
    exact Edits.deleteAll (x :: xs)
  | case3 x xs y ys hdelete hinsert hreplace =>
    rw [editDistance_cons_cons]
    rcases min_choice (min (editDistance xs (y :: ys) + 1) (editDistance (x :: xs) ys + 1))
      (editDistance xs ys + cost x y) with hmin | hmin
    · rw [hmin]
      rcases min_choice (editDistance xs (y :: ys) + 1) (editDistance (x :: xs) ys + 1) with
        hmin | hmin
      · rw [hmin]
        exact hdelete.delete x
      · rw [hmin]
        exact hinsert.insert y
    · rw [hmin]
      exact edits_cons_cons hreplace

lemma editDistance_delete_le (x : α) (xs ys : List α) :
    editDistance (x :: xs) ys ≤ editDistance xs ys + 1 := by
  cases ys with
  | nil => simp
  | cons y ys =>
    rw [editDistance_cons_cons]
    exact (min_le_left _ _).trans (min_le_left _ _)

lemma editDistance_insert_le (y : α) (xs ys : List α) :
    editDistance xs (y :: ys) ≤ editDistance xs ys + 1 := by
  cases xs with
  | nil => simp
  | cons x xs =>
    rw [editDistance_cons_cons]
    exact (min_le_left _ _).trans (min_le_right _ _)

lemma editDistance_replace_le (x y : α) (xs ys : List α) :
    editDistance (x :: xs) (y :: ys) ≤ editDistance xs ys + cost x y := by
  rw [editDistance_cons_cons]
  exact min_le_right _ _

/-- No script has fewer edits. -/
theorem editDistance_le {xs ys : List α} {n : ℕ} (h : Edits xs ys n) : editDistance xs ys ≤ n := by
  induction h with
  | nil => simp
  | @delete xs ys n x _ ih =>
    exact (editDistance_delete_le x xs ys).trans (Nat.add_le_add_right ih 1)
  | @insert xs ys n y _ ih =>
    exact (editDistance_insert_le y xs ys).trans (Nat.add_le_add_right ih 1)
  | @keep xs ys n x _ ih =>
    have hle := editDistance_replace_le x x xs ys
    rw [cost, if_pos rfl] at hle
    exact hle.trans ih
  | @replace xs ys n x y _ ih =>
    have hcost : cost x y ≤ 1 := by
      rw [cost]
      split_ifs <;> simp
    exact (editDistance_replace_le x y xs ys).trans (Nat.add_le_add ih hcost)

theorem editDistance_comm (xs ys : List α) : editDistance xs ys = editDistance ys xs :=
  le_antisymm (editDistance_le (edits_editDistance ys xs).symm)
    (editDistance_le (edits_editDistance xs ys).symm)

theorem editDistance_eq_zero_iff {xs ys : List α} : editDistance xs ys = 0 ↔ xs = ys := by
  constructor
  · exact (edits_editDistance xs ys).eq_of_zero
  · rintro rfl
    exact Nat.le_zero.mp (editDistance_le (Edits.refl xs))

lemma editDistance_reverse (xs ys : List α) :
    editDistance xs.reverse ys.reverse = editDistance xs ys := by
  apply le_antisymm
  · exact editDistance_le (edits_editDistance xs ys).reverse
  · have hle := editDistance_le (edits_editDistance xs.reverse ys.reverse).reverse
    rwa [List.reverse_reverse, List.reverse_reverse] at hle

/-- The recursion at the end of the lists. -/
theorem editDistance_concat (x y : α) (xs ys : List α) :
    editDistance (xs ++ [x]) (ys ++ [y]) =
      min (min (editDistance xs (ys ++ [y]) + 1) (editDistance (xs ++ [x]) ys + 1))
        (editDistance xs ys + cost x y) := by
  have hcons := editDistance_cons_cons x y xs.reverse ys.reverse
  rw [← List.reverse_concat, ← List.reverse_concat] at hcons
  simpa only [editDistance_reverse] using hcons

/-- The recursion over the beginnings of the lists. -/
lemma editDistance_take_succ {xs ys : List α} {i j : ℕ} (hi : i < xs.length) (hj : j < ys.length) :
    editDistance (xs.take (i + 1)) (ys.take (j + 1)) =
      min (min (editDistance (xs.take i) (ys.take (j + 1)) + 1)
        (editDistance (xs.take (i + 1)) (ys.take j) + 1))
          (editDistance (xs.take i) (ys.take j) + cost xs[i] ys[j]) := by
  rw [List.take_succ_eq_append_getElem hi, List.take_succ_eq_append_getElem hj]
  exact editDistance_concat xs[i] ys[j] (xs.take i) (ys.take j)

end Distance

end Foundation.EditDistance
