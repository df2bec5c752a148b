import Mathlib.Data.List.Basic

/-!
# Offsets into a list of wide elements

The elements of a list take up room: each has a width, and positions are offsets in units of that
width, as byte offsets are in a text. An offset inside an element is no boundary, and a list is not
cut there.
-/

namespace Foundation.Offsets

variable {α : Type*} (w : α → ℕ)

/-- The room that the elements take up together. -/
def width : List α → ℕ
  | [] => 0
  | a :: l => w a + width l

@[simp] lemma width_nil : width w [] = 0 := rfl

@[simp] lemma width_cons (a : α) (l : List α) : width w (a :: l) = w a + width w l := rfl

@[simp] lemma width_append (l m : List α) : width w (l ++ m) = width w l + width w m := by
  induction l with
  | nil => simp
  | cons a l ih => rw [List.cons_append, width_cons, ih, width_cons, Nat.add_assoc]

lemma width_replicate (n : ℕ) (a : α) : width w (List.replicate n a) = n * w a := by
  induction n with
  | zero => simp
  | succ n ih => rw [List.replicate_succ, width_cons, ih, Nat.succ_mul, Nat.add_comm]

/-- The parts of the list before and after an offset. An offset inside an element gives `none`. -/
def split? : List α → ℕ → Option (List α × List α)
  | l, 0 => some ([], l)
  | [], _ + 1 => none
  | a :: l, n + 1 =>
    if w a ≤ n + 1 then (split? l (n + 1 - w a)).map fun p => (a :: p.1, p.2) else none

/-- The offset lies between two elements, or at an end. -/
def IsBoundary (l : List α) (n : ℕ) : Prop := (split? w l n).isSome

instance (l : List α) (n : ℕ) : Decidable (IsBoundary w l n) :=
  inferInstanceAs (Decidable ((split? w l n).isSome = true))

/-- The elements from the offset `i` up to the offset `j`. -/
def slice? (l : List α) (i j : ℕ) : Option (List α) :=
  if i ≤ j then (split? w l i).bind fun p => (split? w p.2 (j - i)).map Prod.fst else none

/-- The last boundary up to an offset. -/
def floorBoundary (l : List α) : ℕ → ℕ
  | 0 => 0
  | n + 1 => if IsBoundary w l (n + 1) then n + 1 else floorBoundary l n

/-- The offset at which the last occurrence of `pat` begins. -/
def lastOccurrence [BEq α] (pat : List α) : List α → Option ℕ
  | [] => if pat.isEmpty then some 0 else none
  | a :: l =>
    match lastOccurrence pat l with
    | some n => some (w a + n)
    | none => if pat.isPrefixOf (a :: l) then some 0 else none

variable {w}

@[simp] lemma split?_zero (l : List α) : split? w l 0 = some ([], l) := by
  cases l <;> rfl

/-! ### Parts -/

lemma of_split?_eq_some {l x y : List α} {n : ℕ} (h : split? w l n = some (x, y)) :
    l = x ++ y ∧ width w x = n := by
  induction l generalizing n x with
  | nil =>
    cases n with
    | zero =>
      obtain ⟨rfl, rfl⟩ := Prod.mk.inj (Option.some.inj h)
      exact ⟨rfl, rfl⟩
    | succ n => cases h
  | cons a l ih =>
    cases n with
    | zero =>
      obtain ⟨rfl, rfl⟩ := Prod.mk.inj (Option.some.inj h)
      exact ⟨rfl, rfl⟩
    | succ n =>
      rw [split?] at h
      by_cases ha : w a ≤ n + 1
      · rw [if_pos ha, Option.map_eq_some_iff] at h
        obtain ⟨p, hp, heq⟩ := h
        obtain ⟨rfl, rfl⟩ := Prod.mk.inj heq
        obtain ⟨rfl, hwidth⟩ := ih hp
        exact ⟨rfl, by rw [width_cons, hwidth]; omega⟩
      · rw [if_neg ha] at h
        cases h

/-! ### Positions looked for from behind -/

lemma isBoundary_zero (l : List α) : IsBoundary w l 0 := by
  rw [IsBoundary, split?_zero]
  rfl

lemma floorBoundary_le (l : List α) (n : ℕ) : floorBoundary w l n ≤ n := by
  induction n with
  | zero => exact Nat.le_refl _
  | succ n ih =>
    rw [floorBoundary]
    by_cases h : IsBoundary w l (n + 1)
    · exact Nat.le_of_eq (if_pos h)
    · rw [if_neg h]
      exact Nat.le_succ_of_le ih

lemma isBoundary_floorBoundary (l : List α) (n : ℕ) : IsBoundary w l (floorBoundary w l n) := by
  induction n with
  | zero => exact isBoundary_zero l
  | succ n ih =>
    rw [floorBoundary]
    by_cases h : IsBoundary w l (n + 1)
    · rwa [if_pos h]
    · rwa [if_neg h]

lemma le_floorBoundary {l : List α} {m n : ℕ} (hm : IsBoundary w l m) (hle : m ≤ n) :
    m ≤ floorBoundary w l n := by
  induction n with
  | zero => exact hle
  | succ n ih =>
    rw [floorBoundary]
    by_cases h : IsBoundary w l (n + 1)
    · rwa [if_pos h]
    · rw [if_neg h]
      have hne : m ≠ n + 1 := fun heq => h (heq ▸ hm)
      exact ih (by omega)

lemma of_lastOccurrence_eq_some [BEq α] [LawfulBEq α] {pat l : List α} {n : ℕ}
    (h : lastOccurrence w pat l = some n) :
    ∃ x y, l = x ++ (pat ++ y) ∧ width w x = n := by
  induction l generalizing n with
  | nil =>
    rw [lastOccurrence] at h
    by_cases hpat : pat.isEmpty
    · rw [if_pos hpat] at h
      exact ⟨[], [], by simpa using hpat, Option.some.inj h⟩
    · rw [if_neg hpat] at h
      cases h
  | cons a l ih =>
    rw [lastOccurrence] at h
    cases hlast : lastOccurrence w pat l with
    | some m =>
      rw [hlast] at h
      obtain ⟨x, y, rfl, hx⟩ := ih hlast
      exact ⟨a :: x, y, rfl, by rw [width_cons, hx]; exact Option.some.inj h⟩
    | none =>
      rw [hlast] at h
      by_cases hpat : pat.isPrefixOf (a :: l)
      · simp only [if_pos hpat] at h
        obtain ⟨y, hy⟩ := List.isPrefixOf_iff_prefix.mp hpat
        exact ⟨[], y, hy.symm, Option.some.inj h⟩
      · simp only [if_neg hpat] at h
        cases h

section

variable (hw : ∀ a, 0 < w a)
include hw

lemma split?_append (x y : List α) : split? w (x ++ y) (width w x) = some (x, y) := by
  induction x with
  | nil => simp
  | cons a x ih =>
    have ha := hw a
    obtain ⟨n, hn⟩ : ∃ n, width w (a :: x) = n + 1 := ⟨w a + width w x - 1, by simp; omega⟩
    have hrest : n + 1 - w a = width w x := by rw [← hn, width_cons, Nat.add_sub_cancel_left]
    have hle : w a ≤ n + 1 := by rw [← hn, width_cons]; exact Nat.le_add_right _ _
    rw [hn, List.cons_append, split?, if_pos hle, hrest, ih]
    rfl

lemma split?_eq_some_iff {l x y : List α} {n : ℕ} :
    split? w l n = some (x, y) ↔ l = x ++ y ∧ width w x = n := by
  refine ⟨of_split?_eq_some, fun ⟨hl, hn⟩ => ?_⟩
  rw [hl, ← hn, split?_append hw]

lemma isBoundary_iff {l : List α} {n : ℕ} :
    IsBoundary w l n ↔ ∃ x y, l = x ++ y ∧ width w x = n := by
  rw [IsBoundary, Option.isSome_iff_exists, Prod.exists]
  simp only [split?_eq_some_iff hw]

lemma isBoundary_width (l : List α) : IsBoundary w l (width w l) :=
  (isBoundary_iff hw).mpr ⟨l, [], by simp, rfl⟩

lemma IsBoundary.le_width {l : List α} {n : ℕ} (h : IsBoundary w l n) : n ≤ width w l := by
  obtain ⟨x, y, rfl, hx⟩ := (isBoundary_iff hw).mp h
  rw [width_append, hx]
  exact Nat.le_add_right _ _

lemma slice?_eq_some_iff {l m : List α} {i j : ℕ} :
    slice? w l i j = some m ↔ ∃ x y, l = x ++ (m ++ y) ∧ width w x = i ∧ width w m + i = j := by
  rw [slice?]
  by_cases hij : i ≤ j
  · rw [if_pos hij, Option.bind_eq_some_iff]
    simp only [Option.map_eq_some_iff, Prod.exists, split?_eq_some_iff hw]
    constructor
    · rintro ⟨x, rest, ⟨rfl, rfl⟩, m', y, ⟨rfl, hm⟩, rfl⟩
      exact ⟨x, y, rfl, rfl, by omega⟩
    · rintro ⟨x, y, rfl, rfl, hj⟩
      exact ⟨x, m ++ y, ⟨rfl, rfl⟩, m, y, ⟨rfl, by omega⟩, rfl⟩
  · rw [if_neg hij]
    refine ⟨fun h => (nomatch h), ?_⟩
    rintro ⟨x, y, -, -, hj⟩
    omega

/-- Of two parts from the start, the wider one begins with the other one. -/
lemma exists_append_of_width_le {x y x' y' : List α} (h : x ++ y = x' ++ y')
    (hle : width w x ≤ width w x') : ∃ m, x' = x ++ m := by
  rcases List.prefix_or_prefix_of_prefix ⟨y, rfl⟩ ⟨y', h.symm⟩ with ⟨m, hm⟩ | ⟨m, rfl⟩
  · exact ⟨m, hm.symm⟩
  · refine ⟨[], ?_⟩
    cases m with
    | nil => simp
    | cons a m =>
      have := hw a
      rw [width_append, width_cons] at hle
      omega

lemma isSome_slice? {l : List α} {i j : ℕ} (hij : i ≤ j) (hi : IsBoundary w l i)
    (hj : IsBoundary w l j) : ∃ m, slice? w l i j = some m := by
  obtain ⟨x, y, rfl, hx⟩ := (isBoundary_iff hw).mp hi
  obtain ⟨x', y', heq, hx'⟩ := (isBoundary_iff hw).mp hj
  obtain ⟨m, rfl⟩ := exists_append_of_width_le hw heq (by omega)
  refine ⟨m, (slice?_eq_some_iff hw).mpr ⟨x, y', ?_, hx, ?_⟩⟩
  · rw [heq, List.append_assoc]
  · rw [width_append] at hx'
    omega

/-- Behind a boundary inside the list there is another one, one element further. -/
lemma exists_next_boundary {l : List α} {i k : ℕ} (hk : ∀ a, w a ≤ k) (hi : IsBoundary w l i)
    (hlt : i < width w l) : ∃ j, IsBoundary w l j ∧ i < j ∧ j ≤ i + k := by
  obtain ⟨x, y, rfl, hx⟩ := (isBoundary_iff hw).mp hi
  cases y with
  | nil => simp [hx] at hlt
  | cons a y =>
    have hpos := hw a
    have hle := hk a
    exact ⟨i + w a, (isBoundary_iff hw).mpr ⟨x ++ [a], y, by simp, by simp [hx]⟩, by omega,
      by omega⟩

end

end Foundation.Offsets
