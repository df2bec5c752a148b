import Mathlib.Data.List.Basic
import Mathlib.Data.List.Infix

/-!
# Occurrences of a pattern

`occurrences p l` counts the places where `p` begins in `l`, and `replace p v l` goes through `l`
from the left and puts `v` for each occurrence that it meets. Both act on the parts of a list by
themselves if no occurrence lies across the border (`NoCross`).
-/

namespace Foundation

variable {α : Type*} [DecidableEq α]

/-! ### Counting -/

/-- The number of suffixes that begin with `p`; the empty one is not counted. -/
def occurrences (p : List α) : List α → ℕ
  | [] => 0
  | a :: l => (if p <+: a :: l then 1 else 0) + occurrences p l

/-- No occurrence of `p` begins in `x` and ends in what follows it. -/
def NoCross (p x z : List α) : Prop :=
  ∀ s t, p = s ++ t → s ≠ [] → t ≠ [] → s <:+ x → ¬t <+: z

omit [DecidableEq α] in
lemma NoCross.of_suffix {p x y z : List α} (h : NoCross p x z) (hy : y <:+ x) : NoCross p y z :=
  fun s t hp hs ht hsy => h s t hp hs ht (hsy.trans hy)

omit [DecidableEq α] in
lemma NoCross.reverse {p x z : List α} (h : NoCross p.reverse z.reverse x.reverse) :
    NoCross p x z := by
  rintro s t hst hs ht hsx htz
  refine h t.reverse s.reverse (by rw [hst, List.reverse_append]) ?_ ?_
    (List.reverse_suffix.mpr htz) (List.reverse_prefix.mpr hsx)
  · simpa using ht
  · simpa using hs

omit [DecidableEq α] in
/-- What begins before the border ends before it. -/
lemma NoCross.prefix_append_iff {p x z : List α} (h : NoCross p x z) (hx : x ≠ []) :
    p <+: x ++ z ↔ p <+: x := by
  refine ⟨fun hpre => ?_, fun hpre => hpre.trans (List.prefix_append x z)⟩
  rcases List.prefix_or_prefix_of_prefix hpre (List.prefix_append x z) with hpx | ⟨t, rfl⟩
  · exact hpx
  · by_cases ht : t = []
    · rw [ht, List.append_nil]
    · exact absurd ((List.prefix_append_right_inj x).mp hpre) (h x t rfl hx ht List.suffix_rfl)

lemma occurrences_append {p x z : List α} (h : NoCross p x z) :
    occurrences p (x ++ z) = occurrences p x + occurrences p z := by
  induction x with
  | nil => rw [List.nil_append, occurrences, Nat.zero_add]
  | cons a x ih =>
    rw [List.cons_append, occurrences, occurrences, ih (h.of_suffix (List.suffix_cons a x)),
      Nat.add_assoc]
    rw [← List.cons_append]
    simp only [h.prefix_append_iff (List.cons_ne_nil a x)]

lemma le_occurrences_append (p x z : List α) :
    occurrences p x + occurrences p z ≤ occurrences p (x ++ z) := by
  induction x with
  | nil => rw [List.nil_append, occurrences, Nat.zero_add]
  | cons a x ih =>
    rw [List.cons_append, occurrences, occurrences, Nat.add_assoc]
    refine Nat.add_le_add ?_ ih
    by_cases hpre : p <+: a :: x
    · have hlong : p <+: a :: (x ++ z) := hpre.trans (List.prefix_append (a :: x) z)
      rw [if_pos hpre, if_pos hlong]
    · rw [if_neg hpre]
      exact Nat.zero_le _

/-- A pattern begins with its first element. -/
lemma occurrences_eq_zero {p l : List α} {a : α} (hp : p.head? = some a) (ha : a ∉ l) :
    occurrences p l = 0 := by
  induction l with
  | nil => rfl
  | cons b l ih =>
    rw [occurrences, ih fun h => ha (List.mem_cons_of_mem b h), if_neg]
    rintro ⟨t, ht⟩
    cases p with
    | nil => cases hp
    | cons c p =>
      obtain rfl := Option.some.inj hp
      obtain rfl := (List.cons.inj ht).1
      exact ha List.mem_cons_self

/-! ### Replacing -/

/-- The first `skip` elements belong to an occurrence that has been replaced. -/
def replaceFrom (p v : List α) : ℕ → List α → List α
  | _, [] => []
  | skip + 1, _ :: l => replaceFrom p v skip l
  | 0, a :: l =>
    if p <+: a :: l then v ++ replaceFrom p v (p.length - 1) l else a :: replaceFrom p v 0 l

/-- The occurrences of `p` that are met from the left are replaced by `v`. -/
def replace (p v l : List α) : List α := replaceFrom p v 0 l

variable {p v : List α}

lemma replaceFrom_eq (skip : ℕ) (l : List α) :
    replaceFrom p v skip l = replace p v (l.drop skip) := by
  induction l generalizing skip with
  | nil => cases skip <;> rfl
  | cons a l ih =>
    cases skip with
    | zero => rfl
    | succ skip => exact ih skip

@[simp] lemma replace_nil : replace p v [] = [] := rfl

lemma replace_append_self (hp : p ≠ []) (l : List α) :
    replace p v (p ++ l) = v ++ replace p v l := by
  cases p with
  | nil => exact absurd rfl hp
  | cons a p =>
    rw [List.cons_append, replace, replaceFrom, ← List.cons_append,
      if_pos (List.prefix_append (a :: p) l), replaceFrom_eq, List.length_cons,
      Nat.add_sub_cancel, List.drop_left]

lemma replace_cons {a : α} {l : List α} (h : ¬p <+: a :: l) :
    replace p v (a :: l) = a :: replace p v l := by
  rw [replace, replaceFrom, if_neg h]
  rfl

lemma replace_append {x z : List α} (hp : p ≠ []) (h : NoCross p x z) :
    replace p v (x ++ z) = replace p v x ++ replace p v z := by
  induction hn : x.length using Nat.strong_induction_on generalizing x with
  | _ n ih =>
    subst hn
    cases x with
    | nil => rfl
    | cons a x =>
      by_cases hpre : p <+: a :: x
      · obtain ⟨y, hy⟩ := hpre
        have hlt : y.length < (a :: x).length := by
          rw [← hy, List.length_append]
          exact Nat.lt_add_of_pos_left (List.length_pos_of_ne_nil hp)
        rw [← hy, List.append_assoc, replace_append_self hp, replace_append_self hp,
          ih _ hlt (h.of_suffix ⟨p, hy⟩) rfl, List.append_assoc]
      · have hrest := ih _ (Nat.lt_succ_self x.length) (h.of_suffix (List.suffix_cons a x)) rfl
        rw [List.cons_append, replace_cons hpre, replace_cons, hrest, List.cons_append]
        rwa [← List.cons_append, h.prefix_append_iff (List.cons_ne_nil a x)]

end Foundation
