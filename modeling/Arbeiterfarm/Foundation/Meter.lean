import Mathlib.Logic.Function.Basic
import Mathlib.Algebra.Order.Monoid.NatCast

/-!
# Metered resources

Users check a counter against a limit, then use the resource, and only then advance the counter.
Where a user stands says how much it has `lent` between its check and its update, and how much of
that is `uncounted`, a part of the total that the counter does not know of yet. As long as one user
at a time has something lent, the total keeps within the limit.
-/

namespace Foundation

variable {ι φ : Type*}

/-- One user `k` at most has something lent, within the limit, and the total is what the counter
knows and what `k` has not counted yet. -/
def Metered (lent uncounted : φ → ℕ) (limit counter total : ℕ) (users : ι → φ) : Prop :=
  ∃ k, (∀ j ≠ k, lent (users j) = 0) ∧ (∀ j, uncounted (users j) ≤ lent (users j)) ∧
    counter + lent (users k) ≤ limit ∧ total = counter + uncounted (users k)

namespace Metered

variable {lent uncounted : φ → ℕ} {limit counter total n : ℕ} {users : ι → φ} {k : ι} {p : φ}

/-- The total keeps within the limit. -/
theorem total_le (h : Metered lent uncounted limit counter total users) : total ≤ limit := by
  obtain ⟨k, -, hle, hlimit, htotal⟩ := h
  have hk := hle k
  omega

lemma uncounted_le (h : Metered lent uncounted limit counter total users) (j : ι) :
    uncounted (users j) ≤ lent (users j) := by
  obtain ⟨_, -, hle, -, -⟩ := h
  exact hle j

/-- Any user may be taken for the one that has something lent, if no other has. -/
lemma of_alone (h : Metered lent uncounted limit counter total users)
    (halone : ∀ j ≠ k, lent (users j) = 0) :
    (∀ j, uncounted (users j) ≤ lent (users j)) ∧ counter + lent (users k) ≤ limit ∧
      total = counter + uncounted (users k) := by
  obtain ⟨k', halone', hle, hlimit, htotal⟩ := h
  by_cases hkk : k = k'
  · subst hkk
    exact ⟨hle, hlimit, htotal⟩
  · have hk := halone' k hkk
    have hk' := halone k' (Ne.symm hkk)
    have hu := hle k
    have hu' := hle k'
    refine ⟨hle, ?_, ?_⟩ <;> omega

/-- A user that has something lent is the only one. -/
lemma alone (h : Metered lent uncounted limit counter total users) (hk : lent (users k) ≠ 0) :
    ∀ j ≠ k, lent (users j) = 0 := by
  obtain ⟨k', halone, -, -, -⟩ := h
  obtain rfl : k = k' := by
    by_contra hkk
    exact hk (halone k hkk)
  exact halone

/-- What a user has lent fits beside the counter. -/
lemma counter_add_le (h : Metered lent uncounted limit counter total users) (k : ι) :
    counter + lent (users k) ≤ limit := by
  by_cases hk : lent (users k) = 0
  · obtain ⟨k', -, -, hlimit, -⟩ := h
    omega
  · exact (h.of_alone (h.alone hk)).2.1

variable [DecidableEq ι]

/-- The only user moves, and with it the counter and the total. -/
lemma move {counter' total' : ℕ} (h : Metered lent uncounted limit counter total users)
    (halone : ∀ j ≠ k, lent (users j) = 0) (hle : uncounted p ≤ lent p)
    (hlimit : counter' + lent p ≤ limit) (htotal : total' = counter' + uncounted p) :
    Metered lent uncounted limit counter' total' (Function.update users k p) := by
  obtain ⟨hles, -, -⟩ := h.of_alone halone
  refine ⟨k, ?_, ?_, ?_, ?_⟩
  · intro j hj
    rw [Function.update_of_ne hj]
    exact halone j hj
  · intro j
    by_cases hj : j = k
    · subst hj
      rw [Function.update_self]
      exact hle
    · rw [Function.update_of_ne hj]
      exact hles j
  · rw [Function.update_self]
    exact hlimit
  · rw [Function.update_self]
    exact htotal

/-- A user moves, and its amounts stay what they are. -/
lemma same (h : Metered lent uncounted limit counter total users)
    (hl : lent p = lent (users k)) (hu : uncounted p = uncounted (users k)) :
    Metered lent uncounted limit counter total (Function.update users k p) := by
  have hmap (f : φ → ℕ) (hf : f p = f (users k)) (j : ι) :
      f (Function.update users k p j) = f (users j) := by
    by_cases hj : j = k
    · subst hj
      rw [Function.update_self, hf]
    · rw [Function.update_of_ne hj]
  simp only [Metered, hmap lent hl, hmap uncounted hu]
  exact h

/-- A user moves, and with it the counter and the total; if it has nothing lent, it lends nothing
and both stay. -/
lemma settle {counter' total' : ℕ} (h : Metered lent uncounted limit counter total users)
    (hidle : lent (users k) = 0 → lent p = 0 ∧ counter' = counter ∧ total' = total)
    (hle : uncounted p ≤ lent p) (hlent : counter' + lent p ≤ counter + lent (users k))
    (htotal : total = counter + uncounted (users k) → total' = counter' + uncounted p) :
    Metered lent uncounted limit counter' total' (Function.update users k p) := by
  by_cases hk : lent (users k) = 0
  · obtain ⟨hlp, rfl, rfl⟩ := hidle hk
    have huk : uncounted (users k) = 0 := Nat.le_zero.mp (hk ▸ h.uncounted_le k)
    have hup : uncounted p = 0 := Nat.le_zero.mp (hlp ▸ hle)
    exact h.same (hlp.trans hk.symm) (hup.trans huk.symm)
  · have halone := h.alone hk
    obtain ⟨-, hlimit, heq⟩ := h.of_alone halone
    exact h.move halone hle (hlent.trans hlimit) (htotal heq)

/-- The check: nothing else is lent, and the amount is within the limit. -/
lemma acquire (h : Metered lent uncounted limit counter total users)
    (halone : ∀ j ≠ k, lent (users j) = 0) (hk : uncounted (users k) = 0)
    (hlimit : counter + lent p ≤ limit) (hu : uncounted p = 0) :
    Metered lent uncounted limit counter total (Function.update users k p) := by
  obtain ⟨-, -, htotal⟩ := h.of_alone halone
  apply h.move halone (hu ▸ Nat.zero_le _) hlimit
  rw [htotal, hk, hu]

/-- The use of what is lent. -/
lemma use (h : Metered lent uncounted limit counter total users) (hk : lent (users k) = n)
    (huk : uncounted (users k) = 0) (hl : lent p = n) (hu : uncounted p = n) :
    Metered lent uncounted limit counter (total + n) (Function.update users k p) := by
  refine h.settle (fun hidle => ?_) (le_of_eq (hu.trans hl.symm)) ?_ (fun heq => ?_)
  · have hn : n = 0 := hk.symm.trans hidle
    exact ⟨hl.trans hn, rfl, by rw [hn, Nat.add_zero]⟩
  · rw [hl, hk]
  · rw [heq, huk, hu, Nat.add_zero]

/-- The counter is advanced by what was used. -/
lemma count (h : Metered lent uncounted limit counter total users) (hk : lent (users k) = n)
    (huk : uncounted (users k) = n) (hl : lent p = 0) (hu : uncounted p = 0) :
    Metered lent uncounted limit (counter + n) total (Function.update users k p) := by
  refine h.settle (fun hidle => ?_) (le_of_eq (hu.trans hl.symm)) ?_ (fun heq => ?_)
  · have hn : n = 0 := hk.symm.trans hidle
    exact ⟨hl, by rw [hn, Nat.add_zero], rfl⟩
  · rw [hl, hk, Nat.add_zero]
  · rw [heq, huk, hu, Nat.add_zero]

/-- A user gives back what it has not used. -/
lemma release (h : Metered lent uncounted limit counter total users)
    (huk : uncounted (users k) = 0) (hl : lent p = 0) (hu : uncounted p = 0) :
    Metered lent uncounted limit counter total (Function.update users k p) := by
  refine h.settle (fun _ => ⟨hl, rfl, rfl⟩) (le_of_eq (hu.trans hl.symm)) ?_ (fun heq => ?_)
  · rw [hl, Nat.add_zero]
    exact Nat.le_add_right _ _
  · rw [heq, huk, hu]

end Metered

end Foundation
