import Mathlib.Data.Nat.Notation

/-!
# Token buckets

A bucket holds at most `cap` tokens and gets one for every interval that has passed since its last
refill; a grant takes one. `Credit` bounds the grants of a time window by what is left in the bucket
and by the last refill. Every operation keeps it, also the one that puts a full bucket in place of
one that would be full when refilled.
-/

namespace Foundation.TokenBucket

/-- After `grants` since the time `start` there are `tokens` left, and the last refill was up to the
time `last`. -/
def Credit (interval cap start grants tokens last : ℕ) : Prop :=
  (grants + tokens) * interval + start + 1 ≤ (cap + 1) * interval + last

namespace Credit

variable {interval cap start grants tokens last : ℕ}

/-- A window begins with at most a full bucket, which gets its next token in less than an
interval. -/
lemma begin (htokens : tokens ≤ cap) (hlast : start < last + interval) :
    Credit interval cap start 0 tokens last := by
  have := Nat.mul_le_mul_right interval htokens
  rw [Credit, Nat.zero_add, Nat.add_mul]
  omega

lemma refill (h : Credit interval cap start grants tokens last) {n tokens' : ℕ}
    (htokens : tokens' ≤ tokens + n) :
    Credit interval cap start grants tokens' (last + interval * n) := by
  have := Nat.mul_le_mul_right interval (Nat.add_le_add_left htokens grants)
  rw [← Nat.add_assoc, Nat.add_mul _ n, Nat.mul_comm n] at this
  rw [Credit] at h ⊢
  omega

lemma grant (h : Credit interval cap start grants (tokens + 1) last) :
    Credit interval cap start (grants + 1) tokens last := by
  have hsum : grants + 1 + tokens = grants + (tokens + 1) := by omega
  rw [Credit, hsum]
  exact h

lemma later (h : Credit interval cap start grants tokens last) {last' : ℕ} (hlast : last ≤ last') :
    Credit interval cap start grants tokens last' :=
  Nat.le_trans h (Nat.add_le_add_left hlast _)

/-- A bucket that is full when it is refilled can be replaced by a full one. -/
lemma renew (h : Credit interval cap start grants tokens last) {now : ℕ} (hlast : last ≤ now)
    (hfull : cap ≤ tokens + (now - last) / interval) :
    Credit interval cap start grants cap now := by
  have hpassed := Nat.div_mul_le_self (now - last) interval
  have hcap := Nat.mul_le_mul_right interval (Nat.add_le_add_left hfull grants)
  rw [← Nat.add_assoc, Nat.add_mul _ ((now - last) / interval)] at hcap
  rw [Credit] at h ⊢
  omega

/-- The bound for the window: a full bucket, and one grant for each interval that has begun. -/
theorem grants_le (h : Credit interval cap start grants tokens last) {length : ℕ}
    (hinterval : 0 < interval) (hlast : last ≤ start + length) :
    grants ≤ cap + (length + interval - 1) / interval := by
  have hgrants := Nat.mul_le_mul_right interval (Nat.le_add_right grants tokens)
  rw [Credit, Nat.add_mul cap, Nat.one_mul] at h
  by_cases hle : grants ≤ cap
  · exact Nat.le_add_right_of_le hle
  · obtain ⟨more, rfl⟩ := Nat.exists_eq_add_of_le (Nat.le_of_not_le hle)
    rw [Nat.add_le_add_iff_left, Nat.le_div_iff_mul_le hinterval]
    rw [Nat.add_mul cap more] at hgrants
    omega

end Credit

end Foundation.TokenBucket
