import Arbeiterfarm.Foundation.Exec
import Arbeiterfarm.Foundation.TokenBucket
import Mathlib.Data.List.Basic
import Mathlib.Data.Nat.Notation

/-!
# Requests to VirusTotal per minute

One token bucket is shared by all requests. The number of intervals since the last refill is the
quotient of two times in whole milliseconds, and the last refill is moved by this number of exact
intervals. An interval of less than a millisecond makes it a division by zero, and an interval that
is no number of milliseconds makes the quotient too large after some time: the last refill is then
in the future. Times are in nanoseconds.
-/

namespace Arbeiterfarm.Tools.Vt

open Foundation Foundation.TokenBucket

/-! ### The bucket -/

def asMillis (nanos : ℕ) : ℕ := nanos / 1000000

structure RateLimiterState where
  tokens : ℕ
  last_refill : ℕ
  deriving DecidableEq

section

variable (requests_per_minute : UInt32)

def maxTokens : ℕ := max requests_per_minute.toNat 1

/-- `Duration::from_secs(60) / rpm`. -/
def refillInterval : ℕ := 60000000000 / maxTokens requests_per_minute

/-- `RateLimiter::new`. -/
def newLimiter (now : ℕ) : RateLimiterState where
  tokens := maxTokens requests_per_minute
  last_refill := now

/-- `none` if it divides by zero or the sum of the tokens overflows. -/
def refill (now : ℕ) (state : RateLimiterState) : Option RateLimiterState :=
  let elapsed := now - state.last_refill
  let interval := refillInterval requests_per_minute
  if elapsed ≥ interval then
    if asMillis interval = 0 then none
    else
      -- `as u32`
      let new_tokens := asMillis elapsed / asMillis interval % 4294967296
      if state.tokens + new_tokens ≥ 4294967296 then none
      else
        some
          { tokens := min (state.tokens + new_tokens) (maxTokens requests_per_minute)
            last_refill := state.last_refill + interval * new_tokens }
  else some state

end

/-! ### The requests -/

/-- Where a request is. -/
inductive Phase where
  | acquiring (timeout deadline wake : ℕ)
  | granted
  | timedOut (timeout_secs : ℕ)
  | panicked
  deriving DecidableEq

structure Limiter where
  now : ℕ
  state : RateLimiterState
  requests : List Phase
  granted : List ℕ
  deriving DecidableEq

inductive Act where
  | clock (passed : ℕ)
  | acquire (timeout : ℕ)
  /-- The clock is read three times. -/
  | poll (r : ℕ) (passed passed' : ℕ)

namespace Limiter

def setPhase (s : Limiter) (r : ℕ) (phase : Phase) : Limiter :=
  { s with requests := s.requests.set r phase }

/-- No token is left: the request waits for the next one unless its time is over by then. -/
def wait (rpm : UInt32) (s : Limiter) (r timeout deadline passed passed' : ℕ) : Limiter :=
  let elapsed := s.now + passed - s.state.last_refill
  let wait := if elapsed < refillInterval rpm then refillInterval rpm - elapsed else 10000000
  let now := s.now + passed + passed'
  { s with now := now }.setPhase r
    (if now + wait > deadline then .timedOut (timeout / 1000000000)
    else .acquiring timeout deadline (now + wait))

/-- One round of the loop in `acquire`. -/
def poll (rpm : UInt32) (s : Limiter) (r timeout deadline passed passed' : ℕ) : Limiter :=
  match refill rpm s.now s.state with
  | none => s.setPhase r .panicked
  | some state =>
    if state.tokens > 0 then
      { s with
        state := { state with tokens := state.tokens - 1 }
        granted := s.granted ++ [s.now] }.setPhase r .granted
    else { s with state := state }.wait rpm r timeout deadline passed passed'

def init (rpm : UInt32) (now : ℕ) : Limiter := ⟨now, newLimiter rpm now, [], []⟩

def step (rpm : UInt32) (s : Limiter) : Act → Option Limiter
  | .clock passed => some { s with now := s.now + passed }
  | .acquire timeout =>
    some { s with requests := s.requests ++ [.acquiring timeout (s.now + timeout) s.now] }
  | .poll r passed passed' =>
    match s.requests[r]? with
    | some (.acquiring timeout deadline wake) =>
      if wake ≤ s.now then some (s.poll rpm r timeout deadline passed passed') else none
    | _ => none

end Limiter

/-! ### What is promised -/

/-- The grants from `start` on, for `length`. -/
def grantsIn (s : Limiter) (start length : ℕ) : ℕ :=
  s.granted.countP fun g => start ≤ g ∧ g ≤ start + length

/-- A full bucket, and one for every interval that begins in the window. -/
def allowance (rpm : UInt32) (length : ℕ) : ℕ :=
  maxTokens rpm + (length + refillInterval rpm - 1) / refillInterval rpm

structure Sound (rpm : UInt32) (s : Limiter) : Prop where
  refills : .panicked ∉ s.requests
  tokens : s.state.tokens ≤ maxTokens rpm
  past : s.state.last_refill ≤ s.now
  grants : ∀ start length, grantsIn s start length ≤ allowance rpm length

/-- When a request looks at the bucket, less than an interval has passed, or the milliseconds give
the number of intervals that have passed. -/
def CountsExactly (rpm : UInt32) (s : Limiter) : Act → Prop
  | .poll _ _ _ =>
    let elapsed := s.now - s.state.last_refill
    elapsed < refillInterval rpm ∨
      (asMillis (refillInterval rpm) ≠ 0 ∧
        asMillis elapsed / asMillis (refillInterval rpm) = elapsed / refillInterval rpm ∧
        s.state.tokens + elapsed / refillInterval rpm < 4294967296)
  | _ => True

instance (rpm : UInt32) (s : Limiter) (a : Act) : Decidable (CountsExactly rpm s a) :=
  match a with
  | .poll _ _ _            => instDecidableOr
  | .clock _ | .acquire _ => isTrue trivial

/-! ### Refills -/

section

variable {rpm : UInt32} {now : ℕ} {state : RateLimiterState}

variable (rpm) in
lemma refillInterval_pos : 0 < refillInterval rpm := by
  have hlt := rpm.toNat_lt
  refine Nat.div_pos ?_ (Nat.lt_of_lt_of_le Nat.one_pos (Nat.le_max_right _ _))
  rw [maxTokens]
  omega

/-- A refill that counts exactly adds the intervals that have passed. -/
lemma refill_spec (htokens : state.tokens ≤ maxTokens rpm) (hlast : state.last_refill ≤ now)
    (h : now - state.last_refill < refillInterval rpm ∨
      (asMillis (refillInterval rpm) ≠ 0 ∧
        asMillis (now - state.last_refill) / asMillis (refillInterval rpm) =
          (now - state.last_refill) / refillInterval rpm ∧
        state.tokens + (now - state.last_refill) / refillInterval rpm < 4294967296)) :
    ∃ state', refill rpm now state = some state' ∧ ∃ n, state'.tokens ≤ state.tokens + n ∧
      state'.last_refill = state.last_refill + refillInterval rpm * n ∧
      state'.tokens ≤ maxTokens rpm ∧ state'.last_refill ≤ now ∧
      now < state'.last_refill + refillInterval rpm := by
  by_cases hshort : now - state.last_refill < refillInterval rpm
  · refine ⟨state, if_neg (Nat.not_le_of_lt hshort), 0, Nat.le_refl _, rfl, htokens, hlast, ?_⟩
    omega
  · obtain ⟨hmillis, hquotient, hfits⟩ := h.resolve_left hshort
    have hsmall : (now - state.last_refill) / refillInterval rpm < 4294967296 := by omega
    rw [refill]
    simp only
    rw [if_pos (Nat.le_of_not_lt hshort), if_neg hmillis, hquotient, Nat.mod_eq_of_lt hsmall,
      if_neg (Nat.not_le_of_lt hfits)]
    have hle := Nat.mul_div_le (now - state.last_refill) (refillInterval rpm)
    have hlt := Nat.lt_mul_div_succ (now - state.last_refill) (refillInterval_pos rpm)
    rw [Nat.mul_add, Nat.mul_one] at hlt
    refine ⟨_, rfl, (now - state.last_refill) / refillInterval rpm, Nat.min_le_left _ _, rfl,
      Nat.min_le_right _ _, ?_, ?_⟩
    · show state.last_refill + _ ≤ now
      omega
    · show now < state.last_refill + _ + _
      omega

end

/-! ### The invariant -/

section

variable {rpm : UInt32} {s : Limiter} {start length : ℕ}

/-- Up to the end of the window, what is granted in it has been paid from the bucket. -/
structure WindowInv (rpm : UInt32) (start length : ℕ) (s : Limiter) : Prop where
  refills : .panicked ∉ s.requests
  tokens : s.state.tokens ≤ maxTokens rpm
  past : s.state.last_refill ≤ s.now
  credit : s.now ≤ start + length → grantsIn s start length = 0 ∨
    Credit (refillInterval rpm) (maxTokens rpm) start (grantsIn s start length) s.state.tokens
      s.state.last_refill
  allowed : grantsIn s start length ≤ allowance rpm length

lemma WindowInv.init (rpm : UInt32) (start length now : ℕ) :
    WindowInv rpm start length (.init rpm now) :=
  ⟨List.not_mem_nil, Nat.le_refl _, Nat.le_refl _, fun _ => .inl rfl, Nat.zero_le _⟩

lemma not_mem_set {phases : List Phase} (h : .panicked ∉ phases) (r : ℕ) {phase : Phase}
    (hphase : phase ≠ .panicked) : .panicked ∉ phases.set r phase := by
  intro hmem
  rcases List.mem_or_eq_of_mem_set hmem with hmem | heq
  · exact h hmem
  · exact hphase heq.symm

/-- The credit after a refill, if the window has begun. -/
lemma WindowInv.refilled (hs : WindowInv rpm start length s) {state : RateLimiterState} {n : ℕ}
    (hgain : state.tokens ≤ s.state.tokens + n)
    (hlast : state.last_refill = s.state.last_refill + refillInterval rpm * n)
    (hcap : state.tokens ≤ maxTokens rpm) (hnext : s.now < state.last_refill + refillInterval rpm)
    (hbegun : start ≤ s.now) (hnow : s.now ≤ start + length) :
    Credit (refillInterval rpm) (maxTokens rpm) start (grantsIn s start length) state.tokens
      state.last_refill := by
  rcases hs.credit hnow with hzero | hcredit
  · rw [hzero]
    exact Credit.begin hcap (Nat.lt_of_le_of_lt hbegun hnext)
  · rw [hlast]
    exact hcredit.refill hgain

lemma WindowInv.grant (hs : WindowInv rpm start length s) {r n : ℕ} {state : RateLimiterState}
    (hpos : state.tokens > 0) (hgain : state.tokens ≤ s.state.tokens + n)
    (hlast : state.last_refill = s.state.last_refill + refillInterval rpm * n)
    (hcap : state.tokens ≤ maxTokens rpm) (hpast : state.last_refill ≤ s.now)
    (hnext : s.now < state.last_refill + refillInterval rpm) :
    WindowInv rpm start length ({ s with
      state := { state with tokens := state.tokens - 1 }
      granted := s.granted ++ [s.now] }.setPhase r .granted) := by
  have hcount : grantsIn ({ s with
      state := { state with tokens := state.tokens - 1 }
      granted := s.granted ++ [s.now] }.setPhase r .granted) start length =
        grantsIn s start length +
          if start ≤ s.now ∧ s.now ≤ start + length then 1 else 0 := by
    rw [grantsIn, Limiter.setPhase, List.countP_append, List.countP_singleton, grantsIn]
    simp only [decide_eq_true_eq]
  have hrefills := not_mem_set hs.refills r (show Phase.granted ≠ .panicked by simp)
  have htokens : state.tokens - 1 ≤ maxTokens rpm := Nat.le_trans (Nat.sub_le _ _) hcap
  by_cases hin : start ≤ s.now ∧ s.now ≤ start + length
  · rw [if_pos hin] at hcount
    have hcredit := hs.refilled hgain hlast hcap hnext hin.1 hin.2
    rw [← Nat.sub_add_cancel hpos] at hcredit
    have hgrant := hcredit.grant
    refine ⟨hrefills, htokens, hpast, fun _ => .inr ?_, ?_⟩
    · rw [hcount]
      exact hgrant
    · rw [hcount]
      exact hgrant.grants_le (refillInterval_pos rpm) (Nat.le_trans hpast hin.2)
  · rw [if_neg hin, Nat.add_zero] at hcount
    refine ⟨hrefills, htokens, hpast, fun hnow => ?_, ?_⟩
    · rw [hcount]
      refine (hs.credit hnow).imp_right fun hcredit => ?_
      have hrest := hcredit.refill (n := n) (Nat.le_trans (Nat.sub_le _ 1) hgain)
      rw [← hlast] at hrest
      exact hrest
    · rw [hcount]
      exact hs.allowed

lemma WindowInv.wait (hs : WindowInv rpm start length s) {r timeout deadline passed passed' n : ℕ}
    {state : RateLimiterState} (hgain : state.tokens ≤ s.state.tokens + n)
    (hlast : state.last_refill = s.state.last_refill + refillInterval rpm * n)
    (hcap : state.tokens ≤ maxTokens rpm) (hpast : state.last_refill ≤ s.now) :
    WindowInv rpm start length
      (Limiter.wait rpm { s with state := state } r timeout deadline passed passed') := by
  have hlater : s.now ≤ s.now + passed + passed' := by omega
  refine ⟨not_mem_set hs.refills r ?_, hcap, Nat.le_trans hpast hlater, fun hnow => ?_, hs.allowed⟩
  · split_ifs <;> simp
  · refine (hs.credit (Nat.le_trans hlater hnow)).imp_right fun hcredit => ?_
    have hrest := hcredit.refill (n := n) hgain
    rw [← hlast] at hrest
    exact hrest

/-- Every step that counts exactly keeps the invariant. -/
lemma WindowInv.step {t : Limiter} (hs : WindowInv rpm start length s) {a : Act}
    (ha : CountsExactly rpm s a) (h : s.step rpm a = some t) : WindowInv rpm start length t := by
  cases a with
  | clock passed =>
    obtain rfl := Option.some.inj h
    have hlater : s.now ≤ s.now + passed := Nat.le_add_right _ _
    exact ⟨hs.refills, hs.tokens, Nat.le_trans hs.past hlater,
      fun hnow => hs.credit (Nat.le_trans hlater hnow), hs.allowed⟩
  | acquire timeout =>
    obtain rfl := Option.some.inj h
    refine ⟨?_, hs.tokens, hs.past, hs.credit, hs.allowed⟩
    simpa using hs.refills
  | poll r passed passed' =>
    rw [Limiter.step] at h
    split at h
    · next timeout deadline wake hr =>
      split_ifs at h
      obtain rfl := Option.some.inj h
      obtain ⟨state, hstate, n, hgain, hlast, hcap, hpast, hnext⟩ :=
        refill_spec hs.tokens hs.past ha
      rw [Limiter.poll, hstate]
      simp only
      by_cases hpos : state.tokens > 0
      · rw [if_pos hpos]
        exact hs.grant hpos hgain hlast hcap hpast hnext
      · rw [if_neg hpos]
        exact hs.wait hgain hlast hcap hpast
    · cases h

/-- In every run that counts exactly the bucket keeps its promises. -/
theorem sound (rpm : UInt32) (now : ℕ) (as : List Act)
    (h : exec (Limiter.step rpm) (.init rpm now) as = some s)
    (hcounts : Along (Limiter.step rpm) (CountsExactly rpm) (.init rpm now) as) : Sound rpm s := by
  have hinv (start length : ℕ) : WindowInv rpm start length s :=
    exec_invariant (fun _ _ _ hs ha ht => WindowInv.step hs ha ht) (.init rpm start length now)
      hcounts h
  exact ⟨(hinv 0 0).refills, (hinv 0 0).tokens, (hinv 0 0).past, fun start length =>
    (hinv start length).allowed⟩

end

/-- Two requests, a minute apart. -/
def twoRequests : List Act :=
  [.acquire 1000000000, .poll 0 0 0, .clock 60000000000, .acquire 1000000000, .poll 1 0 0]

def afterTwoRequests : Limiter :=
  ⟨60000000000, ⟨0, 60000000000⟩, [.granted, .granted], [0, 60000000000]⟩

theorem sound_two_requests :
    exec (Limiter.step 1) (.init 1 0) twoRequests = some afterTwoRequests ∧
      Sound 1 afterTwoRequests := by
  have hrun : exec (Limiter.step 1) (.init 1 0) twoRequests = some afterTwoRequests := by
    decide +kernel
  have hcounts : Along (Limiter.step 1) (CountsExactly 1) (.init 1 0) twoRequests := by
    decide +kernel
  exact ⟨hrun, sound 1 0 twoRequests hrun hcounts⟩

/-- A request after two milliseconds. -/
def lateRequest : List Act := [.clock 2000000, .acquire 0, .poll 0 0 0]

/-- An interval of one and a half milliseconds, and one of less than a millisecond. -/
theorem not_sound_late_request :
    (∃ s, exec (Limiter.step 40000) (.init 40000 0) lateRequest = some s ∧
      s.now < s.state.last_refill ∧ ¬Sound 40000 s) ∧
    ∃ s, exec (Limiter.step 100000) (.init 100000 0) lateRequest = some s ∧
      Phase.panicked ∈ s.requests ∧ ¬Sound 100000 s := by
  constructor
  · have hfuture : 2000000 < 3000000 := by decide
    exact ⟨⟨2000000, ⟨39999, 3000000⟩, [.granted], [2000000]⟩, by decide +kernel, hfuture,
      fun h => Nat.not_le_of_lt hfuture h.past⟩
  · have hpanicked : Phase.panicked ∈ [Phase.panicked] := List.mem_singleton_self _
    exact ⟨⟨2000000, ⟨100000, 0⟩, [.panicked], []⟩, by decide +kernel, hpanicked,
      fun h => h.refills hpanicked⟩

end Arbeiterfarm.Tools.Vt
