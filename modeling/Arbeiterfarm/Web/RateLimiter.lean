import Arbeiterfarm.Foundation.Exec
import Mathlib.Data.Nat.Notation

/-!
# Fetches of a user per minute

Every user has a token bucket, and the buckets are kept in a map of bounded size: when there are too
many users, half of the map is thrown away. A request that waits for a token holds its bucket, also
one that is no longer in the map. Times are in nanoseconds.
-/

namespace Arbeiterfarm.Web

/-! ### Durations as floats -/

/-- The nearest natural number to `n / d`; a tie goes to the even one. -/
def roundHalfEven (n d : ℕ) : ℕ :=
  let q := n / d
  let r := n % d
  if 2 * r < d ∨ (2 * r = d ∧ q % 2 = 0) then q else q + 1

/-- The nearest `f64` to `a / b`, as a fraction: 53 binary digits of it are kept. -/
def toF64 (a b : ℕ) : ℕ × ℕ :=
  if a = 0 then (0, 1)
  else
    let up := Nat.log2 a - (Nat.log2 b + 53)
    let down := Nat.log2 b + 53 - Nat.log2 a
    let n := a <<< down
    let d := b <<< up
    if n < d <<< 53 then (roundHalfEven n d <<< up, 1 <<< down)
    else (roundHalfEven n (2 * d) <<< (up + 1), 1 <<< down)

/-- `Duration::as_secs_f64`. -/
def asSecsF64 (nanos : ℕ) : ℕ × ℕ :=
  let secs := toF64 (nanos / 1000000000) 1
  let subsec := toF64 (nanos % 1000000000) 1000000000
  toF64 (secs.1 * subsec.2 + subsec.1 * secs.2) (secs.2 * subsec.2)

/-- The quotient of two durations as a `u32`: it is cut off, and at most `u32::MAX`. -/
def intervalsIn (elapsed refill_interval : ℕ) : ℕ :=
  let e := asSecsF64 elapsed
  let i := asSecsF64 refill_interval
  let q := toF64 (e.1 * i.2) (e.2 * i.1)
  min (q.1 / q.2) 4294967295

/-! ### A bucket -/

structure RateLimiterState where
  tokens : ℕ
  last_refill : ℕ
  deriving DecidableEq

section

variable (requests_per_minute : UInt32)

def maxTokens : ℕ := max requests_per_minute.toNat 1

/-- `Duration::from_secs_f64` of 60 divided by the requests per minute. -/
def refillInterval : ℕ :=
  let q := toF64 60 (maxTokens requests_per_minute)
  roundHalfEven (q.1 * 1000000000) q.2

/-- `RateLimiter::new`. -/
def newLimiter (now : ℕ) : RateLimiterState where
  tokens := maxTokens requests_per_minute
  last_refill := now

/-- The sum of the tokens is one of `u32` and wraps around. -/
def refill (now : ℕ) (state : RateLimiterState) : RateLimiterState :=
  let intervals := intervalsIn (now - state.last_refill) (refillInterval requests_per_minute)
  if intervals > 0 then
    { tokens := min ((state.tokens + intervals) % 4294967296) (maxTokens requests_per_minute)
      last_refill := state.last_refill + refillInterval requests_per_minute * intervals }
  else state

end

/-! ### The buckets of the users -/

def maxTrackedUsers : ℕ := 10000

/-- The 5 seconds that a request waits for a token. -/
def acquireTimeout : ℕ := 5000000000

/-- Where a request is: before the check of the map's size, with the keys that it still removes, or
in `acquire` with a limiter. -/
inductive Phase where
  | checking
  | evicting (keys : List String)
  | acquiring (limiter deadline wake : ℕ)
  | finished
  deriving DecidableEq

structure Request where
  user : String
  phase : Phase
  deriving DecidableEq

/-- The limiters are shared: the map and the requests refer to them by their number. -/
structure UserLimits where
  now : ℕ
  per_user_limiters : List (String × ℕ)
  limiters : List RateLimiterState
  requests : List Request
  granted : List (String × ℕ)
  deriving DecidableEq

namespace UserLimits

def init (now : ℕ) : UserLimits := ⟨now, [], [], [], []⟩

def setPhase (s : UserLimits) (r : ℕ) (user : String) (phase : Phase) : UserLimits :=
  { s with requests := s.requests.set r ⟨user, phase⟩ }

/-- The first half of the keys, in some order. -/
def IsFirstHalf (s : UserLimits) (keys : List String) : Prop :=
  keys.length = s.per_user_limiters.length / 2 ∧ keys.Nodup ∧
    ∀ k ∈ keys, k ∈ s.per_user_limiters.map Prod.fst

instance (s : UserLimits) (keys : List String) : Decidable (s.IsFirstHalf keys) :=
  inferInstanceAs (Decidable (_ ∧ _ ∧ _))

/-- The keys to remove, if the map is full. -/
def check (s : UserLimits) (r : ℕ) (user : String) (keys : List String) : Option UserLimits :=
  if s.per_user_limiters.length ≥ maxTrackedUsers then
    if s.IsFirstHalf keys then some (s.setPhase r user (.evicting keys)) else none
  else if keys = [] then some (s.setPhase r user (.evicting [])) else none

def remove (s : UserLimits) (r : ℕ) (user key : String) (keys : List String) : UserLimits :=
  { s.setPhase r user (.evicting keys) with
    per_user_limiters := s.per_user_limiters.filter fun e => e.1 ≠ key }

/-- `entry(uid).or_insert_with(..)`, and the call of `acquire`. -/
def enter (per_user_rpm : UInt32) (s : UserLimits) (r : ℕ) (user : String) : UserLimits :=
  match s.per_user_limiters.lookup user with
  | some l => s.setPhase r user (.acquiring l (s.now + acquireTimeout) s.now)
  | none =>
    { s.setPhase r user (.acquiring s.limiters.length (s.now + acquireTimeout) s.now) with
      per_user_limiters := s.per_user_limiters ++ [(user, s.limiters.length)]
      limiters := s.limiters ++ [newLimiter per_user_rpm s.now] }

/-- One round of the loop in `acquire`. -/
def poll (per_user_rpm : UInt32) (s : UserLimits) (r : ℕ) (user : String) (l deadline : ℕ)
    (state : RateLimiterState) : UserLimits :=
  let state := refill per_user_rpm s.now state
  if state.tokens > 0 then
    { s.setPhase r user .finished with
      limiters := s.limiters.set l { state with tokens := state.tokens - 1 }
      granted := s.granted ++ [(user, s.now)] }
  else
    let phase :=
      if s.now ≥ deadline then .finished
      else .acquiring l deadline (s.now + min (refillInterval per_user_rpm) (deadline - s.now))
    { s.setPhase r user phase with limiters := s.limiters.set l state }

end UserLimits

/-- What happens: time passes, or a request takes a step. -/
inductive RateAct where
  | clock (passed : ℕ)
  | arrive (user_id : Option String)
  | check (r : ℕ) (keys : List String)
  | remove (r : ℕ)
  | enter (r : ℕ)
  | poll (r : ℕ)

/-- Without a user there is no limit per user, and nothing to keep. -/
def rateStep (per_user_rpm : UInt32) (s : UserLimits) : RateAct → Option UserLimits
  | .clock passed => some { s with now := s.now + passed }
  | .arrive none => some s
  | .arrive (some user) =>
    if user = "" then some s else some { s with requests := s.requests ++ [⟨user, .checking⟩] }
  | .check r keys =>
    match s.requests[r]? with
    | some ⟨user, .checking⟩ => s.check r user keys
    | _ => none
  | .remove r =>
    match s.requests[r]? with
    | some ⟨user, .evicting (key :: keys)⟩ => some (s.remove r user key keys)
    | _ => none
  | .enter r =>
    match s.requests[r]? with
    | some ⟨user, .evicting []⟩ => some (s.enter per_user_rpm r user)
    | _ => none
  | .poll r =>
    match s.requests[r]? with
    | some ⟨user, .acquiring l deadline wake⟩ =>
      if wake ≤ s.now then
        (s.limiters[l]?).map fun state => s.poll per_user_rpm r user l deadline state
      else none
    | _ => none

end Arbeiterfarm.Web
