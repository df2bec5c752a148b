import Arbeiterfarm.Foundation.Entries
import Arbeiterfarm.Foundation.TokenBucket
import Arbeiterfarm.Web.RateLimiter
import Mathlib.Tactic.SplitIfs

/-!
# The rate of one user

As long as no bucket is thrown away that still matters, a user has one bucket at a time, and each
step refills that bucket, takes a token from it or puts a full one in its place. A bucket matters if
it is not full or if a request still holds it. The number of intervals that is computed for a refill
has to be the exact one: the quotient of floats may be rounded across a whole number.
-/

namespace Arbeiterfarm.Web

open Foundation Foundation.TokenBucket

/-! ### The condition -/

def Phase.limiter? : Phase → Option ℕ
  | .acquiring l _ _ => some l
  | _ => none

def Phase.nextKey? : Phase → Option String
  | .evicting (key :: _) => some key
  | _ => none

section

variable (per_user_rpm : UInt32)

/-- The bucket would be full if it were refilled now. -/
def IsFull (now : ℕ) (state : RateLimiterState) : Prop :=
  maxTokens per_user_rpm ≤
    state.tokens + (now - state.last_refill) / refillInterval per_user_rpm

/-- The intervals since the last refill are counted exactly. -/
def IsExact (now : ℕ) (state : RateLimiterState) : Prop :=
  let elapsed := now - state.last_refill
  let interval := refillInterval per_user_rpm
  intervalsIn elapsed interval * interval ≤ elapsed ∧
    elapsed < (intervalsIn elapsed interval + 1) * interval

/-- A bucket that is removed from the map is full and not held, and a bucket that is refilled gets
exactly what it is due. -/
def KeepsBuckets (s : UserLimits) : RateAct → Prop
  | .remove r => ∀ req ∈ s.requests[r]?, ∀ key ∈ req.phase.nextKey?,
      ∀ l ∈ s.per_user_limiters.lookup key,
        (∀ state ∈ s.limiters[l]?, IsFull per_user_rpm s.now state) ∧
          ∀ q ∈ s.requests, q.phase.limiter? ≠ some l
  | .poll r => ∀ req ∈ s.requests[r]?, ∀ l ∈ req.phase.limiter?,
      ∀ state ∈ s.limiters[l]?, IsExact per_user_rpm s.now state
  | _ => True

instance (now : ℕ) (state : RateLimiterState) : Decidable (IsFull per_user_rpm now state) :=
  inferInstanceAs (Decidable (_ ≤ _))

instance (now : ℕ) (state : RateLimiterState) : Decidable (IsExact per_user_rpm now state) :=
  inferInstanceAs (Decidable (_ ∧ _))

instance (s : UserLimits) : (a : RateAct) → Decidable (KeepsBuckets per_user_rpm s a)
  | .clock _ | .arrive _ | .check _ _ | .enter _ => inferInstanceAs (Decidable True)
  | .remove _ | .poll _ => by unfold KeepsBuckets; infer_instance

end

/-! ### The bucket of a user -/

variable {per_user_rpm : UInt32} {s t : UserLimits}

/-- A user without a bucket gets a full one. -/
def userState (per_user_rpm : UInt32) (s : UserLimits) (user : String) : RateLimiterState :=
  ((s.per_user_limiters.lookup user).bind fun l => s.limiters[l]?).getD
    (newLimiter per_user_rpm s.now)

structure LimiterInv (per_user_rpm : UInt32) (s : UserLimits) : Prop where
  present : ∀ {u l}, s.per_user_limiters.lookup u = some l → l < s.limiters.length
  distinct : ∀ {u v l}, s.per_user_limiters.lookup u = some l →
    s.per_user_limiters.lookup v = some l → u = v
  held : ∀ q ∈ s.requests, ∀ l, q.phase.limiter? = some l →
    s.per_user_limiters.lookup q.user = some l
  filled : ∀ state ∈ s.limiters,
    state.tokens ≤ maxTokens per_user_rpm ∧ state.last_refill ≤ s.now

lemma refill_spec {now : ℕ} {state : RateLimiterState}
    (htokens : state.tokens ≤ maxTokens per_user_rpm) (hlast : state.last_refill ≤ now)
    (hexact : IsExact per_user_rpm now state) :
    ∃ n, (refill per_user_rpm now state).tokens ≤ state.tokens + n ∧
      (refill per_user_rpm now state).last_refill =
        state.last_refill + refillInterval per_user_rpm * n ∧
      (refill per_user_rpm now state).tokens ≤ maxTokens per_user_rpm ∧
      (refill per_user_rpm now state).last_refill ≤ now ∧
      now < (refill per_user_rpm now state).last_refill + refillInterval per_user_rpm := by
  obtain ⟨hle, hlt⟩ := hexact
  rw [Nat.add_mul, Nat.one_mul] at hlt
  refine ⟨intervalsIn (now - state.last_refill) (refillInterval per_user_rpm), ?_⟩
  rw [refill]
  generalize intervalsIn (now - state.last_refill) (refillInterval per_user_rpm) = n at hle hlt ⊢
  rw [Nat.mul_comm] at hle hlt
  by_cases hn : n > 0
  · rw [if_pos hn]
    dsimp only
    have hmod := Nat.mod_le (state.tokens + n) 4294967296
    omega
  · obtain rfl : n = 0 := by omega
    rw [if_neg hn]
    rw [Nat.mul_zero] at *
    omega

/-! ### Steps and buckets -/

lemma userState_of_lookup {user : String} {l : ℕ} {state : RateLimiterState}
    (hl : s.per_user_limiters.lookup user = some l) (hstate : s.limiters[l]? = some state) :
    userState per_user_rpm s user = state := by
  rw [userState, hl, Option.bind_some, hstate]
  rfl

variable (per_user_rpm) in
lemma userState_of_lookup_eq_none {user : String} (h : s.per_user_limiters.lookup user = none) :
    userState per_user_rpm s user = newLimiter per_user_rpm s.now := by
  rw [userState, h]
  rfl

lemma LimiterInv.userState_filled (h : LimiterInv per_user_rpm s) (user : String) :
    (userState per_user_rpm s user).tokens ≤ maxTokens per_user_rpm ∧
      (userState per_user_rpm s user).last_refill ≤ s.now := by
  cases hl : s.per_user_limiters.lookup user with
  | none =>
    rw [userState_of_lookup_eq_none per_user_rpm hl]
    exact ⟨Nat.le_refl _, Nat.le_refl _⟩
  | some l =>
    obtain ⟨state, hstate⟩ : ∃ state, s.limiters[l]? = some state :=
      ⟨_, List.getElem?_eq_getElem (h.present hl)⟩
    rw [userState_of_lookup hl hstate]
    exact h.filled state (List.mem_of_getElem? hstate)

/-- The times at which the user was granted a request. -/
def grantTimes (s : UserLimits) (user : String) : List ℕ :=
  (s.granted.filter fun g => g.1 = user).map Prod.snd

/-- What a step makes of the bucket and the grants of a user. -/
inductive BucketStep (per_user_rpm : UInt32) (user : String) (s t : UserLimits) : Prop where
  | later (hnow : s.now ≤ t.now) (hgrants : grantTimes t user = grantTimes s user)
      (htokens : (userState per_user_rpm t user).tokens = (userState per_user_rpm s user).tokens)
      (hlast : (userState per_user_rpm s user).last_refill ≤
        (userState per_user_rpm t user).last_refill)
  | renew (hnow : t.now = s.now) (hgrants : grantTimes t user = grantTimes s user)
      (hfull : IsFull per_user_rpm s.now (userState per_user_rpm s user))
      (hbucket : userState per_user_rpm t user = newLimiter per_user_rpm s.now)
  | refill (hnow : t.now = s.now) (hgrants : grantTimes t user = grantTimes s user)
      (hexact : IsExact per_user_rpm s.now (userState per_user_rpm s user))
      (hbucket : userState per_user_rpm t user =
        refill per_user_rpm s.now (userState per_user_rpm s user))
  | grant (hnow : t.now = s.now) (hgrants : grantTimes t user = grantTimes s user ++ [s.now])
      (hexact : IsExact per_user_rpm s.now (userState per_user_rpm s user))
      (htokens : (userState per_user_rpm t user).tokens + 1 =
        (refill per_user_rpm s.now (userState per_user_rpm s user)).tokens)
      (hlast : (userState per_user_rpm t user).last_refill =
        (refill per_user_rpm s.now (userState per_user_rpm s user)).last_refill)

lemma BucketStep.of_eq {user : String} (hnow : s.now ≤ t.now)
    (hgrants : grantTimes t user = grantTimes s user)
    (hbucket : userState per_user_rpm t user = userState per_user_rpm s user) :
    BucketStep per_user_rpm user s t :=
  .later hnow hgrants (congrArg _ hbucket) (Nat.le_of_eq (congrArg _ hbucket.symm))

/-- A request that goes on holds a bucket only if it is the one of its user. -/
lemma LimiterInv.setPhase (h : LimiterInv per_user_rpm s) (r : ℕ) {user : String} {phase : Phase}
    (hheld : ∀ l, phase.limiter? = some l → s.per_user_limiters.lookup user = some l) :
    LimiterInv per_user_rpm (s.setPhase r user phase) where
  present := h.present
  distinct := h.distinct
  held q hq l hl := by
    rcases List.mem_or_eq_of_mem_set hq with hmem | rfl
    · exact h.held q hmem l hl
    · exact hheld l hl
  filled := h.filled

lemma LimiterInv.clock (h : LimiterInv per_user_rpm s) (passed : ℕ) :
    LimiterInv per_user_rpm { s with now := s.now + passed } where
  present := h.present
  distinct := h.distinct
  held := h.held
  filled state hstate :=
    ⟨(h.filled state hstate).1, Nat.le_add_right_of_le (h.filled state hstate).2⟩

/-- A request that arrives holds no bucket yet. -/
lemma LimiterInv.arrive (h : LimiterInv per_user_rpm s) (user : String) :
    LimiterInv per_user_rpm { s with requests := s.requests ++ [⟨user, .checking⟩] } where
  present := h.present
  distinct := h.distinct
  held q hq l hl := by
    rcases List.mem_append.mp hq with hmem | hnew
    · exact h.held q hmem l hl
    · obtain rfl := List.mem_singleton.mp hnew
      cases hl
  filled := h.filled

lemma bucketStep_clock (passed : ℕ) (user : String) :
    BucketStep per_user_rpm user s { s with now := s.now + passed } := by
  refine .later (Nat.le_add_right _ _) rfl ?_ ?_
  · rw [userState, userState]
    cases (s.per_user_limiters.lookup user).bind fun l => s.limiters[l]? <;> rfl
  · rw [userState, userState]
    cases (s.per_user_limiters.lookup user).bind fun l => s.limiters[l]? with
    | none => exact Nat.le_add_right _ _
    | some state => exact Nat.le_refl _

/-! ### A bucket that is removed -/

section

variable {r : ℕ} {user key : String} {keys : List String}

lemma LimiterInv.remove (h : LimiterInv per_user_rpm s)
    (hfree : ∀ l ∈ s.per_user_limiters.lookup key, ∀ q ∈ s.requests, q.phase.limiter? ≠ some l) :
    LimiterInv per_user_rpm (s.remove r user key keys) where
  present hl := h.present (lookup_filter_eq_some_iff.mp hl).2
  distinct hu hv :=
    h.distinct (lookup_filter_eq_some_iff.mp hu).2 (lookup_filter_eq_some_iff.mp hv).2
  held q hq l hl := by
    rcases List.mem_or_eq_of_mem_set hq with hmem | rfl
    · have hlookup := h.held q hmem l hl
      exact lookup_filter_eq_some_iff.mpr
        ⟨fun heq => hfree l (heq ▸ hlookup) q hmem hl, hlookup⟩
    · cases hl
  filled := h.filled

lemma bucketStep_remove (h : LimiterInv per_user_rpm s)
    (hfull : ∀ l ∈ s.per_user_limiters.lookup key, ∀ state ∈ s.limiters[l]?,
      IsFull per_user_rpm s.now state) (u : String) :
    BucketStep per_user_rpm u s (s.remove r user key keys) := by
  have hlookup := lookup_filter_ne s.per_user_limiters u key
  by_cases hu : u = key
  · rw [if_pos hu] at hlookup
    have hnew : userState per_user_rpm (s.remove r user key keys) u =
        newLimiter per_user_rpm s.now := userState_of_lookup_eq_none per_user_rpm hlookup
    cases hl : s.per_user_limiters.lookup u with
    | none =>
      exact .of_eq (Nat.le_refl _) rfl
        (hnew.trans (userState_of_lookup_eq_none per_user_rpm hl).symm)
    | some l =>
      obtain ⟨state, hstate⟩ : ∃ state, s.limiters[l]? = some state :=
        ⟨_, List.getElem?_eq_getElem (h.present hl)⟩
      refine .renew rfl rfl ?_ hnew
      rw [userState_of_lookup hl hstate]
      exact hfull l (hu ▸ hl) state hstate
  · rw [if_neg hu] at hlookup
    refine .of_eq (Nat.le_refl _) rfl ?_
    rw [userState, UserLimits.remove, hlookup]
    rfl

/-! ### A user that gets a bucket -/

lemma LimiterInv.enter (h : LimiterInv per_user_rpm s) :
    LimiterInv per_user_rpm (s.enter per_user_rpm r user) := by
  rw [UserLimits.enter]
  cases hl : s.per_user_limiters.lookup user with
  | some l =>
    refine h.setPhase r fun l' hl' => ?_
    obtain rfl := Option.some.inj hl'
    exact hl
  | none =>
    have hlookup : ∀ u l, (s.per_user_limiters ++ [(user, s.limiters.length)]).lookup u = some l ↔
        s.per_user_limiters.lookup u = some l ∨ (u = user ∧ l = s.limiters.length) := by
      intro u l
      rw [lookup_append_singleton]
      by_cases hu : u = user
      · rw [hu, hl, if_pos rfl]
        simp [eq_comm]
      · rw [if_neg hu, Option.or_none]
        simp [hu]
    constructor
    · intro u l hu
      rw [List.length_append, List.length_singleton]
      rcases (hlookup u l).mp hu with hold | ⟨-, rfl⟩
      · exact Nat.lt_succ_of_lt (h.present hold)
      · exact Nat.lt_succ_self _
    · intro u v l hu hv
      rcases (hlookup u l).mp hu with hold | ⟨rfl, rfl⟩
      · rcases (hlookup v l).mp hv with hold' | ⟨-, rfl⟩
        · exact h.distinct hold hold'
        · exact absurd (h.present hold) (Nat.lt_irrefl _)
      · rcases (hlookup v _).mp hv with hold' | ⟨rfl, -⟩
        · exact absurd (h.present hold') (Nat.lt_irrefl _)
        · rfl
    · intro q hq l hq'
      refine (hlookup q.user l).mpr ?_
      rcases List.mem_or_eq_of_mem_set hq with hmem | rfl
      · exact Or.inl (h.held q hmem l hq')
      · exact Or.inr ⟨rfl, (Option.some.inj hq').symm⟩
    · intro state hstate
      rcases List.mem_append.mp hstate with hold | hnew
      · exact h.filled state hold
      · obtain rfl := List.mem_singleton.mp hnew
        exact ⟨Nat.le_refl _, Nat.le_refl _⟩

lemma bucketStep_enter (h : LimiterInv per_user_rpm s) (u : String) :
    BucketStep per_user_rpm u s (s.enter per_user_rpm r user) := by
  rw [UserLimits.enter]
  cases hl : s.per_user_limiters.lookup user with
  | some l => exact .of_eq (Nat.le_refl _) rfl rfl
  | none =>
    refine .of_eq (Nat.le_refl _) rfl ?_
    rw [userState, userState]
    dsimp only
    rw [lookup_append_singleton]
    by_cases hu : u = user
    · rw [hu, hl, if_pos rfl, Option.none_or, Option.bind_some, List.getElem?_concat_length]
      rfl
    · rw [if_neg hu, Option.or_none]
      cases hlookup : s.per_user_limiters.lookup u with
      | none => rfl
      | some l =>
        rw [Option.bind_some, Option.bind_some, List.getElem?_append_left (h.present hlookup)]
        rfl

/-! ### A bucket that is refilled -/

variable {l deadline : ℕ} {state : RateLimiterState}

/-- The bucket of one user is set, and those of the others stay. -/
lemma userState_set (h : LimiterInv per_user_rpm s)
    (hl : s.per_user_limiters.lookup user = some l) (hnow : t.now = s.now)
    (hmap : t.per_user_limiters = s.per_user_limiters)
    (hlimiters : t.limiters = s.limiters.set l state) :
    userState per_user_rpm t user = state ∧
      ∀ u, u ≠ user → userState per_user_rpm t u = userState per_user_rpm s u := by
  constructor
  · refine userState_of_lookup (by rw [hmap, hl]) ?_
    rw [hlimiters, List.getElem?_set_self (h.present hl)]
  · intro u hu
    rw [userState, userState, hmap, hlimiters, hnow]
    cases hlookup : s.per_user_limiters.lookup u with
    | none => rfl
    | some l' =>
      have hne : l ≠ l' := fun heq => hu (h.distinct hlookup (heq ▸ hl))
      rw [Option.bind_some, Option.bind_some, List.getElem?_set_ne hne]

/-- A token is taken from a bucket that has one. -/
def takeToken (state : RateLimiterState) : RateLimiterState :=
  if state.tokens > 0 then { state with tokens := state.tokens - 1 } else state

lemma takeToken_of_pos (hpos : state.tokens > 0) :
    takeToken state = { state with tokens := state.tokens - 1 } := if_pos hpos

lemma takeToken_of_not_pos (hpos : ¬state.tokens > 0) : takeToken state = state := if_neg hpos

variable (state) in
lemma takeToken_spec : (takeToken state).tokens ≤ state.tokens ∧
    (takeToken state).last_refill = state.last_refill := by
  by_cases hpos : state.tokens > 0
  · rw [takeToken_of_pos hpos]
    exact ⟨Nat.sub_le _ _, rfl⟩
  · rw [takeToken_of_not_pos hpos]
    exact ⟨Nat.le_refl _, rfl⟩

lemma tokens_takeToken (hpos : state.tokens > 0) : (takeToken state).tokens + 1 = state.tokens := by
  rw [takeToken_of_pos hpos]
  exact Nat.sub_add_cancel hpos

section

variable (per_user_rpm r user l deadline state)

lemma poll_frame : (s.poll per_user_rpm r user l deadline state).now = s.now ∧
    (s.poll per_user_rpm r user l deadline state).per_user_limiters = s.per_user_limiters ∧
    (s.poll per_user_rpm r user l deadline state).limiters =
      s.limiters.set l (takeToken (refill per_user_rpm s.now state)) := by
  rw [UserLimits.poll, takeToken]
  by_cases hpos : (refill per_user_rpm s.now state).tokens > 0
  · rw [if_pos hpos, if_pos hpos]
    exact ⟨rfl, rfl, rfl⟩
  · rw [if_neg hpos, if_neg hpos]
    exact ⟨rfl, rfl, rfl⟩

/-- A request that has been polled is done, or goes on with its limiter. -/
lemma poll_requests : ∃ phase,
    (s.poll per_user_rpm r user l deadline state).requests = s.requests.set r ⟨user, phase⟩ ∧
      ∀ l', phase.limiter? = some l' → l' = l := by
  rw [UserLimits.poll]
  by_cases hpos : (refill per_user_rpm s.now state).tokens > 0
  · rw [if_pos hpos]
    exact ⟨.finished, rfl, nofun⟩
  · rw [if_neg hpos]
    by_cases hdone : s.now ≥ deadline
    · rw [if_pos hdone]
      exact ⟨.finished, rfl, nofun⟩
    · rw [if_neg hdone]
      generalize s.now + min (refillInterval per_user_rpm) (deadline - s.now) = wake
      exact ⟨.acquiring l deadline wake, rfl, fun l' hl' => (Option.some.inj hl').symm⟩

end

lemma LimiterInv.poll (h : LimiterInv per_user_rpm s)
    (hl : s.per_user_limiters.lookup user = some l) (hstate : s.limiters[l]? = some state)
    (hexact : IsExact per_user_rpm s.now state) :
    LimiterInv per_user_rpm (s.poll per_user_rpm r user l deadline state) := by
  obtain ⟨hnow, hmap, hlimiters⟩ := poll_frame (s := s) per_user_rpm r user l deadline state
  obtain ⟨phase, hrequests, hphase⟩ := poll_requests (s := s) per_user_rpm r user l deadline state
  obtain ⟨htokens, hlast⟩ := h.filled state (List.mem_of_getElem? hstate)
  obtain ⟨n, -, -, hcap, hpast, -⟩ := refill_spec htokens hlast hexact
  constructor
  · intro u l' hu
    rw [hmap] at hu
    rw [hlimiters, List.length_set]
    exact h.present hu
  · intro u v l' hu hv
    rw [hmap] at hu hv
    exact h.distinct hu hv
  · intro q hq l' hl'
    rw [hmap]
    rw [hrequests] at hq
    rcases List.mem_or_eq_of_mem_set hq with hmem | rfl
    · exact h.held q hmem l' hl'
    · rw [hphase l' hl']
      exact hl
  · intro state' hmem
    rw [hlimiters] at hmem
    rw [hnow]
    rcases List.mem_or_eq_of_mem_set hmem with hold | rfl
    · exact h.filled state' hold
    · obtain ⟨hless, hsame⟩ := takeToken_spec (refill per_user_rpm s.now state)
      rw [hsame]
      exact ⟨Nat.le_trans hless hcap, hpast⟩

lemma bucketStep_poll (h : LimiterInv per_user_rpm s)
    (hl : s.per_user_limiters.lookup user = some l) (hstate : s.limiters[l]? = some state)
    (hexact : IsExact per_user_rpm s.now state) (u : String) :
    BucketStep per_user_rpm u s (s.poll per_user_rpm r user l deadline state) := by
  obtain ⟨hnow, hmap, hlimiters⟩ := poll_frame (s := s) per_user_rpm r user l deadline state
  obtain ⟨hself, hothers⟩ := userState_set h hl hnow hmap hlimiters
  obtain rfl : userState per_user_rpm s user = state := userState_of_lookup hl hstate
  have hgranted : (s.poll per_user_rpm r user l deadline (userState per_user_rpm s user)).granted =
      if (refill per_user_rpm s.now (userState per_user_rpm s user)).tokens > 0 then
        s.granted ++ [(user, s.now)]
      else s.granted := by
    rw [UserLimits.poll]
    split <;> rfl
  by_cases hu : u = user
  · subst hu
    by_cases hpos : (refill per_user_rpm s.now (userState per_user_rpm s u)).tokens > 0
    · rw [if_pos hpos] at hgranted
      refine .grant hnow ?_ hexact ?_ ?_
      · simp [grantTimes, hgranted]
      · rw [hself, tokens_takeToken hpos]
      · rw [hself, (takeToken_spec _).2]
    · rw [if_neg hpos] at hgranted
      rw [takeToken_of_not_pos hpos] at hself
      exact .refill hnow (by rw [grantTimes, hgranted, grantTimes]) hexact hself
  · refine .of_eq (Nat.le_of_eq hnow.symm) ?_ (hothers u hu)
    rw [grantTimes, hgranted]
    split
    · simp [grantTimes, Ne.symm hu]
    · rfl

end

/-! ### Runs -/

/-- A step that keeps the buckets keeps the invariant, and acts on each bucket as it should. -/
lemma LimiterInv.step (h : LimiterInv per_user_rpm s) {a : RateAct}
    (hkeeps : KeepsBuckets per_user_rpm s a) (hstep : rateStep per_user_rpm s a = some t) :
    LimiterInv per_user_rpm t ∧ ∀ user, BucketStep per_user_rpm user s t := by
  have hphase : ∀ r user phase, phase.limiter? = none →
      LimiterInv per_user_rpm (s.setPhase r user phase) ∧
        ∀ u, BucketStep per_user_rpm u s (s.setPhase r user phase) := by
    intro r user phase hnone
    refine ⟨h.setPhase r fun l hl => ?_, fun u => .of_eq (Nat.le_refl _) rfl rfl⟩
    rw [hnone] at hl
    cases hl
  cases a with
  | clock passed =>
    obtain rfl := Option.some.inj hstep
    exact ⟨h.clock passed, bucketStep_clock passed⟩
  | arrive user_id =>
    cases user_id with
    | none =>
      obtain rfl := Option.some.inj hstep
      exact ⟨h, fun u => .of_eq (Nat.le_refl _) rfl rfl⟩
    | some user =>
      rw [rateStep] at hstep
      by_cases hempty : user = ""
      · rw [if_pos hempty] at hstep
        obtain rfl := Option.some.inj hstep
        exact ⟨h, fun u => .of_eq (Nat.le_refl _) rfl rfl⟩
      · rw [if_neg hempty] at hstep
        obtain rfl := Option.some.inj hstep
        exact ⟨h.arrive user, fun u => .of_eq (Nat.le_refl _) rfl rfl⟩
  | check r keys =>
    rw [rateStep] at hstep
    split at hstep
    · rw [UserLimits.check] at hstep
      split_ifs at hstep
      all_goals
        obtain rfl := Option.some.inj hstep
        exact hphase r _ _ rfl
    · cases hstep
  | remove r =>
    rw [rateStep] at hstep
    split at hstep
    · next user key keys hr =>
      obtain rfl := Option.some.inj hstep
      have hfree : ∀ l ∈ s.per_user_limiters.lookup key,
          (∀ state ∈ s.limiters[l]?, IsFull per_user_rpm s.now state) ∧
            ∀ q ∈ s.requests, q.phase.limiter? ≠ some l := hkeeps _ hr key rfl
      exact ⟨h.remove fun l hl => (hfree l hl).2,
        bucketStep_remove h fun l hl => (hfree l hl).1⟩
    · cases hstep
  | enter r =>
    rw [rateStep] at hstep
    split at hstep
    · obtain rfl := Option.some.inj hstep
      exact ⟨h.enter, bucketStep_enter h⟩
    · cases hstep
  | poll r =>
    rw [rateStep] at hstep
    split at hstep
    · next user l deadline wake hr =>
      split_ifs at hstep
      obtain ⟨state, hstate, rfl⟩ := Option.map_eq_some_iff.mp hstep
      have hexact : IsExact per_user_rpm s.now state := hkeeps _ hr l rfl state hstate
      have hl : s.per_user_limiters.lookup user = some l :=
        h.held _ (List.mem_of_getElem? hr) l rfl
      exact ⟨h.poll hl hstate hexact, bucketStep_poll h hl hstate hexact⟩
    · cases hstep

end Arbeiterfarm.Web
