import Arbeiterfarm.Web.UserRate

/-!
# What a user is granted in a window of time

Over every run in which no bucket is lost, the grants of a user in a window are at most a full
bucket and one for each interval that begins in it. A run in which the map of buckets overflows does
lose one, and the user is granted another full bucket at once.
-/

namespace Arbeiterfarm.Web

open Foundation Foundation.TokenBucket

variable {per_user_rpm : UInt32} {s t : UserLimits}

/-! ### A window of time -/

section

variable (start length : ℕ) {user : String}

/-- The number of requests that the user was granted from `start` on, for `length`. -/
def grantsIn (s : UserLimits) (user : String) (start length : ℕ) : ℕ :=
  (grantTimes s user).countP fun g => start ≤ g ∧ g ≤ start + length

variable (per_user_rpm) in
/-- The capacity of a bucket, and one for every interval that begins in the window. -/
def allowance (length : ℕ) : ℕ :=
  maxTokens per_user_rpm +
    (length + refillInterval per_user_rpm - 1) / refillInterval per_user_rpm

/-- The credit of a user's bucket for the window. -/
def HasCredit (per_user_rpm : UInt32) (s : UserLimits) (user : String) (start length : ℕ) : Prop :=
  Credit (refillInterval per_user_rpm) (maxTokens per_user_rpm) start (grantsIn s user start length)
    (userState per_user_rpm s user).tokens (userState per_user_rpm s user).last_refill

/-- Up to the end of the window, what is granted in it has been paid from the bucket. -/
structure WindowInv (per_user_rpm : UInt32) (user : String) (start length : ℕ) (s : UserLimits) :
    Prop where
  limiters : LimiterInv per_user_rpm s
  credit : s.now ≤ start + length →
    grantsIn s user start length = 0 ∨
      start ≤ s.now ∧ 0 < refillInterval per_user_rpm ∧ HasCredit per_user_rpm s user start length
  allowed : grantsIn s user start length ≤ allowance per_user_rpm length

variable {start length}

lemma IsExact.interval_pos {now : ℕ} {state : RateLimiterState}
    (h : IsExact per_user_rpm now state) : 0 < refillInterval per_user_rpm := by
  have hlt := h.2
  by_contra hzero
  rw [Nat.eq_zero_of_not_pos hzero, Nat.mul_zero] at hlt
  exact Nat.not_lt_zero _ hlt

lemma grantsIn_eq (hgrants : grantTimes t user = grantTimes s user) :
    grantsIn t user start length = grantsIn s user start length := by
  rw [grantsIn, hgrants, grantsIn]

variable (start length) in
lemma grantsIn_append {time : ℕ} (hgrants : grantTimes t user = grantTimes s user ++ [time]) :
    grantsIn t user start length =
      grantsIn s user start length + if start ≤ time ∧ time ≤ start + length then 1 else 0 := by
  rw [grantsIn, hgrants, List.countP_append, List.countP_singleton, grantsIn]
  simp only [decide_eq_true_eq]

/-- As long as the window lasts, its credit bounds the grants in it. -/
lemma HasCredit.allowed (h : HasCredit per_user_rpm s user start length)
    (hinv : LimiterInv per_user_rpm s) (hinterval : 0 < refillInterval per_user_rpm)
    (hnow : s.now ≤ start + length) :
    grantsIn s user start length ≤ allowance per_user_rpm length :=
  h.grants_le hinterval (Nat.le_trans (hinv.userState_filled user).2 hnow)

/-- A refill leaves credit for a window that has begun. -/
lemma WindowInv.refilled (h : WindowInv per_user_rpm user start length s)
    (hexact : IsExact per_user_rpm s.now (userState per_user_rpm s user))
    (hbegun : start ≤ s.now) (hnow : s.now ≤ start + length) :
    Credit (refillInterval per_user_rpm) (maxTokens per_user_rpm) start
      (grantsIn s user start length)
      (refill per_user_rpm s.now (userState per_user_rpm s user)).tokens
      (refill per_user_rpm s.now (userState per_user_rpm s user)).last_refill := by
  obtain ⟨htokens, hlast⟩ := h.limiters.userState_filled user
  obtain ⟨n, hgain, hlast', hcap, -, hnext⟩ := refill_spec htokens hlast hexact
  rcases h.credit hnow with hzero | ⟨-, -, hcredit⟩
  · rw [hzero]
    exact Credit.begin hcap (Nat.lt_of_le_of_lt hbegun hnext)
  · rw [hlast']
    exact Credit.refill hcredit hgain

/-- Without a new grant only the credit is to be shown. -/
lemma WindowInv.of_not_granted (h : WindowInv per_user_rpm user start length s)
    (hinv : LimiterInv per_user_rpm t) (hnow : s.now ≤ t.now)
    (hgrants : grantsIn t user start length = grantsIn s user start length)
    (hcredit : start ≤ s.now → s.now ≤ start + length →
      HasCredit per_user_rpm s user start length → HasCredit per_user_rpm t user start length) :
    WindowInv per_user_rpm user start length t where
  limiters := hinv
  credit hend := by
    have hend' : s.now ≤ start + length := Nat.le_trans hnow hend
    rw [hgrants]
    rcases h.credit hend' with hzero | ⟨hbegun, hpos, hold⟩
    · exact Or.inl hzero
    · exact Or.inr ⟨Nat.le_trans hbegun hnow, hpos, hcredit hbegun hend' hold⟩
  allowed := by
    rw [hgrants]
    exact h.allowed

lemma WindowInv.step (h : WindowInv per_user_rpm user start length s)
    (hinv : LimiterInv per_user_rpm t) (hstep : BucketStep per_user_rpm user s t) :
    WindowInv per_user_rpm user start length t := by
  cases hstep with
  | later hnow hgrants htokens hlast =>
    refine h.of_not_granted hinv hnow (grantsIn_eq hgrants) fun _ _ hcredit => ?_
    rw [HasCredit, grantsIn_eq hgrants, htokens]
    exact Credit.later hcredit hlast
  | renew hnow hgrants hfull hbucket =>
    refine h.of_not_granted hinv (Nat.le_of_eq hnow.symm) (grantsIn_eq hgrants)
      fun _ _ hcredit => ?_
    rw [HasCredit, grantsIn_eq hgrants, hbucket]
    exact Credit.renew hcredit (h.limiters.userState_filled user).2 hfull
  | refill hnow hgrants hexact hbucket =>
    refine h.of_not_granted hinv (Nat.le_of_eq hnow.symm) (grantsIn_eq hgrants)
      fun hbegun hend _ => ?_
    rw [HasCredit, grantsIn_eq hgrants, hbucket]
    exact h.refilled hexact hbegun hend
  | grant hnow hgrants hexact htokens hlast =>
    have hcount := grantsIn_append start length hgrants
    by_cases hin : start ≤ s.now ∧ s.now ≤ start + length
    · -- the token is paid from the bucket after its refill
      rw [if_pos hin] at hcount
      have hcredit := h.refilled hexact hin.1 hin.2
      rw [← htokens, ← hlast] at hcredit
      have hgrant : HasCredit per_user_rpm t user start length := by
        rw [HasCredit, hcount]
        exact hcredit.grant
      rw [← hnow] at hin
      exact ⟨hinv, fun _ => Or.inr ⟨hin.1, hexact.interval_pos, hgrant⟩,
        hgrant.allowed hinv hexact.interval_pos hin.2⟩
    · rw [if_neg hin, Nat.add_zero] at hcount
      refine h.of_not_granted hinv (Nat.le_of_eq hnow.symm) hcount fun hbegun hend _ => ?_
      exact absurd ⟨hbegun, hend⟩ hin

variable (per_user_rpm) in
lemma WindowInv.init (user : String) (start length now : ℕ) :
    WindowInv per_user_rpm user start length (.init now) where
  limiters := ⟨nofun, nofun, List.forall_mem_nil _, List.forall_mem_nil _⟩
  credit _ := Or.inl rfl
  allowed := Nat.zero_le _

end

/-! ### One request after the other -/

/-- A user's request up to the entry of the map. -/
def comes (r : ℕ) (user : String) (keys : List String) : List RateAct :=
  .arrive (some user) :: .check r keys :: (keys.map fun _ => .remove r) ++ [.enter r]

def userName (i : ℕ) : String := String.ofList (List.replicate (i + 1) 'a')

lemma userName_injective {i j : ℕ} (h : userName i = userName j) : i = j := by
  have hlength := congrArg List.length (String.ofList_injective h)
  rw [List.length_replicate, List.length_replicate] at hlength
  exact Nat.succ.inj hlength

lemma userName_ne_empty (i : ℕ) : userName i ≠ "" := by
  intro h
  have hlength := congrArg (fun s : String => s.toList.length) h
  simp [userName] at hlength

/-- A request that has come last. -/
def withRequest (s : UserLimits) (user : String) (phase : Phase) : UserLimits :=
  { s with requests := s.requests ++ [⟨user, phase⟩] }

lemma requests_withRequest (user : String) (phase : Phase) :
    (withRequest s user phase).requests[s.requests.length]? = some ⟨user, phase⟩ :=
  List.getElem?_concat_length

lemma now_withRequest (user : String) (phase : Phase) :
    (withRequest s user phase).now = s.now := rfl

lemma limiters_withRequest (user : String) (phase : Phase) :
    (withRequest s user phase).limiters = s.limiters := rfl

lemma setPhase_withRequest (user : String) (phase phase' : Phase) :
    (withRequest s user phase).setPhase s.requests.length user phase' =
      withRequest s user phase' := by
  rw [UserLimits.setPhase, withRequest, withRequest]
  dsimp only
  rw [List.set_append_right _ _ (Nat.le_refl _), Nat.sub_self, List.set_cons_zero]

lemma rateStep_check {user : String} {keys : List String}
    (hcheck : if s.per_user_limiters.length ≥ maxTrackedUsers then s.IsFirstHalf keys
      else keys = []) :
    rateStep per_user_rpm (withRequest s user .checking) (.check s.requests.length keys) =
      some (withRequest s user (.evicting keys)) := by
  rw [rateStep, requests_withRequest]
  dsimp only
  rw [UserLimits.check, setPhase_withRequest, setPhase_withRequest]
  by_cases hfull : s.per_user_limiters.length ≥ maxTrackedUsers
  · rw [if_pos hfull] at hcheck
    exact (if_pos hfull).trans (if_pos hcheck)
  · rw [if_neg hfull] at hcheck
    rw [hcheck]
    exact (if_neg hfull).trans (if_pos rfl)

lemma rateStep_remove (user key : String) (keys : List String) :
    rateStep per_user_rpm (withRequest s user (.evicting (key :: keys)))
        (.remove s.requests.length) =
      some (withRequest { s with
        per_user_limiters := s.per_user_limiters.filter fun e => e.1 ≠ key }
        user (.evicting keys)) := by
  rw [rateStep, requests_withRequest]
  dsimp only
  rw [UserLimits.remove, setPhase_withRequest]
  rfl

/-- The keys are removed one after the other. -/
lemma exec_removes (user : String) (keys : List String) :
    exec (rateStep per_user_rpm) (withRequest s user (.evicting keys))
        (keys.map fun _ => .remove s.requests.length) =
      some (withRequest { s with
        per_user_limiters := s.per_user_limiters.filter fun e => e.1 ∉ keys }
        user (.evicting [])) := by
  induction keys generalizing s with
  | nil =>
    have hall : (s.per_user_limiters.filter fun e => e.1 ∉ ([] : List String)) =
        s.per_user_limiters := List.filter_eq_self.mpr (by simp)
    rw [hall]
    rfl
  | cons key keys ih =>
    rw [List.map_cons, exec_cons, rateStep_remove, Option.bind_some]
    refine (ih (s := { s with
      per_user_limiters := s.per_user_limiters.filter fun e => e.1 ≠ key })).trans ?_
    have hboth : ((s.per_user_limiters.filter fun e => e.1 ≠ key).filter fun e => e.1 ∉ keys) =
        s.per_user_limiters.filter fun e => e.1 ∉ key :: keys := by
      rw [List.filter_filter]
      refine List.filter_congr fun e _ => ?_
      simp [Bool.and_comm]
    rw [hboth]

variable (per_user_rpm) in
lemma rateStep_enter {user : String} (hnew : s.per_user_limiters.lookup user = none) :
    rateStep per_user_rpm (withRequest s user (.evicting [])) (.enter s.requests.length) =
      some (withRequest { s with
        per_user_limiters := s.per_user_limiters ++ [(user, s.limiters.length)]
        limiters := s.limiters ++ [newLimiter per_user_rpm s.now] }
        user (.acquiring s.limiters.length (s.now + acquireTimeout) s.now)) := by
  rw [rateStep, requests_withRequest]
  dsimp only
  have hlookup : (withRequest s user (.evicting [])).per_user_limiters.lookup user = none := hnew
  rw [UserLimits.enter, hlookup]
  dsimp only
  rw [setPhase_withRequest]
  rfl

variable (per_user_rpm) in
/-- A request whose user has no bucket left gets a full one. -/
lemma exec_comes {user : String} {keys : List String} (hne : user ≠ "")
    (hcheck : if s.per_user_limiters.length ≥ maxTrackedUsers then s.IsFirstHalf keys
      else keys = [])
    (hnew : (s.per_user_limiters.filter fun e => e.1 ∉ keys).lookup user = none) :
    exec (rateStep per_user_rpm) s (comes s.requests.length user keys) =
      some (withRequest { s with
        per_user_limiters :=
          (s.per_user_limiters.filter fun e => e.1 ∉ keys) ++ [(user, s.limiters.length)]
        limiters := s.limiters ++ [newLimiter per_user_rpm s.now] }
        user (.acquiring s.limiters.length (s.now + acquireTimeout) s.now)) := by
  have harrive : rateStep per_user_rpm s (.arrive (some user)) =
      some (withRequest s user .checking) := if_neg hne
  rw [comes, List.cons_append, List.cons_append, exec_cons, harrive, Option.bind_some, exec_cons,
    rateStep_check hcheck, Option.bind_some]
  refine exec_trans (exec_removes user keys) ?_
  have henter := rateStep_enter per_user_rpm
    (s := { s with per_user_limiters := s.per_user_limiters.filter fun e => e.1 ∉ keys }) hnew
  dsimp only at henter
  rw [exec_cons, henter]
  rfl

lemma intervalsIn_zero (interval : ℕ) : intervalsIn 0 interval = 0 := by
  have hzero : asSecsF64 0 = (0, 1) := by decide +kernel
  rw [intervalsIn, hzero]
  dsimp only
  rw [Nat.zero_mul, toF64, if_pos rfl]
  rfl

/-- A new bucket stays as it is at the time at which it is made. -/
lemma refill_newLimiter (now : ℕ) :
    refill per_user_rpm now (newLimiter per_user_rpm now) = newLimiter per_user_rpm now := by
  have hnone : intervalsIn (now - (newLimiter per_user_rpm now).last_refill)
      (refillInterval per_user_rpm) = 0 := by
    rw [newLimiter, Nat.sub_self, intervalsIn_zero]
  rw [refill, hnone]
  exact if_neg (Nat.lt_irrefl 0)

/-- A request that waits with a new bucket is granted at once. -/
lemma rateStep_poll (user : String) (deadline : ℕ) {limiters : List RateLimiterState}
    (hlimiters : s.limiters = limiters ++ [newLimiter per_user_rpm s.now]) :
    rateStep per_user_rpm (withRequest s user (.acquiring limiters.length deadline s.now))
        (.poll s.requests.length) =
      some (withRequest { s with
        limiters := limiters ++ [{ newLimiter per_user_rpm s.now with
          tokens := (newLimiter per_user_rpm s.now).tokens - 1 }]
        granted := s.granted ++ [(user, s.now)] } user .finished) := by
  have hpos : (newLimiter per_user_rpm s.now).tokens > 0 :=
    Nat.lt_of_lt_of_le Nat.zero_lt_one (Nat.le_max_right _ _)
  have hstate : (withRequest s user (.acquiring limiters.length deadline
      s.now)).limiters[limiters.length]? = some (newLimiter per_user_rpm s.now) := by
    rw [withRequest, hlimiters]
    exact List.getElem?_concat_length
  have hset : ∀ state, s.limiters.set limiters.length state = limiters ++ [state] := by
    intro state
    rw [hlimiters, List.set_append_right _ _ (Nat.le_refl _), Nat.sub_self, List.set_cons_zero]
  rw [rateStep, requests_withRequest]
  dsimp only
  rw [if_pos (show s.now ≤ (withRequest s user _).now from Nat.le_refl _), hstate,
    Option.map_some, UserLimits.poll, now_withRequest, refill_newLimiter, if_pos hpos,
    setPhase_withRequest, limiters_withRequest, hset]
  rfl

variable (per_user_rpm) in
/-- A request whose user has no bucket left is granted at once. -/
lemma exec_comes_poll {user : String} {keys : List String} (hne : user ≠ "")
    (hcheck : if s.per_user_limiters.length ≥ maxTrackedUsers then s.IsFirstHalf keys
      else keys = [])
    (hnew : (s.per_user_limiters.filter fun e => e.1 ∉ keys).lookup user = none) :
    exec (rateStep per_user_rpm) s
        (comes s.requests.length user keys ++ [.poll s.requests.length]) =
      some (withRequest { s with
        per_user_limiters :=
          (s.per_user_limiters.filter fun e => e.1 ∉ keys) ++ [(user, s.limiters.length)]
        limiters := s.limiters ++ [{ newLimiter per_user_rpm s.now with
          tokens := (newLimiter per_user_rpm s.now).tokens - 1 }]
        granted := s.granted ++ [(user, s.now)] } user .finished) := by
  have hpoll := rateStep_poll (s := { s with
    per_user_limiters :=
      (s.per_user_limiters.filter fun e => e.1 ∉ keys) ++ [(user, s.limiters.length)]
    limiters := s.limiters ++ [newLimiter per_user_rpm s.now] }) user (s.now + acquireTimeout) rfl
  refine exec_trans (exec_comes per_user_rpm hne hcheck hnew) ?_
  rw [exec_cons, Option.bind_eq_some_iff]
  exact ⟨_, hpoll, rfl⟩

/-! ### A full map -/

/-- The users of a full map, half of whom are removed. -/
lemma isFirstHalf_users {n half : ℕ}
    (h : s.per_user_limiters.map Prod.fst = (List.range n).map userName)
    (hn : maxTrackedUsers ≤ n) (hhalf : half = n / 2) :
    s.per_user_limiters.length ≥ maxTrackedUsers ∧
      s.IsFirstHalf ((List.range half).map userName) := by
  have hlength : s.per_user_limiters.length = n := by
    rw [← List.length_map (f := Prod.fst), h, List.length_map, List.length_range]
  refine ⟨hlength ▸ hn, ?_, ?_, ?_⟩
  · rw [hlength, List.length_map, List.length_range, hhalf]
  · exact List.pairwise_map.mpr
      (List.nodup_range.imp fun hne heq => hne (userName_injective heq))
  · intro key hkey
    obtain ⟨i, hi, rfl⟩ := List.mem_map.mp hkey
    rw [h]
    have hlt : i < n / 2 := hhalf ▸ List.mem_range.mp hi
    exact List.mem_map_of_mem (List.mem_range.mpr (Nat.lt_of_lt_of_le hlt (Nat.div_le_self n 2)))

lemma lookup_removed {user : String} {keys : List String} (hkeys : user ∈ keys) :
    (s.per_user_limiters.filter fun e => e.1 ∉ keys).lookup user = none := by
  refine lookup_eq_none_of_keys fun hmem => ?_
  obtain ⟨e, he, rfl⟩ := List.mem_map.mp hmem
  exact of_decide_eq_true (List.mem_filter.mp he).2 hkeys

lemma userName_zero_mem {half : ℕ} (hhalf : 0 < half) :
    userName 0 ∈ (List.range half).map userName :=
  List.mem_map_of_mem (List.mem_range.mpr hhalf)

/-! ### Requests that keep the buckets -/

section

variable {user : String} {keys : List String}

/-- Buckets are removed that are full, while no request holds one. -/
lemma along_removes (hfull : ∀ state ∈ s.limiters, IsFull per_user_rpm s.now state)
    (hfree : ∀ q ∈ s.requests, q.phase.limiter? = none) :
    Along (rateStep per_user_rpm) (KeepsBuckets per_user_rpm)
      (withRequest s user (.evicting keys)) (keys.map fun _ => .remove s.requests.length) := by
  induction keys generalizing s with
  | nil => trivial
  | cons key keys ih =>
    refine Along.cons (rateStep_remove user key keys) ?_ ?_
    · intro req _ key' _ l _
      refine ⟨fun state hstate => hfull state (List.mem_of_getElem? hstate), ?_⟩
      intro q hq
      rcases List.mem_append.mp hq with hq | hq
      · simp [hfree q hq]
      · rw [List.mem_singleton.mp hq]
        nofun
    · exact ih (s := { s with
        per_user_limiters := s.per_user_limiters.filter fun e => e.1 ≠ key }) hfull hfree

/-- A new bucket has nothing to be refilled with. -/
lemma isExact_newLimiter (hinterval : 0 < refillInterval per_user_rpm) (now : ℕ) :
    IsExact per_user_rpm now (newLimiter per_user_rpm now) := by
  simpa [IsExact, newLimiter, intervalsIn_zero] using hinterval

variable (hne : user ≠ "")
  (hcheck : if s.per_user_limiters.length ≥ maxTrackedUsers then s.IsFirstHalf keys else keys = [])

include hne hcheck

lemma along_comes
    (hremoves : keys = [] ∨ (∀ state ∈ s.limiters, IsFull per_user_rpm s.now state) ∧
      ∀ q ∈ s.requests, q.phase.limiter? = none) :
    Along (rateStep per_user_rpm) (KeepsBuckets per_user_rpm) s
      (comes s.requests.length user keys) := by
  have harrive : rateStep per_user_rpm s (.arrive (some user)) =
      some (withRequest s user .checking) := if_neg hne
  refine Along.cons harrive trivial (Along.cons (rateStep_check hcheck) trivial ?_)
  refine Along.append ?_ (exec_removes user keys) ⟨trivial, fun _ _ => trivial⟩
  rcases hremoves with rfl | ⟨hfull, hfree⟩
  · trivial
  · exact along_removes hfull hfree

/-- Also the token is taken from a new bucket. -/
lemma along_comes_poll (hinterval : 0 < refillInterval per_user_rpm)
    (hremoves : keys = [] ∨ (∀ state ∈ s.limiters, IsFull per_user_rpm s.now state) ∧
      ∀ q ∈ s.requests, q.phase.limiter? = none)
    (hnew : (s.per_user_limiters.filter fun e => e.1 ∉ keys).lookup user = none) :
    Along (rateStep per_user_rpm) (KeepsBuckets per_user_rpm) s
      (comes s.requests.length user keys ++ [.poll s.requests.length]) := by
  refine (along_comes hne hcheck hremoves).append (exec_comes per_user_rpm hne hcheck hnew) ?_
  refine ⟨?_, fun _ _ => trivial⟩
  intro req hreq l hl state hstate
  obtain rfl : ⟨user, .acquiring s.limiters.length (s.now + acquireTimeout) s.now⟩ = req :=
    Option.some.inj (List.getElem?_concat_length.symm.trans hreq)
  obtain rfl : s.limiters.length = l := Option.some.inj hl
  obtain rfl : newLimiter per_user_rpm s.now = state :=
    Option.some.inj (List.getElem?_concat_length.symm.trans hstate)
  exact isExact_newLimiter hinterval s.now

end

/-! ### Every run -/

/-- The rate of every user holds over every run that keeps the buckets. -/
theorem grantsIn_le_allowance {now : ℕ} {acts : List RateAct}
    (hkeeps : Along (rateStep per_user_rpm) (KeepsBuckets per_user_rpm) (.init now) acts)
    (hrun : exec (rateStep per_user_rpm) (.init now) acts = some s) (user : String)
    (start length : ℕ) : grantsIn s user start length ≤ allowance per_user_rpm length := by
  have hwindow : WindowInv per_user_rpm user start length s := by
    refine exec_invariant ?_ (WindowInv.init per_user_rpm user start length now) hkeeps hrun
    intro s a t hs ha hstep
    obtain ⟨hinv, hbucket⟩ := hs.limiters.step ha hstep
    exact hs.step hinv (hbucket user)
  exact hwindow.allowed

/-- Each of so many users is granted a token. A minute later one of them comes again, and half of
the buckets are removed, its own among them: they are full again. -/
def secondMinute (users : ℕ) : List RateAct :=
  (List.range users).flatMap (fun i => comes i (userName i) [] ++ [.poll i]) ++
    .clock 60000000000 ::
      (comes users (userName 0) ((List.range (users / 2)).map userName) ++ [.poll users])

/-- So many users have been granted a token. -/
structure Granted (n : ℕ) (s : UserLimits) : Prop where
  now : s.now = 0
  names : s.per_user_limiters.map Prod.fst = (List.range n).map userName
  requests : s.requests.length = n
  finished : ∀ q ∈ s.requests, q.phase = .finished
  limiters : ∀ state ∈ s.limiters, state.last_refill = 0
  granted : s.granted = (List.range n).map fun i => (userName i, 0)

lemma refillInterval_one : refillInterval 1 = 60000000000 := by decide +kernel

lemma refillInterval_one_pos : 0 < refillInterval 1 := by simp [refillInterval_one]

lemma Granted.succ {n : ℕ} (h : Granted n s) (hn : n < 10000) :
    Along (rateStep 1) (KeepsBuckets 1) s (comes n (userName n) [] ++ [.poll n]) ∧
      ∃ t, exec (rateStep 1) s (comes n (userName n) [] ++ [.poll n]) = some t ∧
        Granted (n + 1) t := by
  have hall : (s.per_user_limiters.filter fun e => e.1 ∉ ([] : List String)) =
      s.per_user_limiters := List.filter_eq_self.mpr (by simp)
  have hroom : ¬s.per_user_limiters.length ≥ maxTrackedUsers := by
    rw [← List.length_map (f := Prod.fst), h.names, List.length_map, List.length_range]
    exact Nat.not_le_of_lt hn
  have hnew : s.per_user_limiters.lookup (userName n) = none := by
    refine lookup_eq_none_of_keys fun hmem => ?_
    rw [h.names] at hmem
    obtain ⟨i, hi, heq⟩ := List.mem_map.mp hmem
    exact Nat.ne_of_lt (List.mem_range.mp hi) (userName_injective heq)
  have halong := along_comes_poll (userName_ne_empty n) (if_neg hroom ▸ rfl)
    refillInterval_one_pos (.inl rfl) (hall.symm ▸ hnew)
  have hrun := exec_comes_poll 1 (userName_ne_empty n) (if_neg hroom ▸ rfl) (hall.symm ▸ hnew)
  rw [h.requests] at halong hrun
  refine ⟨halong, _, hrun, ⟨h.now, ?_, ?_, ?_, ?_, ?_⟩⟩
  · rw [withRequest, hall, List.map_append, h.names, List.range_succ, List.map_append]
    rfl
  · rw [withRequest, List.length_append, h.requests]
    rfl
  · intro q hq
    rcases List.mem_append.mp hq with hq | hq
    · exact h.finished q hq
    · rw [List.mem_singleton.mp hq]
  · intro state hstate
    rcases List.mem_append.mp hstate with hstate | hstate
    · exact h.limiters state hstate
    · rw [List.mem_singleton.mp hstate]
      exact h.now
  · rw [withRequest, h.granted, h.now, List.range_succ, List.map_append]
    rfl

lemma Granted.all {n : ℕ} (hn : n ≤ 10000) :
    Along (rateStep 1) (KeepsBuckets 1) (.init 0)
        ((List.range n).flatMap fun i => comes i (userName i) [] ++ [.poll i]) ∧
      ∃ t, exec (rateStep 1) (.init 0)
          ((List.range n).flatMap fun i => comes i (userName i) [] ++ [.poll i]) = some t ∧
        Granted n t := by
  induction n with
  | zero =>
    exact ⟨trivial, _, rfl, ⟨rfl, rfl, rfl, List.forall_mem_nil _, List.forall_mem_nil _, rfl⟩⟩
  | succ n ih =>
    obtain ⟨halong, t, hrun, ht⟩ := ih (Nat.le_of_succ_le hn)
    obtain ⟨hnext, u, hstep, hu⟩ := ht.succ hn
    rw [List.range_succ, List.flatMap_append, List.flatMap_singleton]
    exact ⟨halong.append hrun hnext, u, exec_trans hrun hstep, hu⟩

/-- A minute later every bucket is full again. -/
lemma Granted.again {n : ℕ} (h : Granted n s) (hn : n = 10000) :
    Along (rateStep 1) (KeepsBuckets 1) { s with now := 60000000000 }
        (comes n (userName 0) ((List.range (n / 2)).map userName) ++ [.poll n]) ∧
      ∃ t, exec (rateStep 1) { s with now := 60000000000 }
          (comes n (userName 0) ((List.range (n / 2)).map userName) ++ [.poll n]) = some t ∧
        t.granted = s.granted ++ [(userName 0, 60000000000)] := by
  obtain ⟨hfull, hhalf⟩ := isFirstHalf_users h.names (Nat.le_of_eq hn.symm) rfl
  have hcheck : if s.per_user_limiters.length ≥ maxTrackedUsers then
      s.IsFirstHalf ((List.range (n / 2)).map userName)
      else (List.range (n / 2)).map userName = [] := by
    rwa [if_pos hfull]
  have hfilled : ∀ state ∈ s.limiters, IsFull 1 60000000000 state := by
    intro state hstate
    rw [IsFull, h.limiters state hstate, refillInterval_one]
    exact Nat.le_add_left _ _
  have hfree : ∀ q ∈ s.requests, q.phase.limiter? = none := by
    intro q hq
    rw [h.finished q hq]
    rfl
  have hzero : userName 0 ∈ (List.range (n / 2)).map userName :=
    userName_zero_mem (by simp [hn])
  have halong := along_comes_poll (s := { s with now := 60000000000 })
    (userName_ne_empty 0) hcheck refillInterval_one_pos (.inr ⟨hfilled, hfree⟩)
    (lookup_removed hzero)
  have hrun := exec_comes_poll (s := { s with now := 60000000000 }) 1 (userName_ne_empty 0) hcheck
    (lookup_removed hzero)
  rw [h.requests] at halong hrun
  exact ⟨halong, _, hrun, rfl⟩

/-- With as many users as the map holds: the one whose bucket is removed is granted a second token
in the window, and no third one. -/
theorem grantsIn_le_allowance_secondMinute :
    ∃ s, exec (rateStep 1) (.init 0) (secondMinute 10000) = some s ∧
      (userName 0, 0) ∈ s.granted ∧ (userName 0, 60000000000) ∈ s.granted ∧
      grantsIn s (userName 0) 0 60000000000 ≤ allowance 1 60000000000 := by
  -- with the number itself, the list of actions would be evaluated
  generalize hn : 10000 = n
  obtain ⟨halong, s, hrun, hs⟩ := Granted.all (Nat.le_of_eq hn.symm)
  obtain ⟨hagain, t, hlast, hgranted⟩ := hs.again hn.symm
  have hclock : rateStep 1 s (.clock 60000000000) = some { s with now := 60000000000 } := by
    rw [rateStep, hs.now]
  have hexec : exec (rateStep 1) (.init 0) (secondMinute n) = some t := by
    rw [secondMinute, exec_append, hrun, Option.bind_some, exec_cons, hclock, Option.bind_some]
    exact hlast
  have hkeeps : Along (rateStep 1) (KeepsBuckets 1) (.init 0) (secondMinute n) :=
    halong.append hrun (Along.cons hclock trivial hagain)
  refine ⟨t, hexec, ?_, ?_, grantsIn_le_allowance hkeeps hexec _ _ _⟩
  · rw [hgranted, hs.granted]
    exact List.mem_append_left _ (List.mem_map_of_mem (List.mem_range.mpr (by omega)))
  · rw [hgranted]
    exact List.mem_append_right _ (List.mem_singleton_self _)

/-! ### A map that overflows -/

/-- As many users as the map holds, the first of which is granted a token. Then that user comes
again, and its bucket is among those that are removed. -/
def overflow : List RateAct :=
  comes 0 (userName 0) [] ++ [.poll 0] ++
    (List.range 9999).flatMap (fun i => comes (i + 1) (userName (i + 1)) []) ++
      comes 10000 (userName 0) ((List.range 5000).map userName) ++ [.poll 10000]

/-- As many users as the map holds, the first of which has been granted a token. -/
structure Crowded (n : ℕ) (s : UserLimits) : Prop where
  now : s.now = 0
  names : s.per_user_limiters.map Prod.fst = (List.range n).map userName
  requests : s.requests.length = n
  granted : s.granted = [(userName 0, 0)]

lemma Crowded.length {n : ℕ} (h : Crowded n s) : s.per_user_limiters.length = n := by
  rw [← List.length_map, h.names, List.length_map, List.length_range]

/-- One more user comes. -/
lemma Crowded.succ {n : ℕ} (h : Crowded n s) (hn : n < 10000) :
    ∃ t, exec (rateStep 1) s (comes n (userName n) []) = some t ∧ Crowded (n + 1) t := by
  have hall : (s.per_user_limiters.filter fun e => e.1 ∉ ([] : List String)) =
      s.per_user_limiters := List.filter_eq_self.mpr (by simp)
  have hroom : ¬s.per_user_limiters.length ≥ maxTrackedUsers := by
    rw [h.length]
    exact Nat.not_le_of_lt hn
  have hnew : s.per_user_limiters.lookup (userName n) = none := by
    refine lookup_eq_none_of_keys fun hmem => ?_
    rw [h.names] at hmem
    obtain ⟨i, hi, heq⟩ := List.mem_map.mp hmem
    exact Nat.ne_of_lt (List.mem_range.mp hi) (userName_injective heq)
  have hcomes := exec_comes 1 (userName_ne_empty n) (if_neg hroom ▸ rfl) (hall.symm ▸ hnew)
  rw [h.requests] at hcomes
  refine ⟨_, hcomes, ⟨h.now, ?_, ?_, h.granted⟩⟩
  · rw [withRequest, hall, List.map_append, h.names, List.range_succ, List.map_append]
    rfl
  · rw [withRequest, List.length_append, h.requests]
    rfl

lemma Crowded.fill {n : ℕ} (h : Crowded 1 s) (hn : n ≤ 9999) :
    ∃ t, exec (rateStep 1) s
        ((List.range n).flatMap fun i => comes (i + 1) (userName (i + 1)) []) = some t ∧
      Crowded (n + 1) t := by
  induction n with
  | zero => exact ⟨s, rfl, h⟩
  | succ n ih =>
    obtain ⟨t, hrun, ht⟩ := ih (Nat.le_of_succ_le hn)
    obtain ⟨u, hstep, hu⟩ := ht.succ (Nat.succ_le_succ hn)
    refine ⟨u, ?_, hu⟩
    rw [List.range_succ, List.flatMap_append, List.flatMap_singleton]
    exact exec_trans hrun hstep

/-- The user of the removed bucket is granted a second token. -/
lemma Crowded.again (h : Crowded 10000 s) :
    ∃ t, exec (rateStep 1) s (comes 10000 (userName 0) ((List.range 5000).map userName) ++
        [.poll 10000]) = some t ∧
      t.granted = [(userName 0, 0), (userName 0, 0)] := by
  obtain ⟨hfull, hhalf⟩ := isFirstHalf_users h.names (Nat.le_refl _)
    (rfl : 5000 = 10000 / 2)
  have hrun := exec_comes_poll 1 (userName_ne_empty 0) (by rwa [if_pos hfull])
    (lookup_removed (userName_zero_mem (by decide)))
  rw [h.requests] at hrun
  refine ⟨_, hrun, ?_⟩
  rw [withRequest, h.granted, h.now]
  rfl

/-- A user is granted two tokens at the same time, where a bucket holds one. -/
theorem overflow_grants_twice :
    ∃ s, exec (rateStep 1) (.init 0) overflow = some s ∧
      allowance 1 0 < grantsIn s (userName 0) 0 0 := by
  obtain ⟨first, hfirst, hone⟩ : ∃ first, exec (rateStep 1) (.init 0)
      (comes 0 (userName 0) [] ++ [.poll 0]) = some first ∧ Crowded 1 first := by
    have hroom : ¬(UserLimits.init 0).per_user_limiters.length ≥ maxTrackedUsers := by decide
    have hfirst :=
      exec_comes_poll (s := .init 0) 1 (userName_ne_empty 0) (by rw [if_neg hroom]) rfl
    exact ⟨_, hfirst, rfl, rfl, rfl, rfl⟩
  obtain ⟨s, hfill, hs⟩ := hone.fill (Nat.le_refl 9999)
  obtain ⟨t, hagain, ht⟩ := hs.again
  have hrun := exec_trans (exec_trans hfirst hfill) hagain
  refine ⟨t, ?_, ?_⟩
  · rw [overflow, List.append_assoc _ (comes _ _ _)]
    exact hrun
  · rw [grantsIn, grantTimes, ht]
    decide +kernel

end Arbeiterfarm.Web
