import Arbeiterfarm.Jobs.Worker

/-!
# The attempt bound

The attempt counter of a run counts its claims. Only `claim` raises it, only `reclaimExpired`
makes a run claimable again, and it takes the runs with `attempt < maxAttempts`; the expired runs
that are left are the ones that `failExhausted` fails.
-/

namespace Arbeiterfarm.Jobs

open Foundation

/-! ### Attempts are claims -/

/-- The attempt counter of a run; zero before it is enqueued. -/
def attemptOf (id : Uuid) (s : Farm) : ℕ := (get id s.rows).elim 0 (·.attempt)

/-- One if the action claims the run; `t` is the farm after it. -/
def claimsIn (id : Uuid) (t : Farm) (a : Action) : ℕ :=
  if (claimedRun t a).any (·.id = id) then 1 else 0

/-- How often the run is claimed along the actions. -/
def claimsOf (id : Uuid) : Farm → List Action → ℕ
  | _, [] => 0
  | s, a :: as => (s.step a).elim 0 fun t => claimsIn id t a + claimsOf id t as

@[simp] lemma attemptOf_init (id : Uuid) : attemptOf id .init = 0 := rfl

lemma attemptOf_of_get {id : Uuid} {s : Farm} {r : ToolRunRow} (h : get id s.rows = some r) :
    attemptOf id s = r.attempt := by
  simp [attemptOf, h]

lemma claimsIn_eq_one {id : Uuid} {t : Farm} {a : Action} {run : ToolRunRow}
    (h : claimedRun t a = some run) (hid : run.id = id) : claimsIn id t a = 1 := by
  simp [claimsIn, h, hid]

lemma claimsIn_eq_zero {id : Uuid} {t : Farm} {a : Action}
    (h : ∀ run, claimedRun t a = some run → run.id ≠ id) : claimsIn id t a = 0 := by
  cases hrun : claimedRun t a with
  | none => simp [claimsIn, hrun]
  | some run => simp [claimsIn, hrun, h run hrun]

/-- Only a run that is in the table is claimed. -/
lemma get_of_claimedRun {s t : Farm} {a : Action} (h : s.step a = some t) {run : ToolRunRow}
    (hrun : claimedRun t a = some run) : ∃ r, get run.id s.rows = some r := by
  cases Rule.of_step h with
  | claim w locked run' rows hw hclaim =>
    obtain ⟨q, hq, -, rfl, -⟩ := claim_spec hclaim
    simp only [claimedRun, Function.update_self, Option.some.injEq] at hrun
    subst hrun
    exact ⟨q, hq⟩
  | _ => simp [claimedRun] at hrun

/-- A step raises the attempt counter exactly when it claims the run. -/
lemma attemptOf_step {s t : Farm} {a : Action} (h : s.step a = some t) (id : Uuid) :
    attemptOf id t = attemptOf id s + claimsIn id t a := by
  cases hr : get id s.rows with
  | some r =>
    obtain ⟨r', hr', hrule⟩ := row_step h hr
    rw [attemptOf_of_get hr, attemptOf_of_get hr']
    obtain rfl := id_of_get hr
    have hzero (ha : ∀ w locked, a ≠ .claim w locked) : claimsIn r.id t a = 0 := by
      apply claimsIn_eq_zero
      intro run hrun
      cases a with
      | claim w locked => exact absurd rfl (ha w locked)
      | _ => simp [claimedRun] at hrun
    cases hrule with
    | same hclaim => rw [claimsIn_eq_zero hclaim, Nat.add_zero]
    | claimed hqueued hclaim =>
      rw [claimsIn_eq_one hclaim (markClaimed_id ..)]
      rfl
    | extended w run ha =>
      subst ha
      rw [hzero (by simp)]
      rfl
    | reported w run result ha =>
      subst ha
      rw [hzero (by simp), reportRow_attempt, Nat.add_zero]
    | requeued ha | exhausted ha =>
      subst ha
      rw [hzero (by simp)]
      rfl
  | none =>
    have hzero : claimsIn id t a = 0 := by
      apply claimsIn_eq_zero
      rintro run hrun rfl
      obtain ⟨r, hr'⟩ := get_of_claimedRun h hrun
      simp [hr] at hr'
    rw [hzero, Nat.add_zero]
    cases hr' : get id t.rows with
    | none => simp [attemptOf, hr, hr']
    | some r' =>
      rcases row_of_step h hr' with ⟨r, hr'', -⟩ | ⟨req, -, -, rfl⟩
      · simp [hr] at hr''
      · simp [attemptOf, hr, hr', EnqueueRequest.row]

/-- Over a run of the farm, the attempt counter grows by the number of claims. -/
lemma attemptOf_exec {s t : Farm} {as : List Action} (h : exec Farm.step s as = some t)
    (id : Uuid) : attemptOf id t = attemptOf id s + claimsOf id s as := by
  induction as generalizing s with
  | nil =>
    cases h
    rfl
  | cons a as ih =>
    obtain ⟨u, hu, hut⟩ := Option.bind_eq_some_iff.mp h
    rw [ih hut, attemptOf_step hu, Nat.add_assoc]
    simp [claimsOf, hu]

/-! ### The invariant -/

/-- A row within the bound: it can only wait in the queue for an attempt that it still has. -/
structure WithinAttempts (r : ToolRunRow) : Prop where
  attempt_le : r.attempt ≤ maxAttempts
  queued_lt : r.status = .queued → r.attempt < maxAttempts
  leased : r.status = .running → r.lease_expires.isSome

lemma WithinAttempts.of_row (req : EnqueueRequest) (now : ℤ) (id : Uuid) :
    WithinAttempts (req.row now id) := by
  refine ⟨Nat.zero_le _, ?_, ?_⟩
  · intro _
    show 0 < maxAttempts
    decide
  · intro hrun
    simp [EnqueueRequest.row] at hrun

lemma WithinAttempts.step {s t : Farm} {a : Action} {r r' : ToolRunRow} (hr : WithinAttempts r)
    (h : RowRule s a t r r') : WithinAttempts r' := by
  cases h with
  | same => exact hr
  | claimed hqueued =>
    refine ⟨hr.queued_lt hqueued, ?_, fun _ => rfl⟩
    intro hst
    simp [markClaimed] at hst
  | extended => exact ⟨hr.attempt_le, hr.queued_lt, fun _ => rfl⟩
  | reported w run result =>
    refine ⟨by simpa using hr.attempt_le, ?_, ?_⟩
    · intro hst
      rw [reportRow_status] at hst
      split_ifs at hst
    · intro hst
      rw [reportRow_status] at hst
      split_ifs at hst
  | requeued ha h =>
    refine ⟨hr.attempt_le, fun _ => (reclaimable_iff.mp h).2, ?_⟩
    intro hst
    simp [requeue] at hst
  | exhausted =>
    refine ⟨hr.attempt_le, ?_, ?_⟩
    · intro hst
      simp [markExhausted] at hst
    · intro hst
      simp [markExhausted] at hst

/-- Every row of the table is within the bound. -/
def AttemptInv (s : Farm) : Prop := ∀ id r, get id s.rows = some r → WithinAttempts r

lemma attemptInv_init : AttemptInv .init := by
  intro id r h
  simp [Farm.init, get] at h

lemma attemptInv_step {s t : Farm} {a : Action} (hs : AttemptInv s) (h : s.step a = some t) :
    AttemptInv t := by
  intro id r' hr'
  rcases row_of_step h hr' with ⟨r, hr, hrule⟩ | ⟨req, -, -, rfl⟩
  · exact (hs id r hr).step hrule
  · exact .of_row req s.now id

lemma attemptInv_of_exec {s : Farm} {as : List Action} (h : exec Farm.step .init as = some s) :
    AttemptInv s :=
  exec_preserves (fun _ _ _ => attemptInv_step) attemptInv_init h

/-! ### A pass of the reaper -/

/-- The first statement of a pass that begins in `s` sends the attempt back to the queue. -/
def RequeuedBy (s : Farm) (r : ToolRunRow) : Prop :=
  get r.id (reclaimExpired s.now maxAttempts s.rows) = some (requeue r)

/-- The row ends up failed, in the attempt of `r`, because no attempt is left. -/
def FailedFor (s : Farm) (r : ToolRunRow) : Prop :=
  ∃ r', get r.id s.rows = some r' ∧ r'.status = .failed ∧ r'.attempt = r.attempt ∧
    r'.error_json = some maxAttemptsExceeded

/-- The action is not a heartbeat or a report about the run `id`. -/
def LeavesAlone (id : Uuid) (s : Farm) : Action → Prop
  | .heartbeat w | .report w _ => ∀ run, s.workers w = some run → run.id ≠ id
  | _ => True

instance (id : Uuid) (s : Farm) (a : Action) : Decidable (LeavesAlone id s a) := by
  cases a with
  | heartbeat w | report w =>
    refine decidable_of_iff (∀ run ∈ s.workers w, run.id ≠ id) ?_
    simp [LeavesAlone]
  | _ => exact isTrue trivial

/-- The attempt of `r` is due for `failExhausted`, or has been failed by an overlapping pass. -/
def DueOrFailed (r : ToolRunRow) (s : Farm) : Prop :=
  (∃ r', get r.id s.rows = some r' ∧ exhausted s.now maxAttempts r' ∧ r'.attempt = r.attempt) ∨
    FailedFor s r

lemma exhausted_mono {now now' : ℤ} {r : ToolRunRow} (hle : now ≤ now')
    (h : exhausted now maxAttempts r) : exhausted now' maxAttempts r := by
  obtain ⟨hexp, hat⟩ := exhausted_iff.mp h
  refine exhausted_iff.mpr ⟨?_, hat⟩
  cases hlease : r.lease_expires with
  | none => simp [leaseExpired, hlease] at hexp
  | some lease =>
    simp only [leaseExpired, hlease, Option.any_some, decide_eq_true_eq] at hexp ⊢
    exact ⟨hexp.1, hexp.2.trans_le hle⟩

/-- The clock does not go back. -/
lemma now_mono {s t : Farm} {a : Action} (h : s.step a = some t) : s.now ≤ t.now := by
  cases Rule.of_step h with
  | tick d => exact Int.le_add_of_nonneg_right (Int.natCast_nonneg d)
  | _ => exact le_rfl

/-- What is due stays due until it is failed, unless its worker shows up again. -/
lemma dueOrFailed_step {r : ToolRunRow} {s t : Farm} {a : Action} (hs : DueOrFailed r s)
    (hC : LeavesAlone r.id s a) (h : s.step a = some t) : DueOrFailed r t := by
  rcases hs with ⟨q, hq, hdue, hat⟩ | ⟨q, hq, hst, hat, herr⟩
  · obtain ⟨q', hq', hrule⟩ := row_step h hq
    have hid : q.id = r.id := id_of_get hq
    cases hrule with
    | same => exact .inl ⟨q, hq', exhausted_mono (now_mono h) hdue, hat⟩
    | claimed hqueued =>
      have hrun := running_of_leaseExpired (exhausted_iff.mp hdue).1
      simp [hqueued] at hrun
    | extended w run ha hw hrun | reported w run result ha hw hrun =>
      subst ha
      exact absurd (hrun.trans hid) (hC run hw)
    | requeued ha hrec =>
      have hlt := (reclaimable_iff.mp hrec).2
      have hge := (exhausted_iff.mp hdue).2
      omega
    | exhausted => exact .inr ⟨_, hq', rfl, hat, rfl⟩
  · obtain ⟨q', hq', hrule⟩ := row_step h hq
    have hid : q.id = r.id := id_of_get hq
    cases hrule with
    | same => exact .inr ⟨q, hq', hst, hat, herr⟩
    | claimed hqueued => simp [hst] at hqueued
    | extended => exact .inr ⟨_, hq', hst, hat, herr⟩
    | reported w run result ha hw hrun =>
      subst ha
      exact absurd (hrun.trans hid) (hC run hw)
    | requeued ha hrec =>
      have hrun := running_of_leaseExpired (reclaimable_iff.mp hrec).1
      simp [hst] at hrun
    | exhausted ha hex =>
      have hrun := running_of_leaseExpired (exhausted_iff.mp hex).1
      simp [hst] at hrun

/-- A pass that begins in `s` with `reclaimExpired` and comes to its second statement in `t`: it
never requeues and fails the same attempt, and it does one of the two to every expired run that
its worker leaves alone in between. -/
structure SettledByPass (s : Farm) (mid : List Action) (t : Farm) (r : ToolRunRow) : Prop where
  not_both : RequeuedBy s r →
    ∀ r', get r.id t.rows = some r' → r'.attempt = r.attempt → ¬ exhausted t.now maxAttempts r'
  not_neither : (∀ s', s.step .reclaimExpired = some s' →
      Along Farm.step (LeavesAlone r.id) s' mid) →
    RequeuedBy s r ∨ ∀ u, t.step .failExhausted = some u → FailedFor u r

lemma settledByPass {s t : Farm} {mid : List Action} {r : ToolRunRow}
    (hr : get r.id s.rows = some r) (hexp : leaseExpired s.now r)
    (h : exec Farm.step s (.reclaimExpired :: mid) = some t) : SettledByPass s mid t r := by
  have hget : get r.id (reclaimExpired s.now maxAttempts s.rows) =
      some (if reclaimable s.now maxAttempts r then requeue r else r) := by
    simp [hr]
  obtain ⟨s', hs', hst⟩ := Option.bind_eq_some_iff.mp h
  constructor
  · intro hreq r' _ hat hex
    have hrec : reclaimable s.now maxAttempts r := by
      by_contra hrec
      rw [RequeuedBy, hget, if_neg hrec, Option.some.injEq] at hreq
      have hrun := running_of_leaseExpired hexp
      rw [hreq] at hrun
      simp [requeue] at hrun
    have hlt := (reclaimable_iff.mp hrec).2
    have hge := (exhausted_iff.mp hex).2
    omega
  · intro hC
    by_cases hlt : r.attempt < maxAttempts
    · left
      rw [RequeuedBy, hget, if_pos (reclaimable_iff.mpr ⟨hexp, hlt⟩)]
    · right
      have hdue : exhausted s.now maxAttempts r := exhausted_iff.mpr ⟨hexp, Nat.not_lt.mp hlt⟩
      intro u hu
      have hmid : DueOrFailed r t := by
        apply exec_invariant (fun _ _ _ => dueOrFailed_step) _ (hC s' hs') hst
        exact dueOrFailed_step (a := .reclaimExpired) (.inl ⟨r, hr, hdue, rfl⟩) trivial hs'
      rcases dueOrFailed_step (a := .failExhausted) hmid trivial hu with ⟨q, hq, hex, -⟩ | hfailed
      · -- the second statement has failed every row that is due
        obtain rfl := Option.some.inj hu
        simp only [get_failExhausted] at hq
        obtain ⟨q₀, -, rfl⟩ := Option.map_eq_some_iff.mp hq
        split_ifs at hex with hp
        · have hrun := running_of_leaseExpired (exhausted_iff.mp hex).1
          simp [markExhausted] at hrun
        · exact absurd hex hp
      · exact hfailed

/-! ### The bound -/

/-- The attempt bound at the end `s` of the run `as`. -/
structure AttemptsBounded (as : List Action) (s : Farm) : Prop where
  attempt_le : ∀ id r, get id s.rows = some r → r.attempt ≤ maxAttempts
  claims_le : ∀ id, claimsOf id .init as ≤ maxAttempts
  queued_lt : ∀ id r, get id s.rows = some r → r.status = .queued →
    r.attempt < maxAttempts ∧ ∀ locked, r.id ∉ locked →
      (claim s.now leaseDurationSecs locked s.rows).isSome
  settled : ∀ id r, get id s.rows = some r → leaseExpired s.now r →
    ∀ mid t, exec Farm.step s (.reclaimExpired :: mid) = some t → SettledByPass s mid t r

/-- No interleaving of workers and reapers takes a run past its last attempt or strands it. -/
theorem attemptsBounded {as : List Action} {s : Farm} (h : exec Farm.step .init as = some s) :
    AttemptsBounded as s := by
  have hinv := attemptInv_of_exec h
  refine ⟨?_, ?_, ?_, ?_⟩
  · intro id r hr
    exact (hinv id r hr).attempt_le
  · intro id
    have hcount := attemptOf_exec h id
    rw [attemptOf_init, Nat.zero_add] at hcount
    rw [← hcount]
    cases hr : get id s.rows with
    | none => simp [attemptOf, hr]
    | some r =>
      rw [attemptOf_of_get hr]
      exact (hinv id r hr).attempt_le
  · intro id r hr hqueued
    refine ⟨(hinv id r hr).queued_lt hqueued, ?_⟩
    intro locked hfree
    exact claim_isSome (Table.lookup_eq_some_iff.mp hr).1 hqueued hfree
  · intro id r hr hexp mid t ht
    obtain rfl := id_of_get hr
    exact settledByPass hr hexp ht

/-- A worker stalls past its lease and the reaper makes a pass. -/
def stalledWorker : List Action :=
  [.enqueue 7 fileInfoRequest, .claim 0 [], .tick 121, .reclaimExpired, .failExhausted]

theorem attemptsBounded_stalledWorker :
    ∃ s, exec Farm.step .init stalledWorker = some s ∧ AttemptsBounded stalledWorker s := by
  obtain ⟨s, h⟩ : ∃ s, exec Farm.step .init stalledWorker = some s := ⟨_, rfl⟩
  exact ⟨s, h, attemptsBounded h⟩

end Arbeiterfarm.Jobs
