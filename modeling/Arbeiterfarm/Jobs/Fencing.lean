import Arbeiterfarm.Jobs.Worker

/-!
# Fencing of job runs

`complete` and `fail` select the row by its id alone. They are safe as long as a worker reports
only runs that no reaper pass has taken from it (`ReportsInTime`): in such a run every report
finds the row running under the attempt that the worker claimed, outcomes are final, and the
recorded output is the one of the current attempt. Conversely a report on a run that was taken
never finds the row so.
-/

namespace Arbeiterfarm.Jobs

open Foundation

/-! ### What the reaper has taken -/

/-- A pair that the reaper has taken is not running any more. -/
def TakenIsOver (s : Farm) : Prop :=
  ∀ id n, (id, n) ∈ s.reaped →
    ∃ r, get id s.rows = some r ∧ n ≤ r.attempt ∧ (r.attempt = n → r.status ≠ .running)

lemma takenIsOver_init : TakenIsOver .init := by
  intro id n h
  simp [Farm.init] at h

/-- The attempt `n` of the row is over. -/
def AttemptOver (n : ℕ) (r : ToolRunRow) : Prop :=
  n ≤ r.attempt ∧ (r.attempt = n → r.status ≠ .running)

/-- No step starts an attempt that is over. -/
lemma RowRule.attemptOver {s t : Farm} {a : Action} {r r' : ToolRunRow} (h : RowRule s a t r r')
    {n : ℕ} (hr : AttemptOver n r) : AttemptOver n r' := by
  obtain ⟨hle, hrun⟩ := hr
  cases h with
  | same | extended => exact ⟨hle, hrun⟩
  | claimed =>
    -- the row moves on to the next attempt
    refine ⟨Nat.le_succ_of_le hle, ?_⟩
    intro heq
    exact absurd (heq ▸ hle) (Nat.not_succ_le_self _)
  | reported w run result =>
    refine ⟨(reportRow_attempt ..).symm ▸ hle, ?_⟩
    intro _
    rw [reportRow_status]
    split_ifs <;> simp
  | requeued => exact ⟨hle, fun _ => by simp [requeue]⟩
  | exhausted => exact ⟨hle, fun _ => by simp [markExhausted]⟩

/-- What has been taken after a step was taken before, or it is a row that the pass selects. -/
lemma reaped_step {s t : Farm} {a : Action} (h : s.step a = some t) {id : Uuid} {n : ℕ}
    (hmem : (id, n) ∈ t.reaped) :
    (id, n) ∈ s.reaped ∨ ∃ r, get id s.rows = some r ∧ r.attempt = n ∧
      (a = .reclaimExpired ∧ reclaimable s.now maxAttempts r ∨
        a = .failExhausted ∧ exhausted s.now maxAttempts r) := by
  cases Rule.of_step h with
  | tick | enqueue | claim | heartbeat | report | abandon => exact .inl hmem
  | reclaimExpired =>
    refine (List.mem_append.mp hmem).imp_right ?_
    intro hnew
    obtain ⟨r, hr, hp, hat⟩ := mem_taken.mp hnew
    exact ⟨r, hr, hat, .inl ⟨rfl, hp⟩⟩
  | failExhausted =>
    refine (List.mem_append.mp hmem).imp_right ?_
    intro hnew
    obtain ⟨r, hr, hp, hat⟩ := mem_taken.mp hnew
    exact ⟨r, hr, hat, .inr ⟨rfl, hp⟩⟩

lemma takenIsOver_step {s t : Farm} {a : Action} (hs : TakenIsOver s) (h : s.step a = some t) :
    TakenIsOver t := by
  intro id n hmem
  rcases reaped_step h hmem with hold | ⟨r, hr, rfl, hpass⟩
  · obtain ⟨r, hr, hover⟩ := hs id n hold
    obtain ⟨r', hr', hrule⟩ := row_step h hr
    exact ⟨r', hr', hrule.attemptOver hover⟩
  · obtain ⟨r', hr', hrule⟩ := row_step h hr
    refine ⟨r', hr', ?_⟩
    cases hrule with
    | same _ hreclaim hfail =>
      rcases hpass with ⟨ha, hp⟩ | ⟨ha, hp⟩
      · exact absurd hp (hreclaim ha)
      · exact absurd hp (hfail ha)
    | requeued => exact ⟨le_rfl, fun _ => by simp [requeue]⟩
    | exhausted => exact ⟨le_rfl, fun _ => by simp [markExhausted]⟩
    | claimed _ hclaim =>
      rcases hpass with ⟨rfl, -⟩ | ⟨rfl, -⟩ <;> cases hclaim
    | extended _ _ ha | reported _ _ _ ha => rcases hpass with ⟨rfl, -⟩ | ⟨rfl, -⟩ <;> cases ha

/-! ### The invariant of runs without late reports -/

/-- The worker reports a run that no reaper pass has taken from it. -/
def ReportsInTime (s : Farm) : Action → Prop
  | .report w _ => ∀ run, s.workers w = some run → (run.id, run.attempt) ∉ s.reaped
  | _ => True

/-- The row runs under the attempt that the worker claimed. -/
def HoldsAttempt (rows : ToolRuns) (run : ToolRunRow) : Prop :=
  ∃ r, get run.id rows = some r ∧ r.status = .running ∧ r.attempt = run.attempt

structure Inv (s : Farm) : Prop where
  /-- A worker holds the current attempt unless the reaper has taken the run from it. -/
  current : ∀ w run, s.workers w = some run →
    (run.id, run.attempt) ∈ s.reaped ∨ HoldsAttempt s.rows run
  attempt_le : ∀ w run, s.workers w = some run →
    ∃ r, get run.id s.rows = some r ∧ run.attempt ≤ r.attempt
  unique : ∀ w w' run run', s.workers w = some run → s.workers w' = some run' →
    run.id = run'.id → run.attempt = run'.attempt → w = w'
  recorded : ∀ id r, get id s.rows = some r → r.status = .completed →
    ∃ w, s.recordedBy id = some (w, r.attempt)

lemma inv_init : Inv .init := by
  refine ⟨?_, ?_, ?_, ?_⟩
  · intro w run h
    simp [Farm.init] at h
  · intro w run h
    simp [Farm.init] at h
  · intro w w' run run' h
    simp [Farm.init] at h
  · intro id r h
    simp [Farm.init, get] at h

/-- A report in time finds the run held by its worker. -/
lemma Inv.holds_of_report {s : Farm} (hs : Inv s) {w : WorkerId} {run : ToolRunRow}
    {result : Except ToolError ToolResult} (hw : s.workers w = some run)
    (hC : ReportsInTime s (.report w result)) : HoldsAttempt s.rows run :=
  (hs.current w run hw).resolve_left (hC run hw)

/-- No row disappears and no attempt counter goes back. -/
lemma attempt_mono {s t : Farm} {a : Action} (h : s.step a = some t) {id : Uuid}
    {r : ToolRunRow} (hr : get id s.rows = some r) :
    ∃ r', get id t.rows = some r' ∧ r.attempt ≤ r'.attempt := by
  obtain ⟨r', hr', hrule⟩ := row_step h hr
  refine ⟨r', hr', ?_⟩
  cases hrule with
  | same | extended | requeued | exhausted => exact le_rfl
  | claimed => exact Nat.le_succ _
  | reported w run result => exact (reportRow_attempt ..).ge

lemma HoldsAttempt.of_map {rows rows' : ToolRuns} {run : ToolRunRow} (h : HoldsAttempt rows run)
    {f : ToolRunRow → ToolRunRow} (hget : get run.id rows' = (get run.id rows).map f)
    (hf : ∀ r, get run.id rows = some r → r.status = .running → r.attempt = run.attempt →
      (f r).status = .running ∧ (f r).attempt = r.attempt) : HoldsAttempt rows' run := by
  obtain ⟨r, hr, hst, hat⟩ := h
  obtain ⟨hst', hat'⟩ := hf r hr hst hat
  exact ⟨f r, by simp [hget, hr], hst', hat'.trans hat⟩

/-- A reaper pass over the rows `p` takes a held run or leaves it alone. -/
lemma current_of_pass {s : Farm} {run : ToolRunRow} {p : ToolRunRow → Bool}
    {f : ToolRunRow → ToolRunRow} {rows : ToolRuns}
    (hget : get run.id rows = (get run.id s.rows).map fun r => if p r then f r else r)
    (h : (run.id, run.attempt) ∈ s.reaped ∨ HoldsAttempt s.rows run) :
    (run.id, run.attempt) ∈ s.reaped ++ taken p s.rows ∨ HoldsAttempt rows run := by
  rcases h with h | h
  · exact .inl (List.mem_append_left _ h)
  obtain ⟨r, hr, hst, hat⟩ := h
  by_cases hp : p r
  · exact .inl (List.mem_append_right _ (mem_taken.mpr ⟨r, hr, hp, hat⟩))
  · exact .inr ⟨r, by simp [hget, hr, hp], hst, hat⟩

/-- Who still holds a run after one worker is released is another worker, and held it before. -/
lemma of_released {workers : WorkerId → Option ToolRunRow} {v w : WorkerId} {run : ToolRunRow}
    (hw : Function.update workers v none w = some run) : w ≠ v ∧ workers w = some run := by
  rcases eq_or_ne w v with rfl | hne
  · simp at hw
  · rw [Function.update_of_ne hne] at hw
    exact ⟨hne, hw⟩

lemma Inv.current_step {s t : Farm} {a : Action} (hs : Inv s) (hC : ReportsInTime s a)
    (h : s.step a = some t) (w : WorkerId) (run : ToolRunRow) (hw : t.workers w = some run) :
    (run.id, run.attempt) ∈ t.reaped ∨ HoldsAttempt t.rows run := by
  cases Rule.of_step h with
  | tick d => exact hs.current w run hw
  | enqueue id' req rows hrows =>
    exact (hs.current w run hw).imp_right fun ⟨r, hr, hrest⟩ =>
      ⟨r, get_of_enqueue hrows hr, hrest⟩
  | claim v locked run' rows hv hclaim =>
    obtain ⟨q, hq, hqueued, rfl, hget⟩ := claim_spec hclaim
    rcases eq_or_ne w v with rfl | hne
    · -- the new worker holds the row it has just marked
      simp only [Function.update_self, Option.some.injEq] at hw
      subst hw
      exact .inr ⟨markClaimed s.now leaseDurationSecs q,
        by simp [hget, hq], rfl, rfl⟩
    · simp only [Function.update_of_ne hne] at hw
      refine (hs.current w run hw).imp_right fun hold => hold.of_map (hget _) fun r hr hst _ => ?_
      have hrq : ¬ r.id = q.id := by
        intro hid
        rw [← hid, id_of_get hr, hr] at hq
        obtain rfl := Option.some.inj hq
        simp [hqueued] at hst
      rw [if_neg hrq]
      exact ⟨hst, rfl⟩
  | heartbeat v run' hv =>
    refine (hs.current w run hw).imp_right fun hold =>
      hold.of_map (get_heartbeat ..) fun r _ hst _ => ?_
    split_ifs <;> exact ⟨hst, rfl⟩
  | report v run' result hv =>
    obtain ⟨hne, hw⟩ := of_released hw
    obtain ⟨f, -, hget⟩ := get_report s.now run' result s.rows run.id
    refine (hs.current w run hw).imp_right fun hold =>
      hold.of_map hget fun r hr hst hat => ?_
    -- the reported row is held by its own worker, so `w` cannot hold it too
    have hid : ¬ r.id = run'.id := by
      intro hid
      obtain ⟨r', hr', -, hat'⟩ := hs.holds_of_report hv hC
      rw [← hid, id_of_get hr, hr] at hr'
      obtain rfl := Option.some.inj hr'
      exact hne (hs.unique w v run run' hw hv ((id_of_get hr).symm.trans hid)
        (hat.symm.trans hat'))
    rw [if_neg hid]
    exact ⟨hst, rfl⟩
  | abandon v run' hv => exact hs.current w run (of_released hw).2
  | reclaimExpired => exact current_of_pass (get_reclaimExpired ..) (hs.current w run hw)
  | failExhausted => exact current_of_pass (get_failExhausted ..) (hs.current w run hw)

/-- A busy worker was busy with the same run before, or has just claimed it. -/
lemma workers_step {s t : Farm} {a : Action} (h : s.step a = some t) {w : WorkerId}
    {run : ToolRunRow} (hw : t.workers w = some run) :
    s.workers w = some run ∨
      (∃ locked, a = .claim w locked) ∧ get run.id t.rows = some run ∧
        ∃ q, get run.id s.rows = some q ∧ run.attempt = q.attempt + 1 := by
  cases Rule.of_step h with
  | tick | enqueue | heartbeat | reclaimExpired | failExhausted => exact .inl hw
  | claim v locked run' rows hv hclaim =>
    obtain ⟨q, hq, -, rfl, hget⟩ := claim_spec hclaim
    rcases eq_or_ne w v with rfl | hne
    · simp only [Function.update_self, Option.some.injEq] at hw
      subst hw
      exact .inr ⟨⟨locked, rfl⟩, by simp [hget, hq], q, by simpa using hq, rfl⟩
    · simp only [Function.update_of_ne hne] at hw
      exact .inl hw
  | report v run' result hv | abandon v run' hv => exact .inl (of_released hw).2

/-! ### Attempts are held apart -/

/-- The row of a run that a worker holds is there, and no two workers hold one attempt. -/
structure HeldApart (s : Farm) : Prop where
  attempt_le : ∀ w run, s.workers w = some run →
    ∃ r, get run.id s.rows = some r ∧ run.attempt ≤ r.attempt
  unique : ∀ w w' run run', s.workers w = some run → s.workers w' = some run' →
    run.id = run'.id → run.attempt = run'.attempt → w = w'

lemma heldApart_init : HeldApart .init := by
  constructor
  · intro w run h
    simp [Farm.init] at h
  · intro w w' run run' h
    simp [Farm.init] at h

lemma Inv.heldApart {s : Farm} (hs : Inv s) : HeldApart s := ⟨hs.attempt_le, hs.unique⟩

/-- A run that has just been claimed has an attempt of its own. -/
lemma HeldApart.attempt_ne_of_claim {s : Farm} (hs : HeldApart s) {w : WorkerId}
    {run run' q : ToolRunRow} (hw : s.workers w = some run) (hq : get run'.id s.rows = some q)
    (hrun' : run'.attempt = q.attempt + 1) (hid : run.id = run'.id) :
    run.attempt ≠ run'.attempt := by
  obtain ⟨r, hr, hle⟩ := hs.attempt_le w run hw
  rw [hid, hq] at hr
  obtain rfl := Option.some.inj hr
  omega

lemma heldApart_step {s t : Farm} {a : Action} (hs : HeldApart s) (h : s.step a = some t) :
    HeldApart t := by
  constructor
  · intro w run hw
    rcases workers_step h hw with hold | ⟨-, hnew, -⟩
    · obtain ⟨r, hr, hle⟩ := hs.attempt_le w run hold
      obtain ⟨r', hr', hle'⟩ := attempt_mono h hr
      exact ⟨r', hr', hle.trans hle'⟩
    · exact ⟨run, hnew, le_rfl⟩
  · intro w w' run run' hw hw' hid hat
    rcases workers_step h hw with hold | ⟨⟨locked, ha⟩, -, q, hq, hrun⟩ <;>
      rcases workers_step h hw' with hold' | ⟨⟨locked', ha'⟩, -, q', hq', hrun'⟩
    · exact hs.unique w w' run run' hold hold' hid hat
    · exact absurd hat (hs.attempt_ne_of_claim hold hq' hrun' hid)
    · exact absurd hat.symm (hs.attempt_ne_of_claim hold' hq hrun hid.symm)
    · rw [ha] at ha'
      cases ha'
      rfl

/-! ### What is recorded -/

lemma Inv.recorded_step {s t : Farm} {a : Action} (hs : Inv s) (hC : ReportsInTime s a)
    (h : s.step a = some t) (id : Uuid) (r : ToolRunRow) (hr : get id t.rows = some r)
    (hst : r.status = .completed) : ∃ w, t.recordedBy id = some (w, r.attempt) := by
  cases Rule.of_step h with
  | tick | abandon => exact hs.recorded id r hr hst
  | enqueue id' req rows hrows =>
    rw [get_enqueue hrows] at hr
    split_ifs at hr
    · obtain rfl := Option.some.inj hr
      simp [EnqueueRequest.row] at hst
    · exact hs.recorded id r hr hst
  | claim w locked run rows hw hclaim =>
    obtain ⟨q, -, -, -, hget⟩ := claim_spec hclaim
    rw [hget] at hr
    obtain ⟨r₀, hr₀, rfl⟩ := Option.map_eq_some_iff.mp hr
    split_ifs at hst ⊢
    · simp [markClaimed] at hst
    · exact hs.recorded id r₀ hr₀ hst
  | heartbeat w run hw =>
    rw [get_heartbeat] at hr
    obtain ⟨r₀, hr₀, rfl⟩ := Option.map_eq_some_iff.mp hr
    split_ifs at hst ⊢ <;> exact hs.recorded id r₀ hr₀ hst
  | report w run result hw =>
    obtain ⟨f, hf, hget⟩ := get_report s.now run result s.rows id
    rw [hget] at hr
    obtain ⟨r₀, hr₀, rfl⟩ := Option.map_eq_some_iff.mp hr
    by_cases hid : r₀.id = run.id
    · -- the row now carries the output of this worker, for the attempt that it holds
      obtain ⟨q, hq, -, hat⟩ := hs.holds_of_report hw hC
      rw [← hid, id_of_get hr₀, hr₀] at hq
      obtain rfl := Option.some.inj hq
      rw [if_pos hid, (hf r₀).2.2] at hst
      split_ifs at hst with hok
      obtain rfl : run.id = id := hid.symm.trans (id_of_get hr₀)
      exact ⟨w, by simp [hid, hok, (hf r₀).2.1, hat]⟩
    · have hne : id ≠ run.id := fun heq => hid ((id_of_get hr₀).trans heq)
      rw [if_neg hid] at hst ⊢
      obtain ⟨v, hv⟩ := hs.recorded id r₀ hr₀ hst
      refine ⟨v, ?_⟩
      simp only
      split_ifs
      · rw [Function.update_of_ne hne, hv]
      · exact hv
  | reclaimExpired =>
    rw [get_reclaimExpired] at hr
    obtain ⟨r₀, hr₀, rfl⟩ := Option.map_eq_some_iff.mp hr
    split_ifs at hst ⊢
    · simp [requeue] at hst
    · exact hs.recorded id r₀ hr₀ hst
  | failExhausted =>
    rw [get_failExhausted] at hr
    obtain ⟨r₀, hr₀, rfl⟩ := Option.map_eq_some_iff.mp hr
    split_ifs at hst ⊢
    · simp [markExhausted] at hst
    · exact hs.recorded id r₀ hr₀ hst

lemma inv_step {s t : Farm} {a : Action} (hs : Inv s) (hC : ReportsInTime s a)
    (h : s.step a = some t) : Inv t :=
  have hapart : HeldApart t := heldApart_step hs.heldApart h
  ⟨hs.current_step hC h, hapart.attempt_le, hapart.unique, hs.recorded_step hC h⟩

/-! ### Final outcomes -/

/-- Runs that have their outcome in `s` have the same outcome in `t`. -/
def KeepsOutcomes (s t : Farm) : Prop :=
  ∀ id r, get id s.rows = some r → r.status.IsFinal →
    ∃ r', get id t.rows = some r' ∧ r'.outcome = r.outcome

lemma status_of_outcome {r r' : ToolRunRow} (h : r'.outcome = r.outcome) :
    r'.status = r.status := (Prod.mk.inj h).1

lemma KeepsOutcomes.refl (s : Farm) : KeepsOutcomes s s := fun _ r hr _ => ⟨r, hr, rfl⟩

lemma KeepsOutcomes.trans {s t u : Farm} (h : KeepsOutcomes s t) (h' : KeepsOutcomes t u) :
    KeepsOutcomes s u := by
  intro id r hr hfin
  obtain ⟨r', hr', heq⟩ := h id r hr hfin
  obtain ⟨r'', hr'', heq'⟩ := h' id r' hr' (status_of_outcome heq ▸ hfin)
  exact ⟨r'', hr'', heq'.trans heq⟩

lemma not_isFinal_running : ¬ RunStatus.running.IsFinal := id

lemma not_isFinal_of_leaseExpired {now : ℤ} {r : ToolRunRow} (h : leaseExpired now r) :
    ¬ r.status.IsFinal := by
  rw [running_of_leaseExpired h]
  exact not_isFinal_running

lemma keepsOutcomes_step {s t : Farm} {a : Action} (hs : Inv s) (hC : ReportsInTime s a)
    (h : s.step a = some t) : KeepsOutcomes s t := by
  intro id r hr hfin
  obtain ⟨r', hr', hrule⟩ := row_step h hr
  refine ⟨r', hr', ?_⟩
  cases hrule with
  | same | extended => rfl
  | claimed hqueued => simp [hqueued, RunStatus.IsFinal] at hfin
  | reported w run result ha hw hid =>
    -- the report finds its row running, hence not final
    obtain ⟨q, hq, hrun, -⟩ := hs.holds_of_report hw (ha ▸ hC)
    rw [hid, id_of_get hr, hr] at hq
    obtain rfl := Option.some.inj hq
    exact absurd (hrun ▸ hfin) not_isFinal_running
  | requeued ha hp => exact absurd hfin (not_isFinal_of_leaseExpired (reclaimable_iff.mp hp).1)
  | exhausted ha hp => exact absurd hfin (not_isFinal_of_leaseExpired (exhausted_iff.mp hp).1)

/-! ### Fenced runs -/

/-- The fencing property of a run of the farm: at every point of it,
outcomes recorded so far stay as they are until its end, a recorded output is the one of the
current attempt, and whoever reports next holds the current attempt of a row that is running. -/
def Fenced (as : List Action) : Prop :=
  ∀ as₁ as₂ s t, as = as₁ ++ as₂ → exec Farm.step .init as₁ = some s →
    exec Farm.step s as₂ = some t →
      KeepsOutcomes s t ∧
      (∀ id r, get id s.rows = some r → r.status = .completed →
        ∃ w, s.recordedBy id = some (w, r.attempt)) ∧
      ∀ w result rest run, as₂ = .report w result :: rest → s.workers w = some run →
        HoldsAttempt s.rows run

lemma fenced_of_reportsInTime {as : List Action}
    (hC : Along Farm.step ReportsInTime .init as) : Fenced as := by
  rintro as₁ as₂ s t rfl hs ht
  have hinv : Inv s := exec_invariant (fun _ _ _ => inv_step) inv_init hC.append_left hs
  have hC₂ : Along Farm.step ReportsInTime s as₂ := hC.append_right hs
  refine ⟨?_, hinv.recorded, ?_⟩
  · exact exec_related KeepsOutcomes.refl KeepsOutcomes.trans (fun _ _ _ => inv_step)
      (fun _ _ _ => keepsOutcomes_step) hinv hC₂ ht
  · rintro w result rest run rfl hw
    exact hinv.holds_of_report hw hC₂.1

/-- A report that comes too late does not find the row running under its attempt. -/
lemma not_holdsAttempt_of_reaped {s : Farm} (hs : TakenIsOver s) {run : ToolRunRow}
    (h : (run.id, run.attempt) ∈ s.reaped) : ¬ HoldsAttempt s.rows run := by
  rintro ⟨r, hr, hst, hat⟩
  obtain ⟨r', hr', -, hover⟩ := hs _ _ h
  rw [hr] at hr'
  obtain rfl := Option.some.inj hr'
  exact hover hat hst

lemma reportsInTime_of_fenced_aux (as₁ : List Action) {as₂ : List Action} {s t : Farm}
    (hs : exec Farm.step .init as₁ = some s) (ht : exec Farm.step s as₂ = some t)
    (h : Fenced (as₁ ++ as₂)) : Along Farm.step ReportsInTime s as₂ := by
  induction as₂ generalizing as₁ s with
  | nil => trivial
  | cons a as ih =>
    have htaken : TakenIsOver s :=
      exec_preserves (fun _ _ _ => takenIsOver_step) takenIsOver_init hs
    constructor
    · cases a with
      | report w result =>
        intro run hw hmem
        exact not_holdsAttempt_of_reaped htaken hmem
          ((h as₁ _ s t rfl hs ht).2.2 w result as run rfl hw)
      | _ => trivial
    · intro u hu
      have hs' : exec Farm.step .init (as₁ ++ [a]) = some u := by
        simp [exec_append, hs, hu]
      refine ih (as₁ ++ [a]) hs' ?_ (by simpa using h)
      simpa [hu] using ht

/-- A run of the farm is fenced exactly when no worker reports a run that a reaper pass has
taken from it. -/
theorem fenced_iff_reportsInTime {as : List Action} {t : Farm}
    (ht : exec Farm.step .init as = some t) :
    Fenced as ↔ Along Farm.step ReportsInTime .init as :=
  ⟨reportsInTime_of_fenced_aux [] rfl ht, fenced_of_reportsInTime⟩

/-! ### A late report -/

def textResult (s : String) : Except ToolError ToolResult := .ok ⟨.inlineJson, .str s, none, none⟩

/-- Worker 0 stalls past its lease, the reaper requeues the run, worker 1 runs it again and
completes it, and then worker 0 completes it once more. -/
def lateReport : List Action :=
  [.enqueue 7 fileInfoRequest, .claim 0 [], .tick 121, .reclaimExpired, .claim 1 [],
   .report 1 (textResult "second"), .report 0 (textResult "first")]

/-- The same interleaving, where the stalled worker never comes back. -/
def abandonedReport : List Action :=
  [.enqueue 7 fileInfoRequest, .claim 0 [], .tick 121, .reclaimExpired, .claim 1 [],
   .report 1 (textResult "second"), .abandon 0]

theorem fenced_iff_reportsInTime_abandoned :
    Fenced abandonedReport ↔ Along Farm.step ReportsInTime .init abandonedReport :=
  fenced_iff_reportsInTime (t := (exec Farm.step .init abandonedReport).get (by decide))
    (by simp)

/-- The row `id` at the end of a run. -/
def rowAfter (as : List Action) (id : Uuid) : Option ToolRunRow :=
  (exec Farm.step .init as).bind fun s => get id s.rows

lemma get_of_exec {as : List Action} {s : Farm} (hs : exec Farm.step .init as = some s)
    (id : Uuid) : get id s.rows = rowAfter as id := by simp [rowAfter, hs]

/-- The output of a completed run is overwritten by a worker whose lease was reclaimed. -/
theorem not_fenced_lateReport : ¬ Fenced lateReport := by
  intro h
  obtain ⟨t, ht⟩ := Option.isSome_iff_exists.mp
    (show (exec Farm.step .init lateReport).isSome by decide)
  obtain ⟨s, hs, hst⟩ := exec_split (show exec Farm.step .init
    (lateReport.take 6 ++ lateReport.drop 6) = some t from ht)
  obtain ⟨r, hr⟩ := Option.isSome_iff_exists.mp
    (show (rowAfter (lateReport.take 6) 7).isSome by decide)
  have hout : (rowAfter (lateReport.take 6) 7).map (·.output_json) = some (some (.str "second")) ∧
      (rowAfter (lateReport.take 6) 7).map (·.status) = some .completed ∧
      (rowAfter lateReport 7).map (·.output_json) = some (some (.str "first")) := by decide
  rw [hr] at hout
  simp only [Option.map_some, Option.some.injEq] at hout
  obtain ⟨r', hr', heq⟩ := (h _ _ s t rfl hs hst).1 7 r ((get_of_exec hs 7).trans hr)
    (by simp [hout.2.1, RunStatus.IsFinal])
  rw [get_of_exec ht] at hr'
  simp only [ToolRunRow.outcome, Prod.mk.injEq] at heq
  simp [hr', heq.2.1, hout.1] at hout

end Arbeiterfarm.Jobs
