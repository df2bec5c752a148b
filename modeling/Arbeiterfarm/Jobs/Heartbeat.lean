import Arbeiterfarm.Jobs.Fencing

/-!
# Heartbeats

A worker learns from its heartbeat that it has lost its run: `execute_claimed` aborts the tool
when the call fails. The statement selects the row by its id alone and the call drops the number
of rows that it changed, so it fails only when the database does. A run of the farm is fenced
against late heartbeats exactly when no worker sends one after it has lost its run or after the
run has its outcome.
-/

namespace Arbeiterfarm.Jobs

open Foundation

/-! ### The call -/

/-- What the database reports for a statement: the number of rows it changed. -/
abbrev Executed := Except String ℕ

/-- `UPDATE tool_runs SET lease_expires = … WHERE id = $1`, executed; `down` is the error of a
database that cannot execute it. -/
def executeHeartbeat (down : Option String) (now lease : ℤ) (id : Uuid) (t : ToolRuns) :
    Executed × ToolRuns :=
  match down with
  | some e => (.error e, t)
  | none => (.ok (t.rows.countP (·.id = id)), heartbeat now lease id t)

/-- The call that the heartbeat task makes; the number of rows is dropped. -/
def heartbeatCall (down : Option String) (now lease : ℤ) (id : Uuid) (t : ToolRuns) :
    Except String Unit × ToolRuns :=
  let (executed, t') := executeHeartbeat down now lease id t
  (executed.map fun _ => (), t')

/-- The call fails only with the database, whatever it finds in the table. -/
lemma heartbeatCall_isOk (down : Option String) (now lease : ℤ) (id : Uuid) (t : ToolRuns) :
    (heartbeatCall down now lease id t).1.isOk ↔ down = none := by
  cases down with
  | some e => simp [heartbeatCall, executeHeartbeat, Except.map, Except.isOk, Except.toBool]
  | none => simp [heartbeatCall, executeHeartbeat, Except.map, Except.isOk, Except.toBool]

/-! ### Who holds what -/

/-- A run that the reaper has not taken from its worker is in the attempt that was claimed; it
may have its outcome already, from a late report. -/
def HoldsUnlessReaped (s : Farm) : Prop :=
  ∀ w run, s.workers w = some run → (run.id, run.attempt) ∈ s.reaped ∨
    ∃ r, get run.id s.rows = some r ∧ r.attempt = run.attempt ∧
      (r.status = .running ∨ r.status.IsFinal)

lemma holdsUnlessReaped_init : HoldsUnlessReaped .init := by
  intro w run h
  simp [Farm.init] at h

/-- The reaper forgets no pair. -/
lemma reaped_mono {s t : Farm} {a : Action} (h : s.step a = some t) {p : Uuid × ℕ}
    (hp : p ∈ s.reaped) : p ∈ t.reaped := by
  cases Rule.of_step h with
  | reclaimExpired | failExhausted => exact List.mem_append_left _ hp
  | _ => exact hp

lemma isFinal_reportRow (now : ℤ) (result : Except ToolError ToolResult) (r : ToolRunRow) :
    (reportRow now result r).status.IsFinal := by
  rw [reportRow_status]
  split_ifs <;> trivial

lemma holdsUnlessReaped_step {s t : Farm} {a : Action} (hs : HoldsUnlessReaped s)
    (h : s.step a = some t) : HoldsUnlessReaped t := by
  intro w run hw
  rcases workers_step h hw with hold | ⟨⟨locked, rfl⟩, hget, -⟩
  · rcases hs w run hold with hreaped | ⟨r, hr, hat, hst⟩
    · exact .inl (reaped_mono h hreaped)
    · obtain ⟨r', hr', hrule⟩ := row_step h hr
      have hid : r.id = run.id := id_of_get hr
      cases hrule with
      | same => exact .inr ⟨r, hr', hat, hst⟩
      | claimed hqueued =>
        rw [hqueued] at hst
        exact absurd hst (by simp [RunStatus.IsFinal])
      | extended => exact .inr ⟨_, hr', hat, hst⟩
      | reported w' run' result =>
        exact .inr ⟨_, hr', by simpa using hat, .inr (isFinal_reportRow ..)⟩
      | requeued ha hp =>
        -- the pass that requeues the row takes the attempt from its worker
        subst ha
        obtain rfl := Option.some.inj h
        exact .inl (List.mem_append_right _ (mem_taken.mpr ⟨r, hr, hp, hat⟩))
      | exhausted => exact .inr ⟨_, hr', hat, .inr trivial⟩
  · cases Rule.of_step h with
    | claim _ _ run' rows hv hclaim =>
      obtain ⟨q, -, -, rfl, -⟩ := claim_spec hclaim
      simp only [Function.update_self, Option.some.injEq] at hw
      subst hw
      exact .inr ⟨_, hget, rfl, .inl rfl⟩

/-! ### Fenced heartbeats -/

/-- A worker sends a heartbeat only for a run that no reaper pass has taken from it and that has
no outcome yet. -/
def HeartbeatsInTime (s : Farm) : Action → Prop
  | .heartbeat w => ∀ run, s.workers w = some run → (run.id, run.attempt) ∉ s.reaped ∧
      ∀ r, get run.id s.rows = some r → ¬ r.status.IsFinal
  | _ => True

/-- A heartbeat for a run that is not running under its sender reports failure and changes
nothing. -/
def HeartbeatFenced (s : Farm) (w : WorkerId) : Prop :=
  ∀ run, s.workers w = some run → ¬ HoldsAttempt s.rows run →
    (¬ (heartbeatCall none s.now leaseDurationSecs run.id s.rows).1.isOk) ∧
      (heartbeatCall none s.now leaseDurationSecs run.id s.rows).2 = s.rows

/-- Every heartbeat of the run is fenced. -/
def HeartbeatsFenced (s : Farm) (as : List Action) : Prop :=
  ∀ as₁ w as₂ t, as = as₁ ++ .heartbeat w :: as₂ → exec Farm.step s as₁ = some t →
    HeartbeatFenced t w

/-- What the claim of a run leaves to a heartbeat in time is the attempt itself. -/
lemma holdsAttempt_iff {s : Farm} (htaken : TakenIsOver s) (hs : HoldsUnlessReaped s)
    {w : WorkerId} {run : ToolRunRow} (hw : s.workers w = some run) :
    HoldsAttempt s.rows run ↔ (run.id, run.attempt) ∉ s.reaped ∧
      ∀ r, get run.id s.rows = some r → ¬ r.status.IsFinal := by
  constructor
  · intro hold
    refine ⟨?_, ?_⟩
    · intro hreaped
      exact not_holdsAttempt_of_reaped htaken hreaped hold
    · obtain ⟨r, hr, hst, -⟩ := hold
      intro r' hr' hfin
      rw [hr] at hr'
      obtain rfl := Option.some.inj hr'
      rw [hst] at hfin
      exact not_isFinal_running hfin
  · rintro ⟨hreaped, hfin⟩
    obtain ⟨r, hr, hat, hst⟩ := (hs w run hw).resolve_left hreaped
    exact ⟨r, hr, hst.resolve_right (hfin r hr), hat⟩

/-- A single heartbeat is fenced exactly when its sender still holds the run. -/
lemma heartbeatFenced_iff {s : Farm} (htaken : TakenIsOver s) (hs : HoldsUnlessReaped s)
    (w : WorkerId) : HeartbeatFenced s w ↔ HeartbeatsInTime s (.heartbeat w) := by
  constructor
  · intro h run hw
    rw [← holdsAttempt_iff htaken hs hw]
    by_contra hlost
    exact (h run hw hlost).1 ((heartbeatCall_isOk ..).mpr rfl)
  · intro h run hw hlost
    exact absurd ((holdsAttempt_iff htaken hs hw).mpr (h run hw)) hlost

lemma heartbeatsFenced_cons {s t : Farm} {a : Action} {as : List Action}
    (ht : s.step a = some t) : HeartbeatsFenced s (a :: as) ↔
      (∀ w, a = .heartbeat w → HeartbeatFenced s w) ∧ HeartbeatsFenced t as := by
  constructor
  · intro h
    constructor
    · rintro w rfl
      exact h [] w as s rfl rfl
    · rintro as₁ w as₂ u rfl hu
      exact h (a :: as₁) w as₂ u rfl (by simp [ht, hu])
  · rintro ⟨hhead, htail⟩ as₁ w as₂ u heq hu
    cases as₁ with
    | nil =>
      obtain ⟨rfl, rfl⟩ := List.cons.inj heq
      obtain rfl := Option.some.inj hu
      exact hhead w rfl
    | cons b bs =>
      obtain ⟨rfl, rfl⟩ := List.cons.inj heq
      rw [exec_cons, ht] at hu
      exact htail bs w as₂ u rfl hu

lemma heartbeatsFenced_iff_aux {as : List Action} {s t : Farm} (htaken : TakenIsOver s)
    (hs : HoldsUnlessReaped s) (ht : exec Farm.step s as = some t) :
    HeartbeatsFenced s as ↔ Along Farm.step HeartbeatsInTime s as := by
  induction as generalizing s with
  | nil =>
    refine ⟨fun _ => trivial, ?_⟩
    rintro - as₁ w as₂ u heq -
    cases as₁ <;> cases heq
  | cons a as ih =>
    obtain ⟨u, hu, hut⟩ := Option.bind_eq_some_iff.mp ht
    have hhead : (∀ w, a = .heartbeat w → HeartbeatFenced s w) ↔ HeartbeatsInTime s a := by
      cases a with
      | heartbeat w => simpa using heartbeatFenced_iff htaken hs w
      | _ => simp [HeartbeatsInTime]
    have htail := ih (takenIsOver_step htaken hu) (holdsUnlessReaped_step hs hu) hut
    rw [heartbeatsFenced_cons hu, hhead, htail, along_cons]
    simp [hu]

/-- The heartbeats of a run of the farm are fenced exactly when no worker sends one for a run
that a reaper pass has taken from it or that has its outcome. -/
theorem heartbeatsFenced_iff {as : List Action} {t : Farm}
    (ht : exec Farm.step .init as = some t) :
    HeartbeatsFenced .init as ↔ Along Farm.step HeartbeatsInTime .init as :=
  heartbeatsFenced_iff_aux takenIsOver_init holdsUnlessReaped_init ht

/-! ### A late heartbeat -/

/-- Worker 0 stalls past its lease, the reaper requeues its run, and the next heartbeat of
worker 0 succeeds and puts a lease on the queued row. -/
def lateHeartbeat : List Action :=
  [.enqueue 7 fileInfoRequest, .claim 0 [], .tick 121, .reclaimExpired, .heartbeat 0]

/-- The same start, where the heartbeat comes before the lease is over. -/
def heartbeatInTime : List Action :=
  [.enqueue 7 fileInfoRequest, .claim 0 [], .tick 30, .heartbeat 0, .reclaimExpired]

theorem heartbeatsFenced_iff_inTime : HeartbeatsFenced .init heartbeatInTime ↔
    Along Farm.step HeartbeatsInTime .init heartbeatInTime := by
  obtain ⟨t, ht⟩ : ∃ t, exec Farm.step .init heartbeatInTime = some t := ⟨_, rfl⟩
  exact heartbeatsFenced_iff ht

/-- The worker that has lost its run is not told so, and the row of the run changes. -/
theorem not_heartbeatsFenced_late : ¬ HeartbeatsFenced .init lateHeartbeat ∧
    (rowAfter (lateHeartbeat.take 4) 7).map (fun r => (r.status, r.lease_expires)) =
      some (.queued, none) ∧
    (rowAfter lateHeartbeat 7).map (fun r => (r.status, r.lease_expires)) =
      some (.queued, some 241) := by
  refine ⟨?_, by decide, by decide⟩
  intro h
  obtain ⟨s, hs⟩ : ∃ s, exec Farm.step .init (lateHeartbeat.take 4) = some s := ⟨_, rfl⟩
  have hworker :
      s.workers 0 = some (markClaimed 0 leaseDurationSecs (fileInfoRequest.row 0 7)) := by
    obtain rfl := Option.some.inj hs
    rfl
  have hrow : (get 7 s.rows).map (·.status) = some .queued := by
    rw [get_of_exec hs]
    decide
  refine (h (lateHeartbeat.take 4) 0 [] s rfl hs _ hworker ?_).1 ((heartbeatCall_isOk ..).mpr rfl)
  rintro ⟨r, hr, hst, -⟩
  have hid : (markClaimed 0 leaseDurationSecs (fileInfoRequest.row 0 7)).id = 7 := rfl
  rw [hid] at hr
  simp [hr, hst] at hrow

end Arbeiterfarm.Jobs
