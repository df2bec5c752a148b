import Arbeiterfarm.Jobs.RunOutputs

/-!
# Invocations

`invoke` enqueues a run and polls its row until it is completed or failed. It gives up when the
deadline has passed at the beginning of a turn of its loop, and when a query fails. Workers, the
reaper and other invokers act between any two of its statements; the worker that an invocation
starts is one of the workers of the farm.

A run that cannot be enqueued is not an invocation here: there is no row to agree with.
-/

namespace Arbeiterfarm.Jobs

open Foundation

abbrev InvocationId := ℕ

def invokeTimeoutSecs : ℤ := 300

/-- What `invoke` returns for a completed run. -/
structure InvokeResult where
  result : ToolResult
  produced_artifacts : List Uuid
  deriving DecidableEq, Repr

/-! ### What a row is read as -/

def parseOutputKind : Option String → ToolOutputKind
  | some "inline_json" => .inlineJson
  | some "json_artifact" => .jsonArtifact
  | some "text" => .text
  | some "binary" => .binary
  | some "mixed" => .mixed
  | _ => .inlineJson

@[simp] lemma parseOutputKind_column (k : ToolOutputKind) :
    parseOutputKind (some k.column) = k := by
  cases k <;> rfl

/-- A `ToolError` from a JSON value: an object with its fields, or an array of their values. -/
def ToolError.ofJson : Json → Option ToolError
  | .arr [.str code, .str message, .bool retryable, details] =>
    some ⟨code, message, retryable, details⟩
  | v =>
    match v.strField "code", v.strField "message", (v.get "retryable").bind Json.asBool,
        v.get "details" with
    | some code, some message, some retryable, some details =>
      some ⟨code, message, retryable, details⟩
    | _, _, _, _ => none

@[simp] lemma ToolError.ofJson_toJson (e : ToolError) : ToolError.ofJson e.toJson = some e := rfl

/-- The result that is read from a completed row. -/
def completedResult (row : ToolRunRow) : ToolResult where
  kind := parseOutputKind row.output_kind
  output_json := row.output_json.getD .null
  stdout := row.stdout
  stderr := row.stderr

/-- The error that is read from a failed row. -/
def failedError (row : ToolRunRow) : ToolError :=
  (row.error_json.bind ToolError.ofJson).getD ⟨"unknown", "tool run failed", false, .null⟩

/-! ### Invocations -/

/-- Where an invocation stands. -/
inductive InvokePhase where
  | enqueued
  /-- At the beginning of a turn of the loop. -/
  | polling (start : ℤ)
  /-- Before the query. -/
  | sleeping (start : ℤ)
  /-- Before the artifacts of the completed run are read. -/
  | collecting (result : ToolResult)
  | returned (response : Except ToolError InvokeResult)
  deriving DecidableEq

structure Invocation where
  id : InvocationId
  run_id : Uuid
  phase : InvokePhase
  deriving DecidableEq

structure InvokeFarm where
  outputs : OutputFarm
  invocations : Table Invocation.id

def InvokeFarm.init : InvokeFarm := ⟨.init, .empty _⟩

inductive InvokeAction where
  | work (a : OutputAction)
  | invoke (i : InvocationId) (run_id : Uuid) (req : EnqueueRequest) (input_ids : List Uuid)
  | start (i : InvocationId)
  | checkDeadline (i : InvocationId)
  /-- `error` is the message of the database if the query fails. -/
  | poll (i : InvocationId) (error : Option String)
  | collect (i : InvocationId) (answered : Bool)

def timedOut : ToolError := ⟨"timeout", "tool run timed out waiting for completion", true, .null⟩

def dbError (message : String) : ToolError := ⟨"db_error", message, true, .null⟩

def notFound (showUuid : Uuid → String) (run_id : Uuid) : ToolError :=
  ⟨"not_found", "tool run " ++ showUuid run_id ++ " not found", false, .null⟩

/-- The end of a turn of the loop, after a row has been read. -/
def InvokePhase.ofRow (start : ℤ) (row : ToolRunRow) : InvokePhase :=
  match row.status with
  | .completed => .collecting (completedResult row)
  | .failed => .returned (.error (failedError row))
  | _ => .polling start

section

variable (showUuid : Uuid → String)

/-- The next phase of an invocation; `none` if the action is not its next. -/
def Invocation.advance (s : OutputFarm) (v : Invocation) : InvokeAction → Option InvokePhase
  | .start _ =>
    match v.phase with
    | .enqueued => some (.polling s.farm.now)
    | _ => none
  | .checkDeadline _ =>
    match v.phase with
    | .polling start =>
      some (if invokeTimeoutSecs < s.farm.now - start then .returned (.error timedOut)
        else .sleeping start)
    | _ => none
  | .poll _ error =>
    match v.phase with
    | .sleeping start =>
      match error, get v.run_id s.farm.rows with
      | some message, _ => some (.returned (.error (dbError message)))
      | none, none => some (.returned (.error (notFound showUuid v.run_id)))
      | none, some row => some (.ofRow start row)
    | _ => none
  | .collect _ answered =>
    match v.phase with
    | .collecting result =>
      some (.returned (.ok
        ⟨result, if answered then producedArtifacts s.links v.run_id else []⟩))
    | _ => none
  | _ => none

/-- The invocation that an action belongs to. -/
def InvokeAction.invocation : InvokeAction → Option InvocationId
  | .start i | .checkDeadline i | .poll i _ | .collect i _ => some i
  | _ => none

/-- The invocation `i` moves on. -/
def InvokeFarm.setPhase (s : InvokeFarm) (i : InvocationId) (phase : InvokePhase) : InvokeFarm :=
  { s with
    invocations := s.invocations.update (·.id = i) (fun v => { v with phase := phase })
      (fun _ => rfl) }

def InvokeFarm.step (s : InvokeFarm) : InvokeAction → Option InvokeFarm
  | .work a => (s.outputs.step a).map fun outputs => { s with outputs := outputs }
  | .invoke i run_id req input_ids =>
    (s.outputs.step (.enqueue run_id req input_ids)).bind fun outputs =>
      (s.invocations.insert ⟨i, run_id, .enqueued⟩).map fun invocations =>
        ⟨outputs, invocations⟩
  | a =>
    a.invocation.bind fun i =>
      (s.invocations.lookup i).bind fun v =>
        (v.advance showUuid s.outputs a).map (s.setPhase i)

end

/-! ### What is returned and what is recorded -/

/-- The row has the response as its outcome. -/
def Records (row : ToolRunRow) : Except ToolError ToolResult → Prop
  | .ok r => row.status = .completed ∧ row.output_json = some r.output_json ∧
      row.output_kind = some r.kind.column ∧ row.stdout = r.stdout ∧ row.stderr = r.stderr
  | .error e => row.status = .failed ∧ row.error_json = some e.toJson

/-- What an invocation has returned is the outcome that its run has. -/
def ReturnsRecorded (s : InvokeFarm) : Prop :=
  ∀ v ∈ s.invocations.rows, ∀ response, v.phase = .returned response →
    ∃ row, get v.run_id s.outputs.farm.rows = some row ∧
      Records row (response.map (·.result))

/-- What an invocation has learned of the outcome of its run. -/
def Invocation.answer (v : Invocation) : Option (Except ToolError ToolResult) :=
  match v.phase with
  | .collecting result => some (.ok result)
  | .returned response => some (response.map (·.result))
  | _ => none

def Invocation.started (v : Invocation) : Option ℤ :=
  match v.phase with
  | .polling start | .sleeping start => some start
  | _ => none

/-- A report on a run whose outcome an invocation has learned repeats that outcome. -/
def RepeatsAnswers (s : InvokeFarm) : Option Action → Prop
  | some (.report w result) => ∀ run ∈ s.outputs.farm.workers w, ∀ v ∈ s.invocations.rows,
      v.run_id = run.id → ∀ answer ∈ v.answer, result = answer
  | _ => True

/-- Every check of the deadline is in time, every poll is answered, and no worker changes an outcome
that an invocation has learned. -/
def AnsweredInTime (s : InvokeFarm) : InvokeAction → Prop
  | .work a => RepeatsAnswers s a.farmAction
  | .checkDeadline i => ∀ v ∈ s.invocations.rows, v.id = i → ∀ start ∈ v.started,
      s.outputs.farm.now - start ≤ invokeTimeoutSecs
  | .poll _ error => error = none
  | _ => True

instance (s : InvokeFarm) : ∀ a, Decidable (RepeatsAnswers s a)
  | some (.report w result) => inferInstanceAs (Decidable (∀ run ∈ s.outputs.farm.workers w,
      ∀ v ∈ s.invocations.rows, v.run_id = run.id → ∀ answer ∈ v.answer, result = answer))
  | none | some (.tick _) | some (.enqueue ..) | some (.claim ..) | some (.heartbeat _)
  | some (.abandon _) | some .reclaimExpired | some .failExhausted => isTrue trivial

instance (s : InvokeFarm) : ∀ a, Decidable (AnsweredInTime s a)
  | .work a => inferInstanceAs (Decidable (RepeatsAnswers s a.farmAction))
  | .checkDeadline i => inferInstanceAs (Decidable (∀ v ∈ s.invocations.rows, v.id = i →
      ∀ start ∈ v.started, s.outputs.farm.now - start ≤ invokeTimeoutSecs))
  | .poll _ error => inferInstanceAs (Decidable (error = none))
  | .invoke .. | .start _ | .collect .. => isTrue trivial

/-! ### Outcomes of rows -/

lemma Records.isFinal {row : ToolRunRow} {v : Except ToolError ToolResult} (h : Records row v) :
    row.status.IsFinal := by
  cases v with
  | ok r => exact h.1 ▸ trivial
  | error e => exact h.1 ▸ trivial

lemma records_reportRow (now : ℤ) (result : Except ToolError ToolResult) (row : ToolRunRow) :
    Records (reportRow now result row) result := by
  cases result with
  | ok r => exact ⟨rfl, rfl, rfl, rfl, rfl⟩
  | error e => exact ⟨rfl, rfl⟩

lemma records_markExhausted (now : ℤ) (row : ToolRunRow) :
    Records (markExhausted now row) (.error ⟨"max_attempts_exceeded",
      "tool run exceeded maximum retry attempts", false, .null⟩) :=
  ⟨rfl, rfl⟩

/-- What is read from a completed row is the result that it records. -/
lemma Records.completed {row : ToolRunRow} {v : Except ToolError ToolResult} (h : Records row v)
    (hst : row.status = .completed) : v = .ok (completedResult row) := by
  cases v with
  | ok r =>
    obtain ⟨-, houtput, hkind, hstdout, hstderr⟩ := h
    rw [completedResult, houtput, hkind, hstdout, hstderr, parseOutputKind_column]
    rfl
  | error e =>
    rw [h.1] at hst
    cases hst

/-- What is read from a failed row is the error that it records. -/
lemma Records.failed {row : ToolRunRow} {v : Except ToolError ToolResult} (h : Records row v)
    (hst : row.status = .failed) : v = .error (failedError row) := by
  cases v with
  | ok r =>
    rw [h.1] at hst
    cases hst
  | error e => rw [failedError, h.2, Option.bind_some, ToolError.ofJson_toJson, Option.getD_some]

/-- A step keeps an outcome unless it reports another one on the run. -/
lemma Records.step {s t : Farm} {a : Action} {row row' : ToolRunRow}
    {v : Except ToolError ToolResult} (h : Records row v) (hrule : RowRule s a t row row')
    (hreport : ∀ w result run, a = .report w result → s.workers w = some run → run.id = row.id →
      result = v) : Records row' v := by
  cases hrule with
  | same => exact h
  | extended => cases v <;> exact h
  | claimed hqueued =>
    have hfinal := h.isFinal
    rw [hqueued] at hfinal
    cases hfinal
  | reported w run result ha hw hid =>
    obtain rfl := hreport w result run ha hw hid
    exact records_reportRow s.now result row
  | requeued ha hp => exact absurd h.isFinal (not_isFinal_of_leaseExpired (reclaimable_iff.mp hp).1)
  | exhausted ha hp => exact absurd h.isFinal (not_isFinal_of_leaseExpired (exhausted_iff.mp hp).1)

/-- A final row records an outcome that an invocation can read. -/
def OutcomesReadable (s : Farm) : Prop :=
  ∀ id row, get id s.rows = some row → row.status.IsFinal → ∃ v, Records row v

lemma outcomesReadable_step {s t : Farm} {a : Action} (hs : OutcomesReadable s)
    (h : s.step a = some t) : OutcomesReadable t := by
  intro id row' hrow' hfinal
  rcases row_of_step h hrow' with ⟨row, hrow, hrule⟩ | ⟨req, -, -, rfl⟩
  · cases hrule with
    | same => exact hs id _ hrow hfinal
    | extended =>
      obtain ⟨v, hv⟩ := hs id row hrow hfinal
      refine ⟨v, ?_⟩
      cases v <;> exact hv
    | reported w run result => exact ⟨result, records_reportRow s.now result row⟩
    | exhausted => exact ⟨_, records_markExhausted s.now row⟩
    | claimed | requeued => cases hfinal
  · cases hfinal

/-! ### Runs that are answered in time -/

/-- The row of the run records the answer. -/
def OutcomeOf (s : Farm) (run_id : Uuid) (answer : Except ToolError ToolResult) : Prop :=
  ∃ row, get run_id s.rows = some row ∧ Records row answer

structure InvokeInv (s : InvokeFarm) : Prop where
  outcomes : OutcomesReadable s.outputs.farm
  runs : ∀ v ∈ s.invocations.rows, ∃ row, get v.run_id s.outputs.farm.rows = some row
  answers : ∀ v ∈ s.invocations.rows, ∀ answer ∈ v.answer,
    OutcomeOf s.outputs.farm v.run_id answer

lemma invokeInv_init : InvokeInv .init := by
  refine ⟨?_, ?_, ?_⟩
  · intro id row h
    simp [InvokeFarm.init, OutputFarm.init, Farm.init, get] at h
  · intro v h
    cases h
  · intro v h
    cases h

/-- The work of the others keeps what the invocations have learned. -/
lemma InvokeInv.work {s : InvokeFarm} (hs : InvokeInv s) {outputs : OutputFarm} {a : OutputAction}
    (h : s.outputs.step a = some outputs) (hrepeats : RepeatsAnswers s a.farmAction) :
    InvokeInv { s with outputs := outputs } := by
  rcases OutputFarm.farm_step h with ⟨b, hb, hstep⟩ | ⟨-, hfarm⟩
  · refine ⟨outcomesReadable_step hs.outcomes hstep, ?_, ?_⟩
    · intro v hv
      obtain ⟨row, hrow⟩ := hs.runs v hv
      obtain ⟨row', hrow', -⟩ := row_step hstep hrow
      exact ⟨row', hrow'⟩
    · intro v hv answer hanswer
      obtain ⟨row, hrow, hrecords⟩ := hs.answers v hv answer hanswer
      obtain ⟨row', hrow', hrule⟩ := row_step hstep hrow
      refine ⟨row', hrow', hrecords.step hrule ?_⟩
      rintro w result run rfl hw hid
      rw [hb] at hrepeats
      exact hrepeats run hw v hv ((id_of_get hrow).symm.trans hid.symm) answer hanswer
  · refine ⟨?_, ?_, ?_⟩
    · simpa only [hfarm] using hs.outcomes
    · simpa only [hfarm] using hs.runs
    · simpa only [hfarm] using hs.answers

/-- An invocation that is answered in time learns nothing but the outcome of its run. -/
lemma answer_advance {showUuid : Uuid → String} {s : InvokeFarm} (hs : InvokeInv s)
    {a : InvokeAction} {v : Invocation} (hv : v ∈ s.invocations.rows)
    (ha : a.invocation = some v.id) (hC : AnsweredInTime s a) {phase : InvokePhase}
    (h : v.advance showUuid s.outputs a = some phase) {answer : Except ToolError ToolResult}
    (hanswer : answer ∈ ({ v with phase := phase } : Invocation).answer) :
    OutcomeOf s.outputs.farm v.run_id answer := by
  cases a with
  | work | invoke => cases ha
  | start i =>
    simp only [Invocation.advance] at h
    split at h
    · obtain rfl := Option.some.inj h
      cases hanswer
    · cases h
  | checkDeadline i =>
    simp only [Invocation.advance] at h
    split at h
    · rename_i start hphase
      obtain rfl := Option.some.inj h
      have hle : s.outputs.farm.now - start ≤ invokeTimeoutSecs :=
        hC v hv (Option.some.inj ha).symm start (by simp [Invocation.started, hphase])
      rw [if_neg hle.not_gt] at hanswer
      cases hanswer
    · cases h
  | poll i error =>
    obtain rfl : error = none := hC
    obtain ⟨row, hrow⟩ := hs.runs v hv
    simp only [Invocation.advance, hrow] at h
    split at h
    · rename_i start hphase
      obtain rfl := Option.some.inj h
      refine ⟨row, hrow, ?_⟩
      simp only [InvokePhase.ofRow] at hanswer
      split at hanswer
      · rename_i hst
        obtain ⟨w, hw⟩ := hs.outcomes _ row hrow (by rw [hst]; trivial)
        obtain rfl := Option.some.inj hanswer
        obtain rfl := hw.completed hst
        exact hw
      · rename_i hst
        obtain ⟨w, hw⟩ := hs.outcomes _ row hrow (by rw [hst]; trivial)
        obtain rfl := Option.some.inj hanswer
        obtain rfl := hw.failed hst
        exact hw
      · cases hanswer
    · cases h
  | collect i answered =>
    simp only [Invocation.advance] at h
    split at h
    · rename_i result hphase
      obtain rfl := Option.some.inj h
      exact hs.answers v hv answer (by simpa [Invocation.answer, hphase, Except.map] using hanswer)
    · cases h

/-- What a step does to the invocations. -/
lemma InvokeFarm.step_cases {showUuid : Uuid → String} {s t : InvokeFarm} {a : InvokeAction}
    (h : s.step showUuid a = some t) :
    (∃ b outputs, a = .work b ∧ s.outputs.step b = some outputs ∧
        t = { s with outputs := outputs }) ∨
    (∃ i run_id req input_ids outputs invocations, a = .invoke i run_id req input_ids ∧
        s.outputs.step (.enqueue run_id req input_ids) = some outputs ∧
        s.invocations.insert ⟨i, run_id, .enqueued⟩ = some invocations ∧
        t = ⟨outputs, invocations⟩) ∨
    ∃ i v phase, a.invocation = some i ∧ s.invocations.lookup i = some v ∧
      v.advance showUuid s.outputs a = some phase ∧ t = s.setPhase i phase := by
  have hadvance : (a.invocation.bind fun i => (s.invocations.lookup i).bind fun v =>
      (v.advance showUuid s.outputs a).map (s.setPhase i)) = some t →
      ∃ i v phase, a.invocation = some i ∧ s.invocations.lookup i = some v ∧
        v.advance showUuid s.outputs a = some phase ∧ t = s.setPhase i phase := by
    intro h
    obtain ⟨i, hi, h⟩ := Option.bind_eq_some_iff.mp h
    obtain ⟨v, hv, h⟩ := Option.bind_eq_some_iff.mp h
    obtain ⟨phase, hphase, rfl⟩ := Option.map_eq_some_iff.mp h
    exact ⟨i, v, phase, hi, hv, hphase, rfl⟩
  cases a with
  | work b =>
    obtain ⟨outputs, houtputs, rfl⟩ := Option.map_eq_some_iff.mp h
    exact .inl ⟨b, outputs, rfl, houtputs, rfl⟩
  | invoke i run_id req input_ids =>
    obtain ⟨outputs, houtputs, h⟩ := Option.bind_eq_some_iff.mp h
    obtain ⟨invocations, hinsert, rfl⟩ := Option.map_eq_some_iff.mp h
    exact .inr (.inl ⟨i, run_id, req, input_ids, outputs, invocations, rfl, houtputs, hinsert, rfl⟩)
  | start | checkDeadline | poll | collect => exact .inr (.inr (hadvance h))

lemma invokeInv_step {showUuid : Uuid → String} {s t : InvokeFarm} {a : InvokeAction}
    (hs : InvokeInv s) (hC : AnsweredInTime s a) (h : s.step showUuid a = some t) :
    InvokeInv t := by
  rcases InvokeFarm.step_cases h with ⟨b, outputs, rfl, hstep, rfl⟩ |
    ⟨i, run_id, req, input_ids, outputs, invocations, rfl, hstep, hinsert, rfl⟩ |
    ⟨i, v, phase, hi, hv, hphase, rfl⟩
  · exact hs.work hstep hC
  · have hwork := hs.work hstep (by trivial)
    have hrows := Table.rows_insert hinsert
    refine ⟨hwork.outcomes, ?_, ?_⟩
    · intro v hv
      rw [hrows] at hv
      rcases List.mem_append.mp hv with hv | hv
      · exact hwork.runs v hv
      · obtain rfl := List.mem_singleton.mp hv
        obtain ⟨farm, hfarm, rfl⟩ := Option.map_eq_some_iff.mp hstep
        obtain ⟨rows, hrows, rfl⟩ := Option.map_eq_some_iff.mp hfarm
        exact ⟨_, by rw [get_enqueue hrows, if_pos rfl]⟩
    · intro v hv answer hanswer
      rw [hrows] at hv
      rcases List.mem_append.mp hv with hv | hv
      · exact hwork.answers v hv answer hanswer
      · obtain rfl := List.mem_singleton.mp hv
        cases hanswer
  · obtain ⟨hmem, rfl⟩ := Table.lookup_eq_some_iff.mp hv
    refine ⟨hs.outcomes, ?_, ?_⟩
    · intro v' hv'
      obtain ⟨u, hu, rfl⟩ := List.mem_map.mp hv'
      obtain ⟨row, hrow⟩ := hs.runs u hu
      refine ⟨row, ?_⟩
      split_ifs <;> exact hrow
    · intro v' hv' answer hanswer
      obtain ⟨u, hu, rfl⟩ := List.mem_map.mp hv'
      split_ifs at hanswer ⊢ with hid
      · obtain rfl := Table.eq_of_key hu hmem (of_decide_eq_true hid)
        exact answer_advance hs hmem hi hC hphase hanswer
      · exact hs.answers u hu answer hanswer

lemma InvokeInv.returnsRecorded {s : InvokeFarm} (hs : InvokeInv s) : ReturnsRecorded s := by
  intro v hv response hphase
  exact hs.answers v hv _ (by simp [Invocation.answer, hphase])

/-- What the invocations return is what is recorded, throughout every run in which their checks are
in time, their polls are answered and no worker changes an outcome that they have learned. -/
theorem always_returnsRecorded (showUuid : Uuid → String) {as : List InvokeAction}
    (hC : Along (InvokeFarm.step showUuid) AnsweredInTime .init as) :
    Always (InvokeFarm.step showUuid) ReturnsRecorded .init as := by
  have hinv : Always (InvokeFarm.step showUuid) InvokeInv .init as :=
    always_of_along (fun _ _ _ => invokeInv_step) invokeInv_init hC
  exact hinv.mono fun _ => InvokeInv.returnsRecorded

/-! ### A tool that takes longer than the invocation waits -/

/-- The request of a tool whose policy allows it eleven minutes. -/
def invokeAgentRequest : EnqueueRequest := ⟨"internal.invoke_agent", 1, .obj [], some 3⟩

/-- The tool is done within a minute. -/
def answeredInvocation : List InvokeAction :=
  [.invoke 0 7 invokeAgentRequest [], .start 0, .work (.job (.claim 0 [])), .checkDeadline 0,
   .poll 0 none, .work (.job (.tick 60)),
   .work (.complete 0 ⟨.text, .str "done", none, none⟩ []), .checkDeadline 0, .poll 0 none,
   .collect 0 true]

theorem always_returnsRecorded_answered :
    Always (InvokeFarm.step toString) ReturnsRecorded .init answeredInvocation :=
  always_returnsRecorded toString (by decide)

/-- The worker keeps its lease and completes the run after the invocation has timed out. -/
def timedOutInvocation : List InvokeAction :=
  [.invoke 0 7 invokeAgentRequest [], .start 0, .work (.job (.claim 0 [])), .checkDeadline 0,
   .poll 0 none, .work (.job (.tick 100)), .work (.job (.heartbeat 0)), .work (.job (.tick 100)),
   .work (.job (.heartbeat 0)), .work (.job (.tick 101)), .checkDeadline 0,
   .work (.complete 0 ⟨.text, .str "done", none, none⟩ [])]

theorem not_always_returnsRecorded_timedOut :
    ¬ Always (InvokeFarm.step toString) ReturnsRecorded .init timedOutInvocation := by
  intro h
  obtain ⟨t, ht⟩ := Option.isSome_iff_exists.mp
    (show (exec (InvokeFarm.step toString) .init timedOutInvocation).isSome by decide)
  have hend : (exec (InvokeFarm.step toString) .init timedOutInvocation).map (fun s =>
      (s.invocations.rows, (get 7 s.outputs.farm.rows).map (·.status))) =
      some ([⟨0, 7, .returned (.error timedOut)⟩], some .completed) := by decide
  rw [ht] at hend
  simp only [Option.map_some, Option.some.injEq, Prod.mk.injEq] at hend
  obtain ⟨hinvocations, hstatus⟩ := hend
  obtain ⟨row, hrow, hfailed, -⟩ :=
    h.of_exec ht ⟨0, 7, .returned (.error timedOut)⟩ (by simp [hinvocations]) _ rfl
  rw [hrow, Option.map_some, hfailed] at hstatus
  cases hstatus

end Arbeiterfarm.Jobs
