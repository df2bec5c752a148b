import Arbeiterfarm.Foundation.Exec
import Arbeiterfarm.Jobs.ToolRuns

/-!
# Workers and the reaper

The job system as a state machine: any number of workers, each with at most one claimed run, the
reaper and the clients that enqueue runs, all on one `tool_runs` table. A worker holds the row
that `claim` returned to it until it reports a result (`execute_claimed`) or stops without one,
for example because the tool has no executor or the final statement failed.

Two history variables are read by no step: `reaped` lists the (run, attempt) pairs that a reaper
pass has taken from their worker, `recordedBy` says which worker wrote the output of a run, and
for which attempt.
-/

namespace Arbeiterfarm.Jobs

open Foundation

abbrev WorkerId := ℕ

def leaseDurationSecs : ℤ := 120

def maxAttempts : ℕ := 3

inductive ToolOutputKind where
  | inlineJson
  | jsonArtifact
  | text
  | binary
  | mixed
  deriving DecidableEq, Repr

/-- The `output_kind` column for a kind. -/
def ToolOutputKind.column : ToolOutputKind → String
  | .inlineJson => "inline_json"
  | .jsonArtifact => "json_artifact"
  | .text => "text"
  | .binary => "binary"
  | .mixed => "mixed"

structure ToolResult where
  kind : ToolOutputKind
  output_json : Json
  stdout : Option String
  stderr : Option String
  deriving DecidableEq, Repr

structure ToolError where
  code : String
  message : String
  retryable : Bool
  details : Json
  deriving DecidableEq, Repr

def ToolError.toJson (e : ToolError) : Json :=
  .obj [("code", .str e.code), ("message", .str e.message), ("retryable", .bool e.retryable),
        ("details", e.details)]

/-- The end of `execute_claimed`: a result completes the run; a validation error, a tool error or
a lost heartbeat fails it. -/
def report (now : ℤ) (run : ToolRunRow) (result : Except ToolError ToolResult) (t : ToolRuns) :
    ToolRuns :=
  match result with
  | .ok r => complete now run.id r.output_json r.kind.column r.stdout r.stderr t
  | .error e => fail now run.id e.toJson none t

structure Farm where
  now : ℤ
  rows : ToolRuns
  /-- The run that each worker has claimed, as `claim` returned it. -/
  workers : WorkerId → Option ToolRunRow
  reaped : List (Uuid × ℕ)
  recordedBy : Uuid → Option (WorkerId × ℕ)

/-- No runs and no busy worker. -/
def Farm.init : Farm := ⟨0, Table.empty _, fun _ => none, [], fun _ => none⟩

/-- A reaper pass takes the rows that meet `p` from the workers that hold them. -/
def taken (p : ToolRunRow → Bool) (t : ToolRuns) : List (Uuid × ℕ) :=
  (t.rows.filter p).map fun r => (r.id, r.attempt)

inductive Action where
  | tick (d : ℕ)
  | enqueue (id : Uuid) (req : EnqueueRequest)
  | claim (w : WorkerId) (locked : List Uuid)
  | heartbeat (w : WorkerId)
  | report (w : WorkerId) (result : Except ToolError ToolResult)
  | abandon (w : WorkerId)
  | reclaimExpired
  | failExhausted

/-- One statement of one party. -/
def Farm.step (s : Farm) : Action → Option Farm
  | .tick d => some { s with now := s.now + d }
  | .enqueue id req => (enqueue s.now id req s.rows).map fun rows => { s with rows := rows }
  | .claim w locked =>
    match s.workers w with
    | some _ => none
    | none =>
      (claim s.now leaseDurationSecs locked s.rows).map fun (run, rows) =>
        { s with rows := rows, workers := Function.update s.workers w (some run) }
  | .heartbeat w =>
    (s.workers w).map fun run =>
      { s with rows := heartbeat s.now leaseDurationSecs run.id s.rows }
  | .report w result =>
    (s.workers w).map fun run =>
      { s with
        rows := report s.now run result s.rows
        workers := Function.update s.workers w none
        recordedBy :=
          if result.isOk then Function.update s.recordedBy run.id (some (w, run.attempt))
          else s.recordedBy }
  | .abandon w =>
    (s.workers w).map fun _ => { s with workers := Function.update s.workers w none }
  | .reclaimExpired =>
    some { s with
      rows := reclaimExpired s.now maxAttempts s.rows
      reaped := s.reaped ++ taken (reclaimable s.now maxAttempts) s.rows }
  | .failExhausted =>
    some { s with
      rows := failExhausted s.now maxAttempts s.rows
      reaped := s.reaped ++ taken (exhausted s.now maxAttempts) s.rows }

/-- A request of the command line: no input and no user. -/
def fileInfoRequest : EnqueueRequest := ⟨"file.info", 1, .obj [], none⟩

/-! ### What a step can do -/

/-- The steps, one constructor per action, with the facts each of them rests on. -/
inductive Rule : Farm → Action → Farm → Prop
  | tick (s d) : Rule s (.tick d) { s with now := s.now + d }
  | enqueue (s id req rows) (h : enqueue s.now id req s.rows = some rows) :
    Rule s (.enqueue id req) { s with rows := rows }
  | claim (s w locked run rows) (hw : s.workers w = none)
    (h : claim s.now leaseDurationSecs locked s.rows = some (run, rows)) :
    Rule s (.claim w locked)
      { s with rows := rows, workers := Function.update s.workers w (some run) }
  | heartbeat (s w run) (hw : s.workers w = some run) :
    Rule s (.heartbeat w) { s with rows := heartbeat s.now leaseDurationSecs run.id s.rows }
  | report (s w run result) (hw : s.workers w = some run) :
    Rule s (.report w result)
      { s with
        rows := report s.now run result s.rows
        workers := Function.update s.workers w none
        recordedBy :=
          if result.isOk then Function.update s.recordedBy run.id (some (w, run.attempt))
          else s.recordedBy }
  | abandon (s w run) (hw : s.workers w = some run) :
    Rule s (.abandon w) { s with workers := Function.update s.workers w none }
  | reclaimExpired (s) :
    Rule s .reclaimExpired
      { s with
        rows := reclaimExpired s.now maxAttempts s.rows
        reaped := s.reaped ++ taken (reclaimable s.now maxAttempts) s.rows }
  | failExhausted (s) :
    Rule s .failExhausted
      { s with
        rows := failExhausted s.now maxAttempts s.rows
        reaped := s.reaped ++ taken (exhausted s.now maxAttempts) s.rows }

lemma Rule.of_step {s t : Farm} {a : Action} (h : s.step a = some t) : Rule s a t := by
  cases a with
  | tick d =>
    obtain rfl := Option.some.inj h
    exact .tick s d
  | enqueue id req =>
    obtain ⟨rows, hrows, rfl⟩ := Option.map_eq_some_iff.mp h
    exact .enqueue s id req rows hrows
  | claim w locked =>
    simp only [Farm.step] at h
    split at h
    · cases h
    · rename_i hw
      obtain ⟨⟨run, rows⟩, hclaim, rfl⟩ := Option.map_eq_some_iff.mp h
      exact .claim s w locked run rows hw hclaim
  | heartbeat w =>
    obtain ⟨run, hw, rfl⟩ := Option.map_eq_some_iff.mp h
    exact .heartbeat s w run hw
  | report w result =>
    obtain ⟨run, hw, rfl⟩ := Option.map_eq_some_iff.mp h
    exact .report s w run result hw
  | abandon w =>
    obtain ⟨run, hw, rfl⟩ := Option.map_eq_some_iff.mp h
    exact .abandon s w run hw
  | reclaimExpired =>
    obtain rfl := Option.some.inj h
    exact .reclaimExpired s
  | failExhausted =>
    obtain rfl := Option.some.inj h
    exact .failExhausted s

lemma mem_taken {p : ToolRunRow → Bool} {t : ToolRuns} {id : Uuid} {n : ℕ} :
    (id, n) ∈ taken p t ↔ ∃ r, get id t = some r ∧ p r ∧ r.attempt = n := by
  simp only [taken, List.mem_map, List.mem_filter, Prod.mk.injEq, get, Table.lookup_eq_some_iff]
  constructor
  · rintro ⟨r, ⟨hr, hp⟩, rfl, rfl⟩
    exact ⟨r, ⟨hr, rfl⟩, hp, rfl⟩
  · rintro ⟨r, ⟨hr, rfl⟩, hp, rfl⟩
    exact ⟨r, ⟨hr, hp⟩, rfl, rfl⟩

/-- A report writes the row of the run it is about and no other. -/
lemma get_report (now : ℤ) (run : ToolRunRow) (result : Except ToolError ToolResult)
    (t : ToolRuns) (id : Uuid) :
    ∃ f : ToolRunRow → ToolRunRow,
      (∀ r, (f r).id = r.id ∧ (f r).attempt = r.attempt ∧
        (f r).status = if result.isOk then .completed else .failed) ∧
      get id (report now run result t) =
        (get id t).map fun r => if r.id = run.id then f r else r := by
  cases result with
  | ok r =>
    exact ⟨markCompleted now r.output_json r.kind.column r.stdout r.stderr,
      fun r => ⟨rfl, rfl, rfl⟩, get_complete ..⟩
  | error e => exact ⟨markFailed now e.toJson none, fun r => ⟨rfl, rfl, rfl⟩, get_fail ..⟩

/-! ### What a step does to a row -/

/-- The `SET` list of the statement with which a worker reports `result`. -/
def reportRow (now : ℤ) : Except ToolError ToolResult → ToolRunRow → ToolRunRow
  | .ok r => markCompleted now r.output_json r.kind.column r.stdout r.stderr
  | .error e => markFailed now e.toJson none

@[simp] lemma reportRow_id (now : ℤ) (result : Except ToolError ToolResult) (r : ToolRunRow) :
    (reportRow now result r).id = r.id := by cases result <;> rfl

@[simp] lemma reportRow_attempt (now : ℤ) (result : Except ToolError ToolResult)
    (r : ToolRunRow) : (reportRow now result r).attempt = r.attempt := by cases result <;> rfl

@[simp] lemma reportRow_actor (now : ℤ) (result : Except ToolError ToolResult)
    (r : ToolRunRow) : (reportRow now result r).actor_user_id = r.actor_user_id := by
  cases result <;> rfl

@[simp] lemma reportRow_status (now : ℤ) (result : Except ToolError ToolResult)
    (r : ToolRunRow) :
    (reportRow now result r).status = if result.isOk then .completed else .failed := by
  cases result <;> rfl

lemma report_eq (now : ℤ) (run : ToolRunRow) (result : Except ToolError ToolResult)
    (t : ToolRuns) : report now run result t =
      t.update (·.id = run.id) (reportRow now result) (reportRow_id now result) := by
  cases result <;> rfl

/-- The run that an action claims; `t` is the farm after it. -/
def claimedRun (t : Farm) : Action → Option ToolRunRow
  | .claim w _ => t.workers w
  | _ => none

/-- What the step from `s` to `t` makes of the row `r`. -/
inductive RowRule (s : Farm) (a : Action) (t : Farm) (r : ToolRunRow) : ToolRunRow → Prop
  | same (hclaim : ∀ run, claimedRun t a = some run → run.id ≠ r.id)
    (hreclaim : a = .reclaimExpired → ¬ reclaimable s.now maxAttempts r)
    (hfail : a = .failExhausted → ¬ exhausted s.now maxAttempts r) : RowRule s a t r r
  | claimed (hqueued : r.status = .queued)
    (hclaim : claimedRun t a = some (markClaimed s.now leaseDurationSecs r)) :
    RowRule s a t r (markClaimed s.now leaseDurationSecs r)
  | extended (w run) (ha : a = .heartbeat w) (hw : s.workers w = some run) (hid : run.id = r.id) :
    RowRule s a t r (extendLease s.now leaseDurationSecs r)
  | reported (w run result) (ha : a = .report w result) (hw : s.workers w = some run)
    (hid : run.id = r.id) : RowRule s a t r (reportRow s.now result r)
  | requeued (ha : a = .reclaimExpired) (h : reclaimable s.now maxAttempts r) :
    RowRule s a t r (requeue r)
  | exhausted (ha : a = .failExhausted) (h : exhausted s.now maxAttempts r) :
    RowRule s a t r (markExhausted s.now r)

/-- A step other than `enqueue` is one update of the table, row by row as `RowRule` says. -/
lemma RowRule.of_step {s t : Farm} {a : Action} (h : s.step a = some t) :
    (∃ id req, a = .enqueue id req ∧ enqueue s.now id req s.rows = some t.rows) ∨
    ∃ (p : ToolRunRow → Bool) (f : ToolRunRow → ToolRunRow) (hf : ∀ r, (f r).id = r.id),
      t.rows = s.rows.update p f hf ∧
        ∀ r ∈ s.rows.rows, RowRule s a t r (if p r then f r else r) := by
  have hsame : s.rows = s.rows.update (fun _ => false) id (fun _ => rfl) := by
    ext1
    simp [Table.update]
  cases Rule.of_step h with
  | tick d | abandon w run hw =>
    refine .inr ⟨_, _, _, hsame, ?_⟩
    intro r _
    exact .same (by simp [claimedRun]) (by simp) (by simp)
  | enqueue id req rows hrows => exact .inl ⟨id, req, rfl, hrows⟩
  | claim w locked run rows hw hclaim =>
    obtain ⟨q, hq, hqueued, rfl, rfl⟩ := claim_eq hclaim
    refine .inr ⟨(·.id = q.id), markClaimed s.now leaseDurationSecs,
      markClaimed_id s.now leaseDurationSecs, rfl, ?_⟩
    intro r hr
    by_cases hid : r.id = q.id
    · obtain rfl := List.inj_on_of_nodup_map s.rows.nodup hr hq hid
      rw [if_pos (decide_eq_true rfl)]
      exact .claimed hqueued (by simp [claimedRun])
    · rw [if_neg (by simpa using hid)]
      refine .same ?_ (by simp) (by simp)
      intro run hrun
      simp only [claimedRun, Function.update_self, Option.some.injEq] at hrun
      subst hrun
      exact fun heq => hid heq.symm
  | heartbeat w run hw =>
    refine .inr ⟨_, _, extendLease_id _ _, rfl, ?_⟩
    intro r _
    by_cases hid : r.id = run.id
    · simpa [hid] using RowRule.extended w run rfl hw hid.symm
    · simpa [hid] using RowRule.same (by simp [claimedRun]) (by simp) (by simp)
  | report w run result hw =>
    refine .inr ⟨_, _, reportRow_id _ _, report_eq .., ?_⟩
    intro r _
    by_cases hid : r.id = run.id
    · simpa [hid] using RowRule.reported w run result rfl hw hid.symm
    · simpa [hid] using RowRule.same (by simp [claimedRun]) (by simp) (by simp)
  | reclaimExpired =>
    refine .inr ⟨_, _, requeue_id, rfl, ?_⟩
    intro r _
    by_cases hp : reclaimable s.now maxAttempts r
    · rw [if_pos hp]
      exact .requeued rfl hp
    · rw [if_neg hp]
      exact .same (by simp [claimedRun]) (fun _ => hp) (by simp)
  | failExhausted =>
    refine .inr ⟨_, _, markExhausted_id _, rfl, ?_⟩
    intro r _
    by_cases hp : Jobs.exhausted s.now maxAttempts r
    · rw [if_pos hp]
      exact .exhausted rfl hp
    · rw [if_neg hp]
      exact .same (by simp [claimedRun]) (by simp) (fun _ => hp)

/-- No step removes a row. -/
lemma row_step {s t : Farm} {a : Action} (h : s.step a = some t) {id : Uuid} {r : ToolRunRow}
    (hr : get id s.rows = some r) : ∃ r', get id t.rows = some r' ∧ RowRule s a t r r' := by
  rcases RowRule.of_step h with ⟨id', req, rfl, hrows⟩ | ⟨p, f, hf, hrows, hrule⟩
  · exact ⟨r, get_of_enqueue hrows hr, .same (by simp [claimedRun]) (by simp) (by simp)⟩
  · refine ⟨_, ?_, hrule r (Table.lookup_eq_some_iff.mp hr).1⟩
    rw [hrows, get, Table.lookup_update]
    exact congrArg _ hr

/-- A row after a step comes from the row before it, or has just been enqueued. -/
lemma row_of_step {s t : Farm} {a : Action} (h : s.step a = some t) {id : Uuid}
    {r' : ToolRunRow} (hr' : get id t.rows = some r') :
    (∃ r, get id s.rows = some r ∧ RowRule s a t r r') ∨
      ∃ req, a = .enqueue id req ∧ get id s.rows = none ∧ r' = req.row s.now id := by
  cases hr : get id s.rows with
  | some r =>
    obtain ⟨q, hq, hrule⟩ := row_step h hr
    rw [hr'] at hq
    obtain rfl := Option.some.inj hq
    exact .inl ⟨r, rfl, hrule⟩
  | none =>
    rcases RowRule.of_step h with ⟨id', req, rfl, hrows⟩ | ⟨p, f, hf, hrows, -⟩
    · rw [get_enqueue hrows, hr] at hr'
      split_ifs at hr' with hid
      subst hid
      exact .inr ⟨req, rfl, rfl, (Option.some.inj hr').symm⟩
    · rw [hrows, get, Table.lookup_update] at hr'
      rw [get] at hr
      simp [hr] at hr'

end Arbeiterfarm.Jobs
