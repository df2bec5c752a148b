import Mathlib.Data.List.Sort
import Arbeiterfarm.Core.Json
import Arbeiterfarm.Foundation.Table

/-!
# The `tool_runs` table

One definition for each statement of the table module: `enqueue`, `claim`, `complete`, `fail`,
`heartbeat`, `reclaimExpired` and `failExhausted`. Timestamps are seconds, `now` is the
database clock of the statement. A statement that fails changes nothing and is not a step.
-/

namespace Arbeiterfarm.Jobs

open Foundation

/-- The values the `status` column admits. -/
inductive RunStatus where
  | queued
  | running
  | completed
  | failed
  | cancelled
  deriving DecidableEq, Repr

/-- A run that is `completed` or `failed` has its outcome. -/
def RunStatus.IsFinal : RunStatus → Prop
  | .completed | .failed => True
  | _ => False

instance : DecidablePred RunStatus.IsFinal := fun s => by
  cases s <;> simp only [RunStatus.IsFinal] <;> infer_instance

structure ToolRunRow where
  id : Uuid
  tool_name : String
  tool_version : ℕ
  input_json : Json
  status : RunStatus := .queued
  output_json : Option Json := none
  output_kind : Option String := none
  error_json : Option Json := none
  stdout : Option String := none
  stderr : Option String := none
  actor_user_id : Option Uuid := none
  attempt : ℕ := 0
  lease_expires : Option ℤ := none
  created_at : ℤ
  started_at : Option ℤ := none
  completed_at : Option ℤ := none
  deriving DecidableEq, Repr

/-- What a run reports: its status and everything recorded with it. -/
def ToolRunRow.outcome (r : ToolRunRow) :=
  (r.status, r.output_json, r.output_kind, r.error_json, r.stdout, r.stderr, r.completed_at)

/-- The table, keyed by its primary key. -/
abbrev ToolRuns := Table ToolRunRow.id

/-- The row with a given primary key. -/
def get (id : Uuid) (t : ToolRuns) : Option ToolRunRow := t.lookup id

/-- The columns that the enqueuing transaction sets. -/
structure EnqueueRequest where
  tool_name : String
  tool_version : ℕ
  input_json : Json
  actor_user_id : Option Uuid

/-- The row that `enqueue` adds. -/
def EnqueueRequest.row (req : EnqueueRequest) (now : ℤ) (id : Uuid) : ToolRunRow :=
  { id := id, tool_name := req.tool_name, tool_version := req.tool_version,
    input_json := req.input_json, actor_user_id := req.actor_user_id, created_at := now }

/-- `INSERT INTO tool_runs` under the primary key `id`. -/
def enqueue (now : ℤ) (id : Uuid) (req : EnqueueRequest) (t : ToolRuns) : Option ToolRuns :=
  t.insert (req.row now id)

/-- `ORDER BY created_at`. -/
def CreatedLe (a b : ToolRunRow) : Prop := a.created_at ≤ b.created_at

instance : DecidableRel CreatedLe := fun a b => Int.decLe a.created_at b.created_at

/-- The oldest queued row; rows that another transaction holds locked are skipped. -/
def claimTarget (locked : List Uuid) (t : ToolRuns) : Option ToolRunRow :=
  ((t.rows.filter fun r => r.status = .queued ∧ r.id ∉ locked).insertionSort CreatedLe).head?

/-- The `SET` list of `claim`. -/
def markClaimed (now lease : ℤ) (r : ToolRunRow) : ToolRunRow :=
  { r with
    status := .running, attempt := r.attempt + 1, started_at := some now,
    lease_expires := some (now + lease) }

@[simp] lemma markClaimed_id (now lease : ℤ) (r : ToolRunRow) :
    (markClaimed now lease r).id = r.id := rfl

/-- Claim a queued run: the row that is returned and the new table. -/
def claim (now lease : ℤ) (locked : List Uuid) (t : ToolRuns) : Option (ToolRunRow × ToolRuns) :=
  (claimTarget locked t).map fun r =>
    (markClaimed now lease r,
      t.update (·.id = r.id) (markClaimed now lease) (markClaimed_id now lease))

/-- The `SET` list of `complete`. -/
def markCompleted (now : ℤ) (output_json : Json) (output_kind : String)
    (stdout stderr : Option String) (r : ToolRunRow) : ToolRunRow :=
  { r with
    status := .completed, output_json := some output_json, output_kind := some output_kind,
    stdout := stdout, stderr := stderr, completed_at := some now }

@[simp] lemma markCompleted_id (now : ℤ) (output_json : Json) (output_kind : String)
    (stdout stderr : Option String) (r : ToolRunRow) :
    (markCompleted now output_json output_kind stdout stderr r).id = r.id := rfl

def complete (now : ℤ) (id : Uuid) (output_json : Json) (output_kind : String)
    (stdout stderr : Option String) (t : ToolRuns) : ToolRuns :=
  t.update (·.id = id) (markCompleted now output_json output_kind stdout stderr)
    (markCompleted_id now output_json output_kind stdout stderr)

/-- The `SET` list of `fail`. -/
def markFailed (now : ℤ) (error_json : Json) (stderr : Option String) (r : ToolRunRow) :
    ToolRunRow :=
  { r with
    status := .failed, error_json := some error_json, stderr := stderr,
    completed_at := some now }

@[simp] lemma markFailed_id (now : ℤ) (error_json : Json) (stderr : Option String)
    (r : ToolRunRow) : (markFailed now error_json stderr r).id = r.id := rfl

def fail (now : ℤ) (id : Uuid) (error_json : Json) (stderr : Option String) (t : ToolRuns) :
    ToolRuns :=
  t.update (·.id = id) (markFailed now error_json stderr) (markFailed_id now error_json stderr)

/-- The `SET` list of `heartbeat`. -/
def extendLease (now lease : ℤ) (r : ToolRunRow) : ToolRunRow :=
  { r with lease_expires := some (now + lease) }

@[simp] lemma extendLease_id (now lease : ℤ) (r : ToolRunRow) :
    (extendLease now lease r).id = r.id := rfl

def heartbeat (now lease : ℤ) (id : Uuid) (t : ToolRuns) : ToolRuns :=
  t.update (·.id = id) (extendLease now lease) (extendLease_id now lease)

/-- `status = 'running' AND lease_expires < now()`; a null lease compares to null. -/
def leaseExpired (now : ℤ) (r : ToolRunRow) : Bool :=
  r.status = .running ∧ r.lease_expires.any (· < now)

/-- The rows that `reclaimExpired` sends back to the queue. -/
def reclaimable (now : ℤ) (max_attempts : ℕ) (r : ToolRunRow) : Bool :=
  leaseExpired now r ∧ r.attempt < max_attempts

/-- The `SET` list of `reclaim_expired`. -/
def requeue (r : ToolRunRow) : ToolRunRow := { r with status := .queued, lease_expires := none }

@[simp] lemma requeue_id (r : ToolRunRow) : (requeue r).id = r.id := rfl

def reclaimExpired (now : ℤ) (max_attempts : ℕ) (t : ToolRuns) : ToolRuns :=
  t.update (reclaimable now max_attempts) requeue requeue_id

/-- The rows that `failExhausted` fails for good. -/
def exhausted (now : ℤ) (max_attempts : ℕ) (r : ToolRunRow) : Bool :=
  leaseExpired now r ∧ max_attempts ≤ r.attempt

def maxAttemptsExceeded : Json :=
  .obj [("code", .str "max_attempts_exceeded"),
        ("message", .str "tool run exceeded maximum retry attempts"),
        ("retryable", .bool false),
        ("details", .null)]

/-- The `SET` list of `fail_exhausted`. -/
def markExhausted (now : ℤ) (r : ToolRunRow) : ToolRunRow :=
  { r with
    status := .failed, error_json := some maxAttemptsExceeded, completed_at := some now }

@[simp] lemma markExhausted_id (now : ℤ) (r : ToolRunRow) : (markExhausted now r).id = r.id := rfl

def failExhausted (now : ℤ) (max_attempts : ℕ) (t : ToolRuns) : ToolRuns :=
  t.update (exhausted now max_attempts) (markExhausted now) (markExhausted_id now)

/-! ### The statements, row by row -/

lemma id_of_get {id : Uuid} {t : ToolRuns} {r : ToolRunRow} (h : get id t = some r) :
    r.id = id := Table.key_of_lookup h

lemma get_enqueue {now : ℤ} {id : Uuid} {req : EnqueueRequest} {t t' : ToolRuns}
    (h : enqueue now id req t = some t') (id' : Uuid) :
    get id' t' = if id = id' then some (req.row now id) else get id' t := Table.lookup_insert h id'

/-- `enqueue` leaves the rows alone that are there. -/
lemma get_of_enqueue {now : ℤ} {id id' : Uuid} {req : EnqueueRequest} {t t' : ToolRuns}
    {r : ToolRunRow} (h : enqueue now id req t = some t') (hr : get id' t = some r) :
    get id' t' = some r := by
  have hne : ¬ id = id' := by
    rintro rfl
    have hnone : get id t = none := Table.lookup_eq_none_of_insert h
    simp [hnone] at hr
  rw [get_enqueue h, if_neg hne, hr]

@[simp] lemma get_complete (now : ℤ) (id id' : Uuid) (output_json : Json)
    (output_kind : String) (stdout stderr : Option String) (t : ToolRuns) :
    get id' (complete now id output_json output_kind stdout stderr t) = (get id' t).map fun r =>
      if r.id = id then markCompleted now output_json output_kind stdout stderr r else r := by
  simp [get, complete]

@[simp] lemma get_fail (now : ℤ) (id id' : Uuid) (error_json : Json) (stderr : Option String)
    (t : ToolRuns) :
    get id' (fail now id error_json stderr t) = (get id' t).map fun r =>
      if r.id = id then markFailed now error_json stderr r else r := by
  simp [get, fail]

@[simp] lemma get_heartbeat (now lease : ℤ) (id id' : Uuid) (t : ToolRuns) :
    get id' (heartbeat now lease id t) = (get id' t).map fun r =>
      if r.id = id then extendLease now lease r else r := by
  simp [get, heartbeat]

@[simp] lemma get_reclaimExpired (now : ℤ) (max_attempts : ℕ) (id : Uuid) (t : ToolRuns) :
    get id (reclaimExpired now max_attempts t) = (get id t).map fun r =>
      if reclaimable now max_attempts r then requeue r else r := by
  simp [get, reclaimExpired]

@[simp] lemma get_failExhausted (now : ℤ) (max_attempts : ℕ) (id : Uuid) (t : ToolRuns) :
    get id (failExhausted now max_attempts t) = (get id t).map fun r =>
      if exhausted now max_attempts r then markExhausted now r else r := by
  simp [get, failExhausted]

lemma reclaimable_iff {now : ℤ} {max_attempts : ℕ} {r : ToolRunRow} :
    reclaimable now max_attempts r ↔ leaseExpired now r ∧ r.attempt < max_attempts := by
  simp [reclaimable]

lemma exhausted_iff {now : ℤ} {max_attempts : ℕ} {r : ToolRunRow} :
    exhausted now max_attempts r ↔ leaseExpired now r ∧ max_attempts ≤ r.attempt := by
  simp [exhausted]

/-- Only a running row can have an expired lease. -/
lemma running_of_leaseExpired {now : ℤ} {r : ToolRunRow} (h : leaseExpired now r) :
    r.status = .running := by
  simp only [leaseExpired, decide_eq_true_eq] at h
  exact h.1

/-- `claim` picks a queued row that no other transaction holds and updates it alone. -/
lemma claim_eq {now lease : ℤ} {locked : List Uuid} {t t' : ToolRuns} {run : ToolRunRow}
    (h : claim now lease locked t = some (run, t')) :
    ∃ r ∈ t.rows, r.status = .queued ∧ run = markClaimed now lease r ∧
      t' = t.update (·.id = r.id) (markClaimed now lease) (markClaimed_id now lease) := by
  obtain ⟨r, hr, heq⟩ := Option.map_eq_some_iff.mp h
  have hmem := List.mem_of_mem_head? hr
  simp only [List.mem_insertionSort, List.mem_filter, decide_eq_true_eq] at hmem
  obtain ⟨rfl, rfl⟩ := Prod.mk.inj heq
  exact ⟨r, hmem.1, hmem.2.1, rfl, rfl⟩

/-- `claim` picks a queued row and leaves every other row alone. -/
lemma claim_spec {now lease : ℤ} {locked : List Uuid} {t t' : ToolRuns} {run : ToolRunRow}
    (h : claim now lease locked t = some (run, t')) :
    ∃ r, get r.id t = some r ∧ r.status = .queued ∧ run = markClaimed now lease r ∧
      ∀ id, get id t' = (get id t).map fun r' =>
        if r'.id = r.id then markClaimed now lease r' else r' := by
  obtain ⟨r, hr, hqueued, rfl, rfl⟩ := claim_eq h
  exact ⟨r, Table.lookup_of_mem hr, hqueued, rfl, fun id => by simp [get]⟩

/-- A claim finds a run as long as some queued row is not locked. -/
lemma claim_isSome {now lease : ℤ} {locked : List Uuid} {t : ToolRuns} {r : ToolRunRow}
    (hr : r ∈ t.rows) (hqueued : r.status = .queued) (hfree : r.id ∉ locked) :
    (claim now lease locked t).isSome := by
  have hmem : r ∈ (t.rows.filter fun r => r.status = .queued ∧ r.id ∉ locked).insertionSort
      CreatedLe := by simp [hr, hqueued, hfree]
  simp only [claim, claimTarget, Option.isSome_map, List.isSome_head?]
  exact List.ne_nil_of_mem hmem

end Arbeiterfarm.Jobs
