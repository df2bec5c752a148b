import Arbeiterfarm.Core.Json
import Arbeiterfarm.Core.Numbers
import Arbeiterfarm.Foundation.ForeignKeys
import Arbeiterfarm.Foundation.RecursiveQuery

/-!
# Deleting threads and projects

The tables that projects, threads, messages and artifacts are referred to from, and those that these
are referred to from in turn. A key without `ON DELETE` is checked at the end of the statement.

A thread is deleted with its descendants in one statement, a project in a sequence of statements,
each in the order of the foreign keys. Threads that have not been updated for longer than their
project retains them are purged if they have no children.
-/

namespace Arbeiterfarm.Db

open Foundation Database

/-! ### The foreign keys -/

inductive TableName where
  | projects | threads | messages | message_evidence | thread_memory | llm_usage_log
  | tool_runs | tool_run_artifacts | tool_run_events
  | artifacts | embeddings | embed_queue | url_ingest_queue
  | project_members | project_hooks | web_fetch_rules | email_recipient_rules
  | email_scheduled | email_log | notification_channels | notification_queue
  | ghidra_function_renames
  deriving DecidableEq, Repr

inductive Column where
  | project_id | thread_id | parent_thread_id | target_artifact_id | message_id
  | tool_run_id | artifact_id | chunks_artifact_id | source_artifact_id | text_artifact_id
  | scheduled_email_id | channel_id | attachment_artifact_id
  deriving DecidableEq, Repr

/-- The other columns that are read: a setting of a project, and when a thread was updated. -/
structure RowData where
  thread_retention_days : Option String := none
  updated_at : ℤ := 0

abbrev Row := DbRow TableName Column Uuid RowData

abbrev Tables := Database TableName Column Uuid RowData

/-- The foreign keys, as the migrations create them. -/
def schema : List (ForeignKey TableName Column) :=
  [⟨.artifacts, .project_id, .projects, .noAction⟩,
    ⟨.tool_runs, .project_id, .projects, .noAction⟩,
    ⟨.tool_run_artifacts, .tool_run_id, .tool_runs, .noAction⟩,
    ⟨.tool_run_artifacts, .artifact_id, .artifacts, .noAction⟩,
    ⟨.tool_run_events, .tool_run_id, .tool_runs, .noAction⟩,
    ⟨.threads, .project_id, .projects, .noAction⟩,
    ⟨.messages, .thread_id, .threads, .noAction⟩,
    ⟨.message_evidence, .message_id, .messages, .noAction⟩,
    ⟨.project_members, .project_id, .projects, .noAction⟩,
    ⟨.threads, .parent_thread_id, .threads, .noAction⟩,
    ⟨.project_hooks, .project_id, .projects, .noAction⟩,
    ⟨.llm_usage_log, .thread_id, .threads, .cascade⟩,
    ⟨.llm_usage_log, .project_id, .projects, .cascade⟩,
    ⟨.embeddings, .project_id, .projects, .cascade⟩,
    ⟨.embeddings, .artifact_id, .artifacts, .cascade⟩,
    ⟨.web_fetch_rules, .project_id, .projects, .cascade⟩,
    ⟨.email_recipient_rules, .project_id, .projects, .cascade⟩,
    ⟨.email_scheduled, .project_id, .projects, .cascade⟩,
    ⟨.email_scheduled, .thread_id, .threads, .noAction⟩,
    ⟨.email_log, .project_id, .projects, .noAction⟩,
    ⟨.email_log, .scheduled_email_id, .email_scheduled, .noAction⟩,
    ⟨.email_log, .thread_id, .threads, .noAction⟩,
    ⟨.thread_memory, .thread_id, .threads, .noAction⟩,
    ⟨.threads, .target_artifact_id, .artifacts, .setNull⟩,
    ⟨.embed_queue, .project_id, .projects, .cascade⟩,
    ⟨.embed_queue, .chunks_artifact_id, .artifacts, .cascade⟩,
    ⟨.embed_queue, .source_artifact_id, .artifacts, .setNull⟩,
    ⟨.url_ingest_queue, .project_id, .projects, .cascade⟩,
    ⟨.url_ingest_queue, .text_artifact_id, .artifacts, .setNull⟩,
    ⟨.url_ingest_queue, .chunks_artifact_id, .artifacts, .setNull⟩,
    ⟨.notification_channels, .project_id, .projects, .cascade⟩,
    ⟨.notification_queue, .project_id, .projects, .cascade⟩,
    ⟨.notification_queue, .channel_id, .notification_channels, .cascade⟩,
    ⟨.notification_queue, .attachment_artifact_id, .artifacts, .setNull⟩,
    ⟨.ghidra_function_renames, .project_id, .projects, .cascade⟩]

/-- The tables whose references are checked, or that such references are to. -/
def Checked (t : TableName) : Prop :=
  t ∈ [.projects, .threads, .messages, .message_evidence, .thread_memory, .tool_runs,
    .tool_run_artifacts, .tool_run_events, .artifacts, .project_members, .project_hooks,
    .email_scheduled, .email_log]

instance : DecidablePred Checked := fun _ => inferInstanceAs (Decidable (_ ∈ _))

lemma separate_schema : Separate schema := by
  simp only [Separate]
  decide

lemma coreOf_checked : CoreOf schema Checked := by
  simp only [CoreOf]
  decide

/-! ### Queries -/

/-- `SELECT id FROM t WHERE p` -/
def ids (db : Tables) (t : TableName) (p : Row → Bool) : List Uuid :=
  (db.filter fun r => r.table = t && p r).map (·.id)

/-- `c = i` -/
def refIs (c : Column) (i : Uuid) (r : Row) : Bool := r.ref c = some i

/-- `c IN is` -/
def refIn (c : Column) (is : List Uuid) (r : Row) : Bool := (r.ref c).any fun i => i ∈ is

/-- `DELETE FROM t WHERE p` -/
def fromTable (t : TableName) (p : Row → Bool) (r : Row) : Bool := r.table = t && p r

/-! ### Threads -/

/-- A thread and its descendants; the recursive query does not end if it comes to a cycle. -/
def threadTree (fuel : ℕ) (db : Tables) (thread_id : Uuid) : Option (List Uuid) :=
  unionAll (fun i => ids db .threads (refIs .parent_thread_id i)) fuel
    (ids db .threads fun t => t.id = thread_id)

/-- What is purged with threads. -/
def purgedWith (threads : List Uuid) (db : Tables) (r : Row) : Bool :=
  match r.table with
  | .thread_memory | .messages => refIn .thread_id threads r
  | .message_evidence => refIn .message_id (ids db .messages (refIn .thread_id threads)) r
  | .threads => r.id ∈ threads
  | _ => false

/-- What is deleted with threads: their mail as well. -/
def deletedWith (threads : List Uuid) (db : Tables) (r : Row) : Bool :=
  match r.table with
  | .email_log | .email_scheduled => refIn .thread_id threads r
  | _ => purgedWith threads db r

/-- Delete a thread and all its descendants; whether there was one. -/
def deleteThread (fuel : ℕ) (db : Tables) (thread_id : Uuid) :
    Option (Except (ForeignKey TableName Column) (Bool × Tables)) :=
  (threadTree fuel db thread_id).map fun tree =>
    (delete schema (deletedWith tree db) db).map fun db' =>
      (0 < (ids db .threads fun t => t.id ∈ tree).length, db')

/-! ### Projects -/

def projectThreads (db : Tables) (id : Uuid) : List Uuid := ids db .threads (refIs .project_id id)

def projectRuns (db : Tables) (id : Uuid) : List Uuid := ids db .tool_runs (refIs .project_id id)

/-- The statements of `delete_project`, in order. -/
def projectStatements (id : Uuid) : List (Tables → Row → Bool) :=
  [fun db => fromTable .message_evidence
      (refIn .message_id (ids db .messages (refIn .thread_id (projectThreads db id)))),
    fun db => fromTable .messages (refIn .thread_id (projectThreads db id)),
    fun db => fromTable .email_log (refIn .thread_id (projectThreads db id)),
    fun db => fromTable .email_scheduled (refIn .thread_id (projectThreads db id)),
    fun _ => fromTable .threads (refIs .project_id id),
    fun db => fromTable .tool_run_artifacts (refIn .tool_run_id (projectRuns db id)),
    fun db => fromTable .tool_run_events (refIn .tool_run_id (projectRuns db id)),
    fun _ => fromTable .tool_runs (refIs .project_id id),
    fun _ => fromTable .artifacts (refIs .project_id id),
    fun _ => fromTable .project_members (refIs .project_id id),
    fun _ => fromTable .project_hooks (refIs .project_id id),
    fun _ => fromTable .email_log (refIs .project_id id),
    fun _ => fromTable .projects fun p => p.id = id]

/-- Delete a project; whether there was one. It is still there when the last statement deletes
it. -/
def deleteProject (db : Tables) (id : Uuid) :
    Except (ForeignKey TableName Column) (Bool × Tables) :=
  if (ids db .projects fun p => p.id = id).isEmpty then .ok (false, db)
  else (deleteAll schema (projectStatements id) db).map fun db' => (true, db')

/-! ### Retention -/

inductive DbError where
  | foreignKey (fk : ForeignKey TableName Column)
  | integerOutOfRange
  | timestampOutOfRange
  deriving DecidableEq, Repr

/-- The first instant, in microseconds from the start of the year 2000. -/
def minTimestamp : ℤ := -211813488000000000

/-- The number of days, if the setting is one. -/
def retentionDays (setting : Option String) : Option ℕ :=
  setting.bind fun text =>
    if text.toList.isEmpty = false ∧ text.toList.all (·.isDigit) then
      some (text.toList.foldl (fun n c => 10 * n + (c.toNat - '0'.toNat)) 0)
    else none

/-- The instant so many days ago. The number is cast to an integer of 32 bits. -/
def cutoff (now : ℤ) (n : ℕ) : Except DbError ℤ :=
  if 2147483647 < n then .error .integerOutOfRange
  else if now - days n < minTimestamp then .error .timestampOutOfRange
  else .ok (now - days n)

/-- A thread is expired if its project retains threads for fewer days. -/
def isExpired (now : ℤ) (db : Tables) (t : Row) : Except DbError Bool :=
  match db.find? fun p => p.table = .projects && refIs .project_id p.id t with
  | none => .ok false
  | some p =>
    match retentionDays p.data.thread_retention_days with
    | none => .ok false
    | some n => (cutoff now n).map fun instant => t.data.updated_at < instant

/-- The expired threads among the rows. -/
def candidates (now : ℤ) (db : Tables) : List Row → Except DbError (List Uuid)
  | [] => .ok []
  | t :: ts =>
    if t.table = .threads then
      match isExpired now db t with
      | .error e => .error e
      | .ok expired => (candidates now db ts).map fun is => if expired then t.id :: is else is
    else candidates now db ts

/-- Purge the expired threads without children; how many there were. -/
def purgeExpiredThreads (now : ℤ) (db : Tables) : Except DbError (ℕ × Tables) :=
  match candidates now db db with
  | .error e => .error e
  | .ok is =>
    let expired := is.filter fun i => (ids db .threads (refIs .parent_thread_id i)).isEmpty
    match delete schema (purgedWith expired db) db with
    | .error fk => .error (.foreignKey fk)
    | .ok db' => .ok ((ids db .threads fun t => t.id ∈ expired).length, db')

end Arbeiterfarm.Db
