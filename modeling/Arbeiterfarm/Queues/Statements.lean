import Arbeiterfarm.Core.Json
import Arbeiterfarm.Core.Numbers
import Arbeiterfarm.Foundation.Session
import Arbeiterfarm.Foundation.Table
import Mathlib.Data.List.Sort

/-!
# The background queues

The tables `embed_queue`, `url_ingest_queue` and `notification_queue` share their columns for
status and attempts, and the statements that change these; they differ in the columns that say
what there is to do (`δ`). A statement names the item and the status that it expects, never the
worker.
-/

namespace Arbeiterfarm.Queues

open Foundation

/-- The values the `status` column admits. -/
inductive QueueStatus where
  | pending
  | processing
  | completed
  | failed
  | cancelled
  deriving DecidableEq, Repr

/-- What no statement changes any more. -/
def QueueStatus.IsFinal (st : QueueStatus) : Prop := st = .completed ∨ st = .cancelled

structure QueueRow (δ : Type) where
  id : Uuid
  project_id : Uuid
  data : δ
  status : QueueStatus := .pending
  error_message : Option String := none
  attempt_count : ℕ := 0
  max_attempts : ℕ := 5
  created_at : ℤ
  updated_at : ℤ
  completed_at : Option ℤ := none
  deriving DecidableEq, Repr

variable {δ : Type}

abbrev QueueTable (δ : Type) := Table (@QueueRow.id δ)

/-! ### Reading -/

/-- `ORDER BY created_at`. -/
def OlderLe (a b : QueueRow δ) : Prop := a.created_at ≤ b.created_at

instance : DecidableRel (@OlderLe δ) := fun a b => Int.decLe a.created_at b.created_at

def listPending (limit : ℕ) (t : QueueTable δ) : List (QueueRow δ) :=
  ((t.rows.filter fun r => r.status = .pending).insertionSort OlderLe).take limit

/-- The row with a given primary key. -/
def get (id : Uuid) (t : QueueTable δ) : Option (QueueRow δ) := t.lookup id

/-! ### Inserting -/

/-- The predicate of the partial unique indexes: `status NOT IN ('failed', 'cancelled')`. -/
def QueueRow.isActive (r : QueueRow δ) : Bool := r.status ≠ .failed ∧ r.status ≠ .cancelled

/-- The row that an insert makes. -/
def newRow (now : ℤ) (id project_id : Uuid) (data : δ) : QueueRow δ :=
  { id := id, project_id := project_id, data := data, created_at := now, updated_at := now }

/-- `ON CONFLICT … DO NOTHING`: an item that an active one stands in the way of is skipped. -/
def enqueue (conflicts : QueueRow δ → QueueRow δ → Bool) (now : ℤ) (id project_id : Uuid)
    (data : δ) (t : QueueTable δ) : Option (QueueTable δ) :=
  let row := newRow now id project_id data
  if t.rows.any fun q => q.isActive && conflicts q row then some t else t.insert row

/-! ### Guarded updates -/

/-- `WHERE id = $1 AND status = …`. -/
def hasStatus (id : Uuid) (st : QueueStatus) (r : QueueRow δ) : Bool := r.id = id ∧ r.status = st

/-- An update of the row `id` in status `st`, and whether `rows_affected() > 0`. -/
def updateInStatus (id : Uuid) (st : QueueStatus) (f : QueueRow δ → QueueRow δ)
    (hf : ∀ r, (f r).id = r.id) (t : QueueTable δ) : Bool × QueueTable δ :=
  (t.rows.countP (hasStatus id st) > 0, t.update (hasStatus id st) f hf)

def markProcessing (now : ℤ) (r : QueueRow δ) : QueueRow δ :=
  { r with status := .processing, updated_at := now }

def claim (now : ℤ) (id : Uuid) : QueueTable δ → Bool × QueueTable δ :=
  updateInStatus id .pending (markProcessing now) fun _ => rfl

/-- `set` writes the columns of the result. -/
def markCompleted (now : ℤ) (set : δ → δ) (r : QueueRow δ) : QueueRow δ :=
  { r with
    data := set r.data
    status := .completed
    completed_at := some now
    updated_at := now
    error_message := none }

def complete (now : ℤ) (set : δ → δ) (id : Uuid) : QueueTable δ → Bool × QueueTable δ :=
  updateInStatus id .processing (markCompleted now set) fun _ => rfl

/-- The status after another attempt has failed. -/
def QueueRow.nextStatus (r : QueueRow δ) : QueueStatus :=
  if r.attempt_count + 1 ≥ r.max_attempts then .failed else .pending

def markAttempt (now : ℤ) (error_msg : String) (r : QueueRow δ) : QueueRow δ :=
  { r with
    attempt_count := r.attempt_count + 1
    error_message := some error_msg
    status := r.nextStatus
    updated_at := now }

def fail (now : ℤ) (error_msg : String) (id : Uuid) : QueueTable δ → Bool × QueueTable δ :=
  updateInStatus id .processing (markAttempt now error_msg) fun _ => rfl

def markFailed (now : ℤ) (error_msg : String) (r : QueueRow δ) : QueueRow δ :=
  { r with
    status := .failed
    error_message := some error_msg
    attempt_count := r.max_attempts
    updated_at := now }

def failPermanent (now : ℤ) (error_msg : String) (id : Uuid) :
    QueueTable δ → Bool × QueueTable δ :=
  updateInStatus id .processing (markFailed now error_msg) fun _ => rfl

def markCancelled (now : ℤ) (r : QueueRow δ) : QueueRow δ :=
  { r with status := .cancelled, updated_at := now }

def cancel (now : ℤ) (id : Uuid) : QueueTable δ → Bool × QueueTable δ :=
  updateInStatus id .pending (markCancelled now) fun _ => rfl

def markRetried (now : ℤ) (r : QueueRow δ) : QueueRow δ :=
  { r with status := .pending, error_message := none, attempt_count := 0, updated_at := now }

/-- A failed item becomes active again; `none` if that violates the unique index. -/
def retry (conflicts : QueueRow δ → QueueRow δ → Bool) (now : ℤ) (id : Uuid) (t : QueueTable δ) :
    Option (Bool × QueueTable δ) :=
  if t.rows.any fun r => hasStatus id .failed r &&
      t.rows.any fun q => q.isActive && conflicts q r then none
  else some (updateInStatus id .failed (markRetried now) (fun _ => rfl) t)

/-- The variants for the API: the project has to match as well. -/
def ofProject (id project_id : Uuid) (t : QueueTable δ) : Bool :=
  (get id t).any fun r => r.project_id = project_id

def cancelForProject (now : ℤ) (id project_id : Uuid) (t : QueueTable δ) : Bool × QueueTable δ :=
  if ofProject id project_id t then cancel now id t else (false, t)

def retryForProject (conflicts : QueueRow δ → QueueRow δ → Bool) (now : ℤ) (id project_id : Uuid)
    (t : QueueTable δ) : Option (Bool × QueueTable δ) :=
  if ofProject id project_id t then retry conflicts now id t else some (false, t)

/-! ### Unguarded updates -/

/-- `update_progress` is guarded by the id alone. -/
def markProgress (now : ℤ) (set : δ → δ) (r : QueueRow δ) : QueueRow δ :=
  { r with data := set r.data, updated_at := now }

def updateProgress (now : ℤ) (set : δ → δ) (id : Uuid) (t : QueueTable δ) : QueueTable δ :=
  t.update (·.id = id) (markProgress now set) fun _ => rfl

/-- An item that is processed without a sign of its worker for too long. -/
def isStale (now : ℤ) (stale_minutes : ℕ) (r : QueueRow δ) : Bool :=
  r.status = .processing ∧ r.updated_at < now - minutes stale_minutes

def staleMessage (r : QueueRow δ) : String :=
  if r.attempt_count + 1 ≥ r.max_attempts then
    "permanently failed: exceeded max retries after stale recovery"
  else "recovered from stale processing state"

def markRecovered (now : ℤ) (r : QueueRow δ) : QueueRow δ := markAttempt now (staleMessage r) r

def recoverStale (now : ℤ) (stale_minutes : ℕ) (t : QueueTable δ) : QueueTable δ :=
  t.update (isStale now stale_minutes) (markRecovered now) fun _ => rfl

/-! ### The updates of a row -/

@[simp] lemma get_updateInStatus (id id' : Uuid) (st : QueueStatus) (f : QueueRow δ → QueueRow δ)
    (hf : ∀ r, (f r).id = r.id) (t : QueueTable δ) : get id' (updateInStatus id st f hf t).2 =
      (get id' t).map fun r => if hasStatus id st r then f r else r := by
  simp [get, updateInStatus]

@[simp] lemma get_updateProgress (now : ℤ) (set : δ → δ) (id id' : Uuid) (t : QueueTable δ) :
    get id' (updateProgress now set id t) = (get id' t).map fun r =>
      if r.id = id then markProgress now set r else r := by
  have hlookup := Table.lookup_update (fun r : QueueRow δ => r.id = id) (markProgress now set)
    (fun _ => rfl) t id'
  simp only [decide_eq_true_eq] at hlookup
  exact hlookup

@[simp] lemma get_recoverStale (now : ℤ) (stale_minutes : ℕ) (id' : Uuid) (t : QueueTable δ) :
    get id' (recoverStale now stale_minutes t) = (get id' t).map fun r =>
      if isStale now stale_minutes r then markRecovered now r else r :=
  Table.lookup_update (isStale now stale_minutes) (markRecovered now) (fun _ => rfl) t id'

lemma id_of_get {id : Uuid} {t : QueueTable δ} {r : QueueRow δ} (h : get id t = some r) :
    r.id = id := Table.key_of_lookup h

lemma hasStatus_iff {id : Uuid} {st : QueueStatus} {r : QueueRow δ} :
    hasStatus id st r ↔ r.id = id ∧ r.status = st := by
  simp [hasStatus]

/-- What a statement may make of a row. -/
inductive RowChange (q : QueueRow δ) : QueueRow δ → Prop
  | same : RowChange q q
  | claimed (now : ℤ) (hst : q.status = .pending) : RowChange q (markProcessing now q)
  | completed (now : ℤ) (set : δ → δ) (hst : q.status = .processing) :
    RowChange q (markCompleted now set q)
  | attempted (now : ℤ) (error_msg : String) (hst : q.status = .processing) :
    RowChange q (markAttempt now error_msg q)
  | failed (now : ℤ) (error_msg : String) (hst : q.status = .processing) :
    RowChange q (markFailed now error_msg q)
  | cancelled (now : ℤ) (hst : q.status = .pending) : RowChange q (markCancelled now q)
  | retried (now : ℤ) (hst : q.status = .failed) : RowChange q (markRetried now q)
  | progress (now : ℤ) (set : δ → δ) : RowChange q (markProgress now set q)

/-- The rows of `t'` are those of `t`, as a statement may have left them. -/
def RowsChange (t t' : QueueTable δ) : Prop :=
  ∀ id, Option.Rel RowChange (get id t) (get id t')

lemma RowsChange.of_map {t t' : QueueTable δ} {f : QueueRow δ → QueueRow δ}
    (hmap : ∀ id, get id t' = (get id t).map f) (hf : ∀ q, RowChange q (f q)) :
    RowsChange t t' := by
  intro id
  rw [hmap id]
  cases get id t with
  | none => exact .none
  | some q => exact .some (hf q)

lemma RowsChange.refl (t : QueueTable δ) : RowsChange t t := by
  apply RowsChange.of_map (f := id)
  · intro id
    rw [Option.map_id, id_eq]
  · intro q
    exact .same

lemma rowsChange_updateInStatus {id : Uuid} {st : QueueStatus} {f : QueueRow δ → QueueRow δ}
    {hf : ∀ r, (f r).id = r.id} {t : QueueTable δ}
    (hchange : ∀ q, q.status = st → RowChange q (f q)) :
    RowsChange t (updateInStatus id st f hf t).2 := by
  apply RowsChange.of_map (fun id' => get_updateInStatus id id' st f hf t)
  intro q
  split_ifs with hst
  · exact hchange q (hasStatus_iff.mp hst).2
  · exact .same

lemma rowsChange_updateProgress (now : ℤ) (set : δ → δ) (id : Uuid) (t : QueueTable δ) :
    RowsChange t (updateProgress now set id t) := by
  apply RowsChange.of_map (fun id' => get_updateProgress now set id id' t)
  intro q
  split_ifs
  · exact .progress now set
  · exact .same

lemma rowsChange_recoverStale (now : ℤ) (stale_minutes : ℕ) (t : QueueTable δ) :
    RowsChange t (recoverStale now stale_minutes t) := by
  apply RowsChange.of_map (fun id' => get_recoverStale now stale_minutes id' t)
  intro q
  split_ifs with hstale
  · exact .attempted now _ (of_decide_eq_true hstale).1
  · exact .same

lemma rowsChange_retry {conflicts : QueueRow δ → QueueRow δ → Bool} {now : ℤ} {id : Uuid}
    {t : QueueTable δ} {r : Bool × QueueTable δ} (h : retry conflicts now id t = some r) :
    RowsChange t r.2 := by
  simp only [retry] at h
  split_ifs at h
  obtain rfl := Option.some.inj h
  exact rowsChange_updateInStatus fun q hst => .retried now hst

lemma rowsChange_cancel (now : ℤ) (id : Uuid) (t : QueueTable δ) :
    RowsChange t (cancel now id t).2 :=
  rowsChange_updateInStatus fun _ hst => .cancelled now hst

/-- An item that has been inserted is pending, with attempts left. -/
lemma get_enqueue {conflicts : QueueRow δ → QueueRow δ → Bool} {now : ℤ} {id project_id : Uuid}
    {data : δ} {t t' : QueueTable δ} (h : enqueue conflicts now id project_id data t = some t')
    (id' : Uuid) : get id' t' = get id' t ∨
      get id' t = none ∧ get id' t' = some (newRow now id project_id data) := by
  simp only [enqueue] at h
  split_ifs at h
  · obtain rfl := Option.some.inj h
    exact .inl rfl
  · have hget := Table.lookup_insert h id'
    split_ifs at hget with hid
    · subst hid
      exact .inr ⟨Table.lookup_eq_none_of_insert h, hget⟩
    · exact .inl hget

end Arbeiterfarm.Queues
