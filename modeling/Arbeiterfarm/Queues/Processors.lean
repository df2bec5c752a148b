import Arbeiterfarm.Foundation.Exec
import Arbeiterfarm.Queues.Statements
import Mathlib.Logic.Function.Basic

/-!
# The queue processors

Any number of workers go through a queue: a pass recovers stale items, lists what is pending,
and claims, processes and reports one item after the other. Users enqueue, cancel and retry
items at any time. A statement may fail or its answer may get lost, and a worker may stop at any
point.

Three history variables are read by no step: `claims` counts the claims, `holder` is the last
claim of each item, and `recorded` lists the outcomes that were written.
-/

namespace Arbeiterfarm.Queues

open Foundation

/-- What the three queues and their processors differ in. -/
structure QueueKind where
  Data : Type
  /-- What `complete` is given besides the id. -/
  Result : Type
  /-- What `update_progress` is given besides the id. -/
  Progress : Type
  /-- The columns of the partial unique index agree. -/
  conflicts : QueueRow Data → QueueRow Data → Bool
  complete : Result → Data → Data
  progress : Progress → Data → Data
  /-- How many items a pass lists. -/
  batchSize : ℕ
  /-- The processor tells permanent failures apart. -/
  permanent : Bool
  /-- The processor logs a statement that fails and goes on; otherwise its pass is over. -/
  goesOn : Bool
  /-- The processor reports a failure when `complete` returns an error. -/
  failsOnError : Bool
  /-- A listener processes single items as well. -/
  listens : Bool
  /-- The processor leaves an item as it is when it cannot look up where to deliver it. -/
  leaves : Bool

/-- The counts of chunks are unbounded here; the columns and the casts are `i32`. -/
structure EmbedData where
  chunks_artifact_id : Uuid
  source_artifact_id : Option Uuid
  tool_name : String
  chunk_count : Option ℕ := none
  chunks_embedded : ℕ := 0
  deriving DecidableEq, Repr

def embedProgress (p : ℕ × Option ℕ) (d : EmbedData) : EmbedData :=
  { d with chunks_embedded := p.1, chunk_count := p.2 <|> d.chunk_count }

abbrev embedQueue : QueueKind where
  Data := EmbedData
  Result := Unit
  Progress := ℕ × Option ℕ
  conflicts q r := q.data.chunks_artifact_id = r.data.chunks_artifact_id
  complete _ d := d
  progress := embedProgress
  batchSize := 10
  permanent := false
  goesOn := false
  failsOnError := false
  listens := false
  leaves := false

structure UrlIngestData where
  url : String
  title : Option String := none
  content_length : Option ℕ := none
  text_artifact_id : Option Uuid := none
  chunks_artifact_id : Option Uuid := none
  chunk_count : Option ℕ := none
  submitted_by : Option Uuid
  deriving DecidableEq, Repr

structure UrlIngestResult where
  title : Option String
  content_length : ℕ
  text_artifact_id : Uuid
  chunks_artifact_id : Uuid
  chunk_count : ℕ

abbrev urlIngestQueue : QueueKind where
  Data := UrlIngestData
  Result := UrlIngestResult
  Progress := Empty
  conflicts q r := q.project_id = r.project_id ∧ q.data.url = r.data.url
  complete res d :=
    { d with
      title := res.title
      content_length := some res.content_length
      text_artifact_id := some res.text_artifact_id
      chunks_artifact_id := some res.chunks_artifact_id
      chunk_count := some res.chunk_count }
  progress p := p.elim
  batchSize := 5
  permanent := false
  goesOn := false
  failsOnError := true
  listens := false
  leaves := false

structure NotificationData where
  channel_id : Uuid
  subject : String
  body : String
  attachment_artifact_id : Option Uuid
  submitted_by : Option Uuid
  deriving DecidableEq, Repr

abbrev notificationQueue : QueueKind where
  Data := NotificationData
  Result := Unit
  Progress := Empty
  conflicts _ _ := false
  complete _ d := d
  progress p := p.elim
  batchSize := 20
  permanent := true
  goesOn := true
  failsOnError := false
  listens := true
  leaves := true

inductive QueueName where
  | embed
  | urlIngest
  | notification
  deriving DecidableEq, Repr

def QueueName.kind : QueueName → QueueKind
  | .embed => embedQueue
  | .urlIngest => urlIngestQueue
  | .notification => notificationQueue

/-! ### The system -/

abbrev WorkerId := ℕ

/-- Where a worker stands. A claim is known by its number. -/
inductive WorkerPhase where
  | idle
  | claiming (due : List Uuid)
  | processing (id : Uuid) (claim : ℕ) (due : List Uuid)
  /-- `complete` has returned an error, which is to be reported. -/
  | failing (id : Uuid) (claim : ℕ) (due : List Uuid)
  deriving DecidableEq, Repr

/-- The item that a worker is at work on, and its claim. -/
def WorkerPhase.atWork : WorkerPhase → Option (Uuid × ℕ)
  | .idle | .claiming _ => none
  | .processing id n _ | .failing id n _ => some (id, n)

/-- An outcome that was written: the claim of its reporter, and the last claim of the item. -/
structure Recorded where
  item : Uuid
  claim : ℕ
  current : Option ℕ
  deriving DecidableEq, Repr

structure QueueState (K : QueueKind) where
  now : ℤ
  rows : QueueTable K.Data
  workers : WorkerId → WorkerPhase
  claims : ℕ
  holder : Uuid → Option ℕ
  recorded : List Recorded

/-- The outcome that a worker reports. -/
inductive Report (K : QueueKind) where
  | complete (res : K.Result)
  | fail (error_msg : String)
  | failPermanent (error_msg : String)
  /-- The channel of a notification cannot be looked up; the item stays as it is. -/
  | leave

inductive QueueAction (K : QueueKind) where
  | clock (d : ℕ)
  | enqueue (id project_id : Uuid) (data : K.Data)
  | cancel (id : Uuid) (e : Execution)
  | cancelForProject (id project_id : Uuid) (e : Execution)
  | retry (id : Uuid) (e : Execution)
  | retryForProject (id project_id : Uuid) (e : Execution)
  | recoverStale (e : Execution)
  | list (k : WorkerId)
  | listen (k : WorkerId) (id : Uuid)
  | claim (k : WorkerId) (e : Execution)
  | progress (k : WorkerId) (p : K.Progress) (e : Execution)
  | report (k : WorkerId) (r : Report K) (e : Execution)
  | crash (k : WorkerId)

/-- How long an item may be processed without a sign of its worker. -/
def staleProcessingMinutes : ℕ := 2

variable {K : QueueKind}

namespace QueueState

def init (K : QueueKind) : QueueState K := ⟨0, Table.empty _, fun _ => .idle, 0, fun _ => none, []⟩

def setWorker (s : QueueState K) (k : WorkerId) (phase : WorkerPhase) : QueueState K :=
  { s with workers := Function.update s.workers k phase }

/-- The rows after a statement that would leave `rows`. -/
def execute (s : QueueState K) (e : Execution) (rows : QueueTable K.Data) : QueueState K :=
  { s with rows := e.apply s.rows rows }

/-- The rest of a pass after a statement. -/
def rest (K : QueueKind) (e : Execution) (due : List Uuid) : WorkerPhase :=
  if e = .answered ∨ K.goesOn then .claiming due else .idle

/-- A claim that takes an item counts, whether its answer arrives or not. -/
def claimItem (s : QueueState K) (k : WorkerId) (e : Execution) : Option (QueueState K) :=
  match s.workers k with
  | .claiming (id :: due) =>
    let (claimed, rows) := claim s.now id s.rows
    let s' := s.execute e rows
    if e.executed ∧ claimed then
      let s' := { s' with
        claims := s.claims + 1, holder := Function.update s.holder id (some s.claims) }
      some (s'.setWorker k (if e = .answered then .processing id s.claims due else rest K e due))
    else some (s'.setWorker k (rest K e due))
  | _ => none

/-- An outcome for the item `id`; it is recorded if it is written. -/
def reportItem (s : QueueState K) (id : Uuid) (n : ℕ) (e : Execution)
    (result : Bool × QueueTable K.Data) : QueueState K :=
  let s' := s.execute e result.2
  if e.executed ∧ result.1 then
    { s' with recorded := s.recorded ++ [⟨id, n, s.holder id⟩] }
  else s'

def report (s : QueueState K) (k : WorkerId) (r : Report K) (e : Execution) :
    Option (QueueState K) :=
  match s.workers k, r with
  | .processing id n due, .complete res =>
    some ((s.reportItem id n e (complete s.now (K.complete res) id s.rows)).setWorker k
      (if e ≠ .answered ∧ K.failsOnError then .failing id n due else rest K e due))
  | .processing id n due, .fail msg | .failing id n due, .fail msg =>
    some ((s.reportItem id n e (fail s.now msg id s.rows)).setWorker k (rest K e due))
  | .processing id n due, .failPermanent msg =>
    if K.permanent then
      some ((s.reportItem id n e (failPermanent s.now msg id s.rows)).setWorker k (rest K e due))
    else none
  | .processing _ _ due, .leave =>
    if K.leaves then some (s.setWorker k (.claiming due)) else none
  | _, _ => none

/-- One statement or decision of one party. -/
def step (s : QueueState K) : QueueAction K → Option (QueueState K)
  | .clock d => some { s with now := s.now + d }
  | .enqueue id project_id data =>
    (Queues.enqueue K.conflicts s.now id project_id data s.rows).map fun rows =>
      { s with rows := rows }
  | .cancel id e => some (s.execute e (Queues.cancel s.now id s.rows).2)
  | .cancelForProject id project_id e =>
    some (s.execute e (Queues.cancelForProject s.now id project_id s.rows).2)
  | .retry id e =>
    (Queues.retry K.conflicts s.now id s.rows).map fun r => s.execute e r.2
  | .retryForProject id project_id e =>
    (Queues.retryForProject K.conflicts s.now id project_id s.rows).map fun r => s.execute e r.2
  | .recoverStale e => some (s.execute e (Queues.recoverStale s.now staleProcessingMinutes s.rows))
  | .list k =>
    match s.workers k with
    | .idle | .claiming [] =>
      some (s.setWorker k (.claiming ((listPending K.batchSize s.rows).map (·.id))))
    | _ => none
  | .listen k id =>
    if K.listens ∧ (s.workers k).atWork = none then some (s.setWorker k (.claiming [id])) else none
  | .claim k e => s.claimItem k e
  | .progress k p e =>
    match s.workers k with
    | .processing id _ _ => some (s.execute e (updateProgress s.now (K.progress p) id s.rows))
    | _ => none
  | .report k r e => s.report k r e
  | .crash k => some (s.setWorker k .idle)

/-! ### What a step can do -/

/-- The steps, by what they do to the history: most leave it alone. -/
inductive QueueRule (s : QueueState K) : QueueAction K → QueueState K → Prop
  | other (a rows now) (hrows : RowsChange s.rows rows) :
    QueueRule s a { s with rows := rows, now := now }
  | inserted (id project_id data rows)
    (h : Queues.enqueue K.conflicts s.now id project_id data s.rows = some rows) :
    QueueRule s (.enqueue id project_id data) { s with rows := rows }
  | free (a k rows) (phase : WorkerPhase) (hrows : RowsChange s.rows rows)
    (hphase : phase.atWork = none) :
    QueueRule s a ({ s with rows := rows }.setWorker k phase)
  | claimed (k id due e rows) (phase : WorkerPhase) (hk : s.workers k = .claiming (id :: due))
    (he : e.executed = true) (hclaim : (claim s.now id s.rows).1 = true)
    (hrows : RowsChange s.rows rows)
    (hphase : phase.atWork = none ∨ phase.atWork = some (id, s.claims)) :
    QueueRule s (.claim k e)
      ({ s with
        rows := rows
        claims := s.claims + 1
        holder := Function.update s.holder id (some s.claims) }.setWorker k phase)
  | reported (k r e id n rows) (phase : WorkerPhase) (hk : (s.workers k).atWork = some (id, n))
    (hrows : RowsChange s.rows rows)
    (hphase : phase.atWork = none ∨ phase.atWork = some (id, n)) :
    QueueRule s (.report k r e)
      ({ s with
        rows := rows
        recorded := s.recorded ++ [Recorded.mk id n (s.holder id)] }.setWorker k phase)
  | unrecorded (k r e id n rows) (phase : WorkerPhase) (hk : (s.workers k).atWork = some (id, n))
    (hrows : RowsChange s.rows rows)
    (hphase : phase.atWork = none ∨ phase.atWork = some (id, n)) :
    QueueRule s (.report k r e) ({ s with rows := rows }.setWorker k phase)

lemma atWork_rest (e : Execution) (due : List Uuid) : (rest K e due).atWork = none := by
  simp only [rest]
  split_ifs <;> rfl

lemma rowsChange_apply (e : Execution) {t t' : QueueTable K.Data} (h : RowsChange t t') :
    RowsChange t (e.apply t t') :=
  e.apply_preserves (RowsChange.refl t) h

/-- A report is recorded or not; in either case the worker keeps its claim or lets it go. -/
lemma QueueRule.of_reportItem {s : QueueState K} {k : WorkerId} {r : Report K} {e : Execution}
    {id : Uuid} {n : ℕ} {result : Bool × QueueTable K.Data} {phase : WorkerPhase}
    (hk : (s.workers k).atWork = some (id, n)) (hrows : RowsChange s.rows result.2)
    (hphase : phase.atWork = none ∨ phase.atWork = some (id, n)) :
    QueueRule s (.report k r e) ((s.reportItem id n e result).setWorker k phase) := by
  simp only [reportItem]
  split_ifs
  · exact .reported k r e id n _ phase hk (rowsChange_apply e hrows) hphase
  · exact .unrecorded k r e id n _ phase hk (rowsChange_apply e hrows) hphase

lemma QueueRule.of_report {s t : QueueState K} {k : WorkerId} {r : Report K} {e : Execution}
    (h : s.report k r e = some t) : QueueRule s (.report k r e) t := by
  have hfail (msg : String) (id : Uuid) : RowsChange s.rows (fail s.now msg id s.rows).2 :=
    rowsChange_updateInStatus fun _ hst => .attempted s.now msg hst
  simp only [report] at h
  split at h
  · next id n due res hk =>
    obtain rfl := Option.some.inj h
    refine .of_reportItem (by rw [hk]; rfl)
      (rowsChange_updateInStatus fun _ hst => .completed s.now _ hst) ?_
    split_ifs
    · exact .inr rfl
    · exact .inl (atWork_rest e due)
  · next id n due msg hk =>
    obtain rfl := Option.some.inj h
    exact .of_reportItem (by rw [hk]; rfl) (hfail msg id) (.inl (atWork_rest e due))
  · next id n due msg hk =>
    obtain rfl := Option.some.inj h
    exact .of_reportItem (by rw [hk]; rfl) (hfail msg id) (.inl (atWork_rest e due))
  · next id n due msg hk =>
    split_ifs at h
    obtain rfl := Option.some.inj h
    exact .of_reportItem (by rw [hk]; rfl)
      (rowsChange_updateInStatus fun _ hst => .failed s.now msg hst) (.inl (atWork_rest e due))
  · split_ifs at h
    obtain rfl := Option.some.inj h
    exact .free _ k s.rows _ (RowsChange.refl _) rfl
  · cases h

lemma QueueRule.of_claimItem {s t : QueueState K} {k : WorkerId} {e : Execution}
    (h : s.claimItem k e = some t) : QueueRule s (.claim k e) t := by
  simp only [claimItem] at h
  split at h
  · next id due hk =>
    have hrows : RowsChange s.rows (e.apply s.rows (claim s.now id s.rows).2) :=
      rowsChange_apply e (rowsChange_updateInStatus fun _ hst => .claimed s.now hst)
    split_ifs at h with hclaim hanswered
    · obtain rfl := Option.some.inj h
      exact .claimed k id due e _ _ hk hclaim.1 hclaim.2 hrows (.inr rfl)
    · obtain rfl := Option.some.inj h
      exact .claimed k id due e _ _ hk hclaim.1 hclaim.2 hrows (.inl (atWork_rest e due))
    · obtain rfl := Option.some.inj h
      exact .free _ k _ _ hrows (atWork_rest e due)
  · cases h

lemma QueueRule.of_step {s t : QueueState K} {a : QueueAction K} (h : s.step a = some t) :
    QueueRule s a t := by
  have hcancel (id : Uuid) : RowsChange s.rows (Queues.cancel s.now id s.rows).2 :=
    rowsChange_cancel s.now id s.rows
  cases a with
  | clock d =>
    obtain rfl := Option.some.inj h
    exact .other _ s.rows _ (RowsChange.refl _)
  | enqueue id project_id data =>
    obtain ⟨rows, hrows, rfl⟩ := Option.map_eq_some_iff.mp h
    exact .inserted id project_id data rows hrows
  | cancel id e =>
    obtain rfl := Option.some.inj h
    exact .other _ _ s.now (rowsChange_apply e (hcancel id))
  | cancelForProject id project_id e =>
    obtain rfl := Option.some.inj h
    refine .other _ _ s.now (rowsChange_apply e ?_)
    simp only [Queues.cancelForProject]
    split_ifs
    · exact hcancel id
    · exact RowsChange.refl _
  | retry id e =>
    obtain ⟨r, hr, rfl⟩ := Option.map_eq_some_iff.mp h
    exact .other _ _ s.now (rowsChange_apply e (rowsChange_retry hr))
  | retryForProject id project_id e =>
    obtain ⟨r, hr, rfl⟩ := Option.map_eq_some_iff.mp h
    refine .other _ _ s.now (rowsChange_apply e ?_)
    simp only [Queues.retryForProject] at hr
    split_ifs at hr
    · exact rowsChange_retry hr
    · obtain rfl := Option.some.inj hr
      exact RowsChange.refl _
  | recoverStale e =>
    obtain rfl := Option.some.inj h
    exact .other _ _ s.now (rowsChange_apply e (rowsChange_recoverStale _ _ _))
  | list k =>
    simp only [step] at h
    split at h
    · obtain rfl := Option.some.inj h
      exact .free _ k s.rows _ (RowsChange.refl _) rfl
    · obtain rfl := Option.some.inj h
      exact .free _ k s.rows _ (RowsChange.refl _) rfl
    · cases h
  | listen k id =>
    simp only [step] at h
    split_ifs at h
    obtain rfl := Option.some.inj h
    exact .free _ k s.rows _ (RowsChange.refl _) rfl
  | claim k e => exact .of_claimItem h
  | progress k p e =>
    simp only [step] at h
    split at h
    · obtain rfl := Option.some.inj h
      exact .other _ _ s.now (rowsChange_apply e (rowsChange_updateProgress _ _ _ _))
    · cases h
  | report k r e => exact .of_report h
  | crash k =>
    obtain rfl := Option.some.inj h
    exact .free _ k s.rows _ (RowsChange.refl _) rfl

end QueueState

end Arbeiterfarm.Queues
