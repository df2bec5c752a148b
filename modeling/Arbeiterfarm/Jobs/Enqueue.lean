import Mathlib.Data.Int.Order.Basic
import Arbeiterfarm.Jobs.Worker

/-!
# The enqueuing transaction

`enqueue` counts the active runs of the user, compares the count with the quota and inserts the
new run, all in one transaction that first takes an advisory lock keyed by the user. The
transaction is modelled statement by statement, so that any number of them interleave with each
other and with the workers and the reaper. An inserted row is invisible to the others until its
transaction commits; a commit or a rollback releases the lock. Statements read what is committed
when they run.

The counter of `usage_daily` and the links to input artifacts are written by the same transaction
and read by none of its statements; an error in either of them is a rollback.
-/

namespace Arbeiterfarm.Jobs

open Foundation

inductive EnqueueError where
  | toolNotFound (name : String)
  | invalidInput (message : String)
  | db (message : String)
  | quotaExceeded (message : String)
  deriving DecidableEq, Repr

/-- The text of the error. -/
def EnqueueError.display : EnqueueError → String
  | .toolNotFound name => "tool not found: " ++ name
  | .invalidInput message => "invalid input: " ++ message
  | .db message => "database error: " ++ message
  | .quotaExceeded message => "quota exceeded: " ++ message

def concurrentRunLimit (max_concurrent_runs : ℤ) : EnqueueError :=
  .quotaExceeded ("concurrent run limit (" ++ toString max_concurrent_runs ++ ") reached")

/-- `status IN ('queued', 'running')`. -/
def RunStatus.active : RunStatus → Bool
  | .queued | .running => true
  | _ => false

def countsFor (uid : Uuid) (r : ToolRunRow) : Bool := r.actor_user_id = some uid ∧ r.status.active

def countActiveRuns (uid : Uuid) (t : ToolRuns) : ℕ := t.rows.countP (countsFor uid)

abbrev TxId := ℕ

/-- How far a transaction has come. -/
inductive TxPhase where
  | begun
  | locked
  | counted (active : ℕ)
  | admitted
  | inserted (row : ToolRunRow)
  deriving DecidableEq, Repr

structure EnqueueTx where
  req : EnqueueRequest
  started : ℤ
  phase : TxPhase

/-- The workers' farm with the open transactions, the advisory locks and what each call of
`enqueue` has returned. -/
structure JobSystem where
  farm : Farm
  locks : ℤ → Option TxId
  txs : TxId → Option EnqueueTx
  results : TxId → Option (Except EnqueueError Uuid)

def JobSystem.init : JobSystem := ⟨.init, fun _ => none, fun _ => none, fun _ => none⟩

/-- The transaction moves on. -/
def JobSystem.setPhase (s : JobSystem) (tx : TxId) (x : EnqueueTx) (phase : TxPhase) :
    JobSystem :=
  { s with txs := Function.update s.txs tx (some { x with phase := phase }) }

/-- The transaction ends: its advisory lock is released and the call returns. -/
def JobSystem.finish (s : JobSystem) (tx : TxId) (result : Except EnqueueError Uuid) :
    JobSystem :=
  { s with
    txs := Function.update s.txs tx none
    locks := fun key => if s.locks key = some tx then none else s.locks key
    results := Function.update s.results tx (some result) }

inductive SystemAction where
  | farm (a : Action)
  | begin (tx : TxId) (req : EnqueueRequest)
  | lock (tx : TxId)
  | count (tx : TxId)
  | quota (tx : TxId)
  | insert (tx : TxId) (id : Uuid)
  | commit (tx : TxId)
  | rollback (tx : TxId) (message : String)

section Step

variable (hashtext : Uuid → ℤ) (getQuota : Uuid → Option ℤ)

/-- `pool.begin()`; without a user there is nothing to check. -/
def beginTx (s : JobSystem) (tx : TxId) (req : EnqueueRequest) : Option JobSystem :=
  if s.txs tx = none ∧ s.results tx = none then
    some (s.setPhase tx ⟨req, s.farm.now, .begun⟩
      (if req.actor_user_id.isSome then .begun else .admitted))
  else none

/-- `pg_advisory_xact_lock(hashtext(uid))`; not enabled while another transaction holds it. -/
def lockUser (s : JobSystem) (tx : TxId) : Option JobSystem :=
  match s.txs tx with
  | some x =>
    match x.phase, x.req.actor_user_id with
    | .begun, some uid =>
      if s.locks (hashtext uid) = none then
        some { s.setPhase tx x .locked with
          locks := Function.update s.locks (hashtext uid) (some tx) }
      else none
    | _, _ => none
  | none => none

def countRuns (s : JobSystem) (tx : TxId) : Option JobSystem :=
  match s.txs tx with
  | some x =>
    match x.phase, x.req.actor_user_id with
    | .locked, some uid => some (s.setPhase tx x (.counted (countActiveRuns uid s.farm.rows)))
    | _, _ => none
  | none => none

/-- A user without a quota row is not limited. -/
def checkQuota (s : JobSystem) (tx : TxId) : Option JobSystem :=
  match s.txs tx with
  | some x =>
    match x.phase, x.req.actor_user_id with
    | .counted active, some uid =>
      match getQuota uid with
      | some max_concurrent_runs =>
        if (active : ℤ) ≥ max_concurrent_runs then
          some (s.finish tx (.error (concurrentRunLimit max_concurrent_runs)))
        else some (s.setPhase tx x .admitted)
      | none => some (s.setPhase tx x .admitted)
    | _, _ => none
  | none => none

/-- `INSERT INTO tool_runs`, not committed yet; `created_at` is the start of the transaction. -/
def insertRun (s : JobSystem) (tx : TxId) (id : Uuid) : Option JobSystem :=
  match s.txs tx with
  | some x =>
    match x.phase with
    | .admitted => some (s.setPhase tx x (.inserted (x.req.row x.started id)))
    | _ => none
  | none => none

/-- The row becomes visible; not enabled when its primary key has been taken meanwhile. -/
def commitTx (s : JobSystem) (tx : TxId) : Option JobSystem :=
  match s.txs tx with
  | some x =>
    match x.phase with
    | .inserted row =>
      (s.farm.rows.insert row).map fun rows =>
        { s with farm := { s.farm with rows := rows } }.finish tx (.ok row.id)
    | _ => none
  | none => none

/-- One of the statements has failed. -/
def rollbackTx (s : JobSystem) (tx : TxId) (message : String) : Option JobSystem :=
  (s.txs tx).map fun _ => s.finish tx (.error (.db message))

/-- One statement of one party. Runs enter the table through `commit` alone. -/
def JobSystem.step (s : JobSystem) : SystemAction → Option JobSystem
  | .farm a =>
    match a with
    | .enqueue _ _ => none
    | a => (s.farm.step a).map fun farm => { s with farm := farm }
  | .begin tx req => beginTx s tx req
  | .lock tx => lockUser hashtext s tx
  | .count tx => countRuns s tx
  | .quota tx => checkQuota getQuota s tx
  | .insert tx id => insertRun s tx id
  | .commit tx => commitTx s tx
  | .rollback tx message => rollbackTx s tx message

/-! ### What a step can do -/

/-- The steps of the system, with the facts each of them rests on. -/
inductive SystemRule : JobSystem → SystemAction → JobSystem → Prop
  | farm (s a farm) (ha : ∀ id req, a ≠ .enqueue id req) (h : s.farm.step a = some farm) :
    SystemRule s (.farm a) { s with farm := farm }
  | begin (s tx req) (htx : s.txs tx = none) :
    SystemRule s (.begin tx req) (s.setPhase tx ⟨req, s.farm.now, .begun⟩
      (if req.actor_user_id.isSome then .begun else .admitted))
  | lock (s tx x uid) (htx : s.txs tx = some x) (hphase : x.phase = .begun)
    (huid : x.req.actor_user_id = some uid) (hfree : s.locks (hashtext uid) = none) :
    SystemRule s (.lock tx) { s.setPhase tx x .locked with
      locks := Function.update s.locks (hashtext uid) (some tx) }
  | count (s tx x uid) (htx : s.txs tx = some x) (hphase : x.phase = .locked)
    (huid : x.req.actor_user_id = some uid) :
    SystemRule s (.count tx) (s.setPhase tx x (.counted (countActiveRuns uid s.farm.rows)))
  | exceeded (s tx x uid) (active : ℕ) (q : ℤ) (htx : s.txs tx = some x)
    (hphase : x.phase = .counted active)
    (huid : x.req.actor_user_id = some uid) (hq : getQuota uid = some q)
    (hge : (active : ℤ) ≥ q) :
    SystemRule s (.quota tx) (s.finish tx (.error (concurrentRunLimit q)))
  | admitted (s tx x uid) (active : ℕ) (htx : s.txs tx = some x)
    (hphase : x.phase = .counted active)
    (huid : x.req.actor_user_id = some uid)
    (hlt : ∀ q, getQuota uid = some q → (active : ℤ) < q) :
    SystemRule s (.quota tx) (s.setPhase tx x .admitted)
  | insert (s tx x id) (htx : s.txs tx = some x) (hphase : x.phase = .admitted) :
    SystemRule s (.insert tx id) (s.setPhase tx x (.inserted (x.req.row x.started id)))
  | commit (s tx x row rows) (htx : s.txs tx = some x) (hphase : x.phase = .inserted row)
    (h : s.farm.rows.insert row = some rows) :
    SystemRule s (.commit tx)
      ({ s with farm := { s.farm with rows := rows } }.finish tx (.ok row.id))
  | rollback (s tx x message) (htx : s.txs tx = some x) :
    SystemRule s (.rollback tx message) (s.finish tx (.error (.db message)))

lemma SystemRule.of_step {s t : JobSystem} {a : SystemAction}
    (h : s.step hashtext getQuota a = some t) : SystemRule hashtext getQuota s a t := by
  cases a with
  | farm a =>
    cases a with
    | enqueue id req => cases h
    | _ =>
      simp only [JobSystem.step] at h
      obtain ⟨farm, hfarm, rfl⟩ := Option.map_eq_some_iff.mp h
      exact .farm s _ farm (by simp) hfarm
  | begin tx req =>
    simp only [JobSystem.step, beginTx] at h
    split at h
    · rename_i hfree
      obtain rfl := Option.some.inj h
      exact .begin s tx req hfree.1
    · cases h
  | lock tx =>
    simp only [JobSystem.step, lockUser] at h
    split at h
    · rename_i x htx
      split at h
      · rename_i uid hphase huid
        split_ifs at h with hfree
        obtain rfl := Option.some.inj h
        exact .lock s tx x uid htx hphase huid hfree
      · cases h
    · cases h
  | count tx =>
    simp only [JobSystem.step, countRuns] at h
    split at h
    · rename_i x htx
      split at h
      · rename_i uid hphase huid
        obtain rfl := Option.some.inj h
        exact .count s tx x uid htx hphase huid
      · cases h
    · cases h
  | quota tx =>
    simp only [JobSystem.step, checkQuota] at h
    split at h
    · rename_i x htx
      split at h
      · rename_i active uid hphase huid
        split at h
        · rename_i q hq
          split_ifs at h with hge
          · obtain rfl := Option.some.inj h
            exact .exceeded s tx x uid active q htx hphase huid hq hge
          · obtain rfl := Option.some.inj h
            refine .admitted s tx x uid active htx hphase huid ?_
            intro q' hq'
            rw [hq, Option.some.injEq] at hq'
            subst hq'
            exact not_le.mp hge
        · rename_i hq
          obtain rfl := Option.some.inj h
          refine .admitted s tx x uid active htx hphase huid ?_
          intro q hq'
          simp [hq] at hq'
      · cases h
    · cases h
  | insert tx id =>
    simp only [JobSystem.step, insertRun] at h
    split at h
    · rename_i x htx
      split at h
      · rename_i hphase
        obtain rfl := Option.some.inj h
        exact .insert s tx x id htx hphase
      · cases h
    · cases h
  | commit tx =>
    simp only [JobSystem.step, commitTx] at h
    split at h
    · rename_i x htx
      split at h
      · rename_i row hphase
        obtain ⟨rows, hrows, rfl⟩ := Option.map_eq_some_iff.mp h
        exact .commit s tx x row rows htx hphase hrows
      · cases h
    · cases h
  | rollback tx message =>
    obtain ⟨x, htx, rfl⟩ := Option.map_eq_some_iff.mp h
    exact .rollback s tx x message htx

end Step

end Arbeiterfarm.Jobs
