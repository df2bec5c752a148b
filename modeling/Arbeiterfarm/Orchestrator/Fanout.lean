import Arbeiterfarm.Core.Json
import Arbeiterfarm.Foundation.Exec
import Arbeiterfarm.Foundation.Table
import Mathlib.Data.List.ReduceOption
import Mathlib.Order.Nat

/-!
# Fan-out

At the end of each group `execute_workflow` looks for child artifacts that were created in the
project since the start of the group, and runs the whole workflow on each of them in a thread of
its own. The workflows of a project are interleaved arbitrarily; any tool may create an artifact
at any time. Which groups a workflow has is not modelled here: it runs any number of them.

Timestamps are read from one clock. Rows are inserted in the order of their timestamps.
-/

namespace Arbeiterfarm.Orchestrator

open Foundation

/-- Maximum fan-out depth. -/
def MAX_FANOUT_DEPTH : ℕ := 3

/-- Maximum number of child artifacts per fan-out. -/
def MAX_FANOUT_CHILDREN : ℕ := 50

structure ArtifactRow where
  id : Uuid
  sha256 : String
  /-- `metadata->>'fan_out_from'` -/
  fan_out_from : Option String
  created_at : ℕ
  deriving DecidableEq, Repr

/-- Where a workflow is in its loop. -/
inductive Phase where
  | idle
  | running (group_start_time : ℕ)
  /-- The parent artifacts that are left, with their children, and the child threads that the
  current one waits for. -/
  | fanningOut (batches : List (List ArtifactRow)) (awaited : List Uuid)
  | finished
  deriving DecidableEq, Repr

structure WorkflowThread where
  id : Uuid
  parent_thread_id : Option Uuid
  /-- The artifact that the thread was created for. -/
  artifact : Option ArtifactRow
  /-- Ghost: which fan-out of its parent created the thread. -/
  event : ℕ
  fanout_depth : ℕ
  visited_sha256 : List String
  /-- Ghost: the number of fan-outs that the workflow has made. -/
  events : ℕ
  phase : Phase
  deriving DecidableEq, Repr

structure Project where
  now : ℕ
  artifacts : Table ArtifactRow.id
  threads : Table WorkflowThread.id

def Project.init : Project := ⟨0, .empty _, .empty _⟩

/-! ### Fan-out of a group -/

def findFanoutArtifactsSince (since : ℕ) (artifacts : Table ArtifactRow.id) : List ArtifactRow :=
  artifacts.rows.filter fun a => since ≤ a.created_at && a.fan_out_from.isSome

/-- The children of each parent artifact. The parents come in the order of a hash map. -/
def byParent (artifacts : List ArtifactRow) (parents : List String) :
    Option (List (List ArtifactRow)) :=
  if parents.Perm (artifacts.filterMap (·.fan_out_from)).dedup then
    some (parents.map fun parent => artifacts.filter fun a => a.fan_out_from = some parent)
  else none

/-- The children that are looked at: the first ones, up to the cap. -/
def capped (children : List ArtifactRow) : List ArtifactRow := children.take MAX_FANOUT_CHILDREN

/-- The children that get a thread: not those whose hash was analysed before. -/
def unvisited (t : WorkflowThread) (children : List ArtifactRow) : List ArtifactRow :=
  (capped children).filter fun a => a.sha256 ∉ t.visited_sha256

/-- The new threads of a batch; an id is missing when the thread cannot be created. -/
def childThreads (t : WorkflowThread) (children : List ArtifactRow) (ids : List (Option Uuid)) :
    List WorkflowThread :=
  let child_visited := t.visited_sha256 ++ (capped children).map (·.sha256)
  ((unvisited t children).zip ids).filterMap fun (artifact, id) => id.map fun id =>
    { id := id
      parent_thread_id := some t.id
      artifact := some artifact
      event := t.events
      fanout_depth := t.fanout_depth + 1
      visited_sha256 := child_visited
      events := 0
      phase := .idle }

/-! ### Steps -/

inductive FanoutAction where
  | tick (d : ℕ)
  /-- A user starts a workflow. -/
  | startWorkflow (id : Uuid)
  | createArtifact (id : Uuid) (sha256 : String) (fan_out_from : Option String)
  | startGroup (id : Uuid)
  /-- The agents of the group are done; there are no parents when the query fails. -/
  | endGroup (id : Uuid) (parents : Option (List String))
  | spawnChildren (id : Uuid) (ids : List (Option Uuid))
  | joinChildren (id : Uuid)
  | endFanout (id : Uuid)
  /-- The workflow ends, or its task panics. -/
  | finish (id : Uuid)
  deriving DecidableEq, Repr

def setPhase (phase : Phase) (t : WorkflowThread) : WorkflowThread := { t with phase := phase }

@[simp] lemma id_setPhase (phase : Phase) (t : WorkflowThread) : (setPhase phase t).id = t.id := rfl

/-- A fan-out that has started waits for its children. -/
def setSpawned (batches : List (List ArtifactRow)) (awaited : List Uuid) (t : WorkflowThread) :
    WorkflowThread :=
  { t with events := t.events + 1, phase := .fanningOut batches awaited }

@[simp] lemma id_setSpawned (batches : List (List ArtifactRow)) (awaited : List Uuid)
    (t : WorkflowThread) : (setSpawned batches awaited t).id = t.id := rfl

def Project.setPhase (s : Project) (id : Uuid) (phase : Phase) : Project :=
  { s with
    threads := s.threads.update (fun t => t.id = id) (Orchestrator.setPhase phase)
      (id_setPhase phase) }

def isFinished (s : Project) (id : Uuid) : Bool :=
  match s.threads.lookup id with
  | some t => t.phase = .finished
  | none => false

def rootThread (id : Uuid) : WorkflowThread := ⟨id, none, none, 0, 0, [], 0, .idle⟩

/-- The batches of the fan-out at the end of a group. -/
def fanoutBatches (t : WorkflowThread) (group_start_time : ℕ) (artifacts : Table ArtifactRow.id)
    (parents : Option (List String)) : Option (List (List ArtifactRow)) :=
  if t.fanout_depth < MAX_FANOUT_DEPTH then
    match parents with
    | some parents => byParent (findFanoutArtifactsSince group_start_time artifacts) parents
    | none => some []
  else some []

def Project.step (s : Project) : FanoutAction → Option Project
  | .tick d => some { s with now := s.now + d }
  | .startWorkflow id =>
    (s.threads.insert (rootThread id)).map fun threads => { s with threads := threads }
  | .createArtifact id sha256 fan_out_from =>
    (s.artifacts.insert ⟨id, sha256, fan_out_from, s.now⟩).map fun artifacts =>
      { s with artifacts := artifacts }
  | .startGroup id =>
    (s.threads.lookup id).bind fun t =>
      if t.phase = .idle then some (s.setPhase id (.running s.now)) else none
  | .endGroup id parents =>
    (s.threads.lookup id).bind fun t =>
      match t.phase with
      | .running group_start_time =>
        (fanoutBatches t group_start_time s.artifacts parents).map fun batches =>
          s.setPhase id (.fanningOut batches [])
      | _ => none
  | .spawnChildren id ids =>
    (s.threads.lookup id).bind fun t =>
      match t.phase with
      | .fanningOut (children :: batches) [] =>
        if ids.length = (unvisited t children).length then
          ((s.threads.update (fun t => t.id = id) (setSpawned batches ids.reduceOption)
            (id_setSpawned _ _)).insertAll (childThreads t children ids)).map fun threads =>
              { s with threads := threads }
        else none
      | _ => none
  | .joinChildren id =>
    (s.threads.lookup id).bind fun t =>
      match t.phase with
      | .fanningOut batches awaited =>
        if awaited.all (isFinished s) then some (s.setPhase id (.fanningOut batches [])) else none
      | _ => none
  | .endFanout id =>
    (s.threads.lookup id).bind fun t =>
      if t.phase = .fanningOut [] [] then some (s.setPhase id .idle) else none
  | .finish id =>
    (s.threads.lookup id).bind fun t =>
      if t.phase ≠ .finished then some (s.setPhase id .finished) else none

/-! ### What a step can do -/

/-- The steps, one constructor per action, with the facts each of them rests on. -/
inductive FanoutRule : Project → FanoutAction → Project → Prop
  | tick (s d) : FanoutRule s (.tick d) { s with now := s.now + d }
  | startWorkflow (s id threads) (h : s.threads.insert (rootThread id) = some threads) :
    FanoutRule s (.startWorkflow id) { s with threads := threads }
  | createArtifact (s id sha256 fan_out_from artifacts)
    (h : s.artifacts.insert ⟨id, sha256, fan_out_from, s.now⟩ = some artifacts) :
    FanoutRule s (.createArtifact id sha256 fan_out_from) { s with artifacts := artifacts }
  | startGroup (s id t) (ht : s.threads.lookup id = some t) (hphase : t.phase = .idle) :
    FanoutRule s (.startGroup id) (s.setPhase id (.running s.now))
  | endGroup (s id parents t group_start_time batches) (ht : s.threads.lookup id = some t)
    (hphase : t.phase = .running group_start_time)
    (h : fanoutBatches t group_start_time s.artifacts parents = some batches) :
    FanoutRule s (.endGroup id parents) (s.setPhase id (.fanningOut batches []))
  | spawnChildren (s id ids t children batches threads) (ht : s.threads.lookup id = some t)
    (hphase : t.phase = .fanningOut (children :: batches) [])
    (h : (s.threads.update (fun t => t.id = id) (setSpawned batches ids.reduceOption)
      (id_setSpawned _ _)).insertAll (childThreads t children ids) = some threads) :
    FanoutRule s (.spawnChildren id ids) { s with threads := threads }
  | joinChildren (s id t batches awaited) (ht : s.threads.lookup id = some t)
    (hphase : t.phase = .fanningOut batches awaited) :
    FanoutRule s (.joinChildren id) (s.setPhase id (.fanningOut batches []))
  | endFanout (s id t) (ht : s.threads.lookup id = some t) (hphase : t.phase = .fanningOut [] []) :
    FanoutRule s (.endFanout id) (s.setPhase id .idle)
  | finish (s id t) (ht : s.threads.lookup id = some t) :
    FanoutRule s (.finish id) (s.setPhase id .finished)

lemma FanoutRule.of_step {s u : Project} {a : FanoutAction} (h : s.step a = some u) :
    FanoutRule s a u := by
  cases a with
  | tick d =>
    obtain rfl := Option.some.inj h
    exact .tick s d
  | startWorkflow id =>
    obtain ⟨threads, hthreads, rfl⟩ := Option.map_eq_some_iff.mp h
    exact .startWorkflow s id threads hthreads
  | createArtifact id sha256 fan_out_from =>
    obtain ⟨artifacts, hartifacts, rfl⟩ := Option.map_eq_some_iff.mp h
    exact .createArtifact s id sha256 fan_out_from artifacts hartifacts
  | startGroup id =>
    obtain ⟨t, ht, h⟩ := Option.bind_eq_some_iff.mp h
    split_ifs at h with hphase
    obtain rfl := Option.some.inj h
    exact .startGroup s id t ht hphase
  | endGroup id parents =>
    obtain ⟨t, ht, h⟩ := Option.bind_eq_some_iff.mp h
    split at h
    · rename_i hphase
      obtain ⟨batches, hbatches, rfl⟩ := Option.map_eq_some_iff.mp h
      exact .endGroup s id parents t _ batches ht hphase hbatches
    · cases h
  | spawnChildren id ids =>
    obtain ⟨t, ht, h⟩ := Option.bind_eq_some_iff.mp h
    split at h
    · rename_i hphase
      split_ifs at h
      obtain ⟨threads, hthreads, rfl⟩ := Option.map_eq_some_iff.mp h
      exact .spawnChildren s id ids t _ _ threads ht hphase hthreads
    · cases h
  | joinChildren id =>
    obtain ⟨t, ht, h⟩ := Option.bind_eq_some_iff.mp h
    split at h
    · rename_i hphase
      split_ifs at h
      obtain rfl := Option.some.inj h
      exact .joinChildren s id t _ _ ht hphase
    · cases h
  | endFanout id =>
    obtain ⟨t, ht, h⟩ := Option.bind_eq_some_iff.mp h
    split_ifs at h with hphase
    obtain rfl := Option.some.inj h
    exact .endFanout s id t ht hphase
  | finish id =>
    obtain ⟨t, ht, h⟩ := Option.bind_eq_some_iff.mp h
    split_ifs at h
    obtain rfl := Option.some.inj h
    exact .finish s id t ht

lemma mem_childThreads {t u : WorkflowThread} {children : List ArtifactRow}
    {ids : List (Option Uuid)} (h : u ∈ childThreads t children ids) :
    ∃ a ∈ unvisited t children, u.parent_thread_id = some t.id ∧ u.artifact = some a ∧
      u.event = t.events ∧ u.fanout_depth = t.fanout_depth + 1 ∧
      u.visited_sha256 = t.visited_sha256 ++ (capped children).map (·.sha256) ∧
      u.events = 0 ∧ u.phase = .idle := by
  obtain ⟨⟨a, id⟩, hmem, heq⟩ := List.mem_filterMap.mp h
  obtain ⟨id, -, rfl⟩ := Option.map_eq_some_iff.mp heq
  exact ⟨a, (List.of_mem_zip hmem).1, rfl, rfl, rfl, rfl, rfl, rfl, rfl⟩

lemma length_childThreads_le (t : WorkflowThread) (children : List ArtifactRow)
    (ids : List (Option Uuid)) : (childThreads t children ids).length ≤ MAX_FANOUT_CHILDREN := by
  refine (List.length_filterMap_le _ _).trans ?_
  rw [List.length_zip]
  refine (Nat.min_le_left _ _).trans ((List.length_filter_le _ _).trans ?_)
  exact List.length_take_le _ _

end Arbeiterfarm.Orchestrator
