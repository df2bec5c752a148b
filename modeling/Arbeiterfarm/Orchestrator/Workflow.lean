import Arbeiterfarm.Foundation.Exec
import Arbeiterfarm.Foundation.OrderedMap
import Arbeiterfarm.Orchestrator.Signals
import Mathlib.Algebra.GroupWithZero.Nat
import Mathlib.Data.List.Perm.Basic

/-!
# Workflow execution

`execute_workflow` takes the first remaining group, runs its agents, and lets their signals and
at most one replacement artifact change what remains. One step of the model is one iteration of
that loop; what the agents do in it (`GroupRun`) is arbitrary.
-/

namespace Arbeiterfarm.Orchestrator

open Foundation

structure WorkflowStep where
  agent : String
  group : ℕ
  prompt : String
  can_repivot : Bool := true
  timeout_secs : Option ℕ := none
  parallel : Bool := false
  deriving DecidableEq, Repr

/-- The remaining groups, by ascending group number. -/
abbrev Groups := OrderedMap ℕ WorkflowStep

def MAX_REPIVOTS : ℕ := 5

def alreadyPlanned (agent_name : String) (groups : Groups) : Bool :=
  groups.elems.any fun s => s.agent = agent_name

/-- The group that new steps join: the first remaining one, or a new one (a `u32` number). -/
def nextGroupNum (groups : Groups) (current_group_num : ℕ) : ℕ :=
  groups.firstKey?.getD ((current_group_num + 1) % 2 ^ 32)

/-! ### Signals -/

/-- Remove the agent from the groups that meet `p`, and the groups that become empty. -/
def removeAgent (p : ℕ → Bool) (agent : String) (groups : Groups) : Groups :=
  groups.filterMapGroups fun gnum steps =>
    if p gnum then
      let kept := steps.filter fun s => s.agent ≠ agent
      if kept = [] then none else some kept
    else some steps

/-- The first step of the agent in a group beyond the next one, unless it is in the next group. -/
def findBeyond (agent : String) (next_group_num : ℕ) :
    List (ℕ × List WorkflowStep) → Option (ℕ × WorkflowStep)
  | [] => none
  | (gnum, steps) :: rest =>
    if gnum = next_group_num then
      if steps.any fun s => s.agent = agent then none
      else findBeyond agent next_group_num rest
    else
      match steps.find? fun s => s.agent = agent with
      | some step => some (gnum, step)
      | none => findBeyond agent next_group_num rest

/-- Apply a signal; the second component is the signal when it is reported as applied. -/
def applySignal (known_agents : List String) (next_group_num : ℕ) (groups : Groups)
    (signal : AgentSignal) : Groups × Option AgentSignal :=
  match signal.kind with
  | .request =>
    if signal.target_agent ∉ known_agents then (groups, none)
    else if alreadyPlanned signal.target_agent groups then (groups, none)
    else
      let step : WorkflowStep :=
        { agent := signal.target_agent, group := next_group_num, prompt := signal.reason }
      (groups.push next_group_num step, some signal)
  | .skip =>
    let removed := alreadyPlanned signal.target_agent groups
    (removeAgent (fun _ => true) signal.target_agent groups, if removed then some signal else none)
  | .priority =>
    match findBeyond signal.target_agent next_group_num groups.entries with
    | none => (groups, none)
    | some (from_group, step) =>
      let step := { step with
        group := next_group_num
        prompt := step.prompt ++ " [PRIORITY: " ++ signal.reason ++ "]" }
      ((removeAgent (fun gnum => gnum = from_group) signal.target_agent groups).push
        next_group_num step, some signal)

def applySignals.go (known_agents : List String) (next_group_num : ℕ) :
    Groups → List AgentSignal → Groups × List AgentSignal
  | groups, [] => (groups, [])
  | groups, signal :: signals =>
    let (groups, applied) := applySignal known_agents next_group_num groups signal
    let (groups, rest) := go known_agents next_group_num groups signals
    (groups, applied.toList ++ rest)

/-- Apply the signals in order; the second component lists those that had an effect. -/
def applySignals (signals : List AgentSignal) (groups : Groups) (current_group_num : ℕ)
    (known_agents : List String) : Groups × List AgentSignal :=
  applySignals.go known_agents (nextGroupNum groups current_group_num) groups signals

/-! ### Repivot -/

/-- A replacement artifact, with its id as text. -/
structure ReplacementArtifact where
  id : String
  filename : String
  repivot_from : String
  deriving DecidableEq, Repr

def retargetSuffix (artifact : ReplacementArtifact) : String :=
  " [RETARGET: analyze new artifact " ++ artifact.id ++ " (" ++ artifact.filename ++
    ") instead of original " ++ artifact.repivot_from ++ "]"

/-- The step that runs a completed agent again; it cannot be repivoted once more. -/
def requeueStep (steps : List WorkflowStep) (artifact : ReplacementArtifact)
    (next_group_num : ℕ) (agent_name : String) : WorkflowStep :=
  let original_step := steps.find? fun s => s.agent = agent_name
  { agent := agent_name
    group := next_group_num
    prompt := (original_step.map (·.prompt)).getD "" ++ retargetSuffix artifact
    can_repivot := false
    timeout_secs := original_step.bind (·.timeout_secs)
    parallel := (original_step.map (·.parallel)).getD false }

def requeue (steps : List WorkflowStep) (artifact : ReplacementArtifact) (next_group_num : ℕ)
    (groups : Groups) (agent_name : String) : Groups :=
  let original_step := steps.find? fun s => s.agent = agent_name
  if alreadyPlanned agent_name groups then groups
  else if !(original_step.map (·.can_repivot)).getD true then groups
  else groups.push next_group_num (requeueStep steps artifact next_group_num agent_name)

/-- Steps that already mention a retarget are not annotated twice. -/
def annotate (artifact : ReplacementArtifact) (step : WorkflowStep) : WorkflowStep :=
  if step.prompt.toList.tails.any fun suffix => "[RETARGET:".toList.isPrefixOf suffix then step
  else { step with prompt := step.prompt ++ retargetSuffix artifact }

/-- Re-queue the completed agents for the new artifact and retarget what remains. -/
def repivot (steps : List WorkflowStep) (artifact : ReplacementArtifact)
    (completed_agents : List String) (current_group_num : ℕ) (groups : Groups) : Groups :=
  let next_group_num := nextGroupNum groups current_group_num
  (completed_agents.foldl (requeue steps artifact next_group_num) groups).filterMapGroups
    fun _ steps => some (steps.map (annotate artifact))

/-! ### The loop -/

/-- How the run of an agent ended: on time or not, with the content of its `Done` event. -/
structure StepResult where
  timed_out : Bool
  done_content : Option String
  deriving DecidableEq, Repr

/-- What happens while a group runs. A step has no result when its agent is not found. -/
structure GroupRun where
  parallel : List (Option StepResult)
  sequential : List (Option StepResult)
  /-- The outputs of the parallel agents, in the order in which they complete. -/
  completion : List (String × String)
  /-- The first replacement artifact since the start of the group. -/
  replacement : Option ReplacementArtifact
  deriving DecidableEq, Repr

def agentNames (steps : List WorkflowStep) (results : List (Option StepResult)) : List String :=
  (steps.zip results).filterMap fun (step, result) => result.map fun _ => step.agent

def timedOut (steps : List WorkflowStep) (results : List (Option StepResult)) : List String :=
  (steps.zip results).filterMap fun (step, result) =>
    result.bind fun r => if r.timed_out then some step.agent else none

def doneContents (steps : List WorkflowStep) (results : List (Option StepResult)) :
    List (String × String) :=
  (steps.zip results).filterMap fun (step, result) =>
    result.bind fun r => r.done_content.map (step.agent, ·)

def parallelSteps (steps : List WorkflowStep) : List WorkflowStep := steps.filter (·.parallel)

def sequentialSteps (steps : List WorkflowStep) : List WorkflowStep := steps.filter (!·.parallel)

/-- The run has a result for every step of the group. -/
def GroupRun.Fits (run : GroupRun) (steps : List WorkflowStep) : Prop :=
  run.parallel.length = (parallelSteps steps).length ∧
    run.sequential.length = (sequentialSteps steps).length ∧
    run.completion.Perm (doneContents (parallelSteps steps) run.parallel)

instance (run : GroupRun) (steps : List WorkflowStep) : Decidable (run.Fits steps) :=
  inferInstanceAs (Decidable (_ ∧ _ ∧ _))

/-- A workflow definition and the names of the agents that it may request. -/
structure Definition where
  steps : List WorkflowStep
  known_agents : List String

structure Workflow where
  groups : Groups
  repivot_count : ℕ
  completed_agents : List String
  /-- Ghost: the agents of the steps whose turn has come. -/
  executed : List String
  /-- Ghost: the agents that a signal requested after they had been executed. -/
  rerequested : List String

def Workflow.init (d : Definition) : Workflow where
  groups := d.steps.foldl (fun groups step => groups.push step.group step) .empty
  repivot_count := 0
  completed_agents := []
  executed := []
  rerequested := []

/-- The signals in the outputs of a group. -/
def GroupRun.signals (run : GroupRun) (steps : List WorkflowStep) : List AgentSignal :=
  let contents := run.completion ++ doneContents (sequentialSteps steps) run.sequential
  resolveConflicts (contents.flatMap fun (agent_name, content) => parseSignals content agent_name)

def GroupRun.completed (run : GroupRun) (steps : List WorkflowStep) : List String :=
  let agent_names := agentNames (parallelSteps steps) run.parallel ++
    agentNames (sequentialSteps steps) run.sequential
  let timed_out := timedOut (parallelSteps steps) run.parallel ++
    timedOut (sequentialSteps steps) run.sequential
  agent_names.filter (· ∉ timed_out)

/-- The targets of the requests among the applied signals. -/
def requested (applied : List AgentSignal) : List String :=
  (applied.filter fun s => s.kind = .request).map (·.target_agent)

/-- The state after the group `steps` has run; `groups` are the others. -/
def Workflow.afterGroup (d : Definition) (w : Workflow) (run : GroupRun)
    (current_group_num : ℕ) (steps : List WorkflowStep) (groups : Groups) : Workflow :=
  let executed := w.executed ++ steps.map (·.agent)
  let completed_agents := w.completed_agents ++ run.completed steps
  let (groups, applied) :=
    applySignals (run.signals steps) groups current_group_num d.known_agents
  let rerequested := w.rerequested ++ (requested applied).filter (· ∈ executed)
  match run.replacement with
  | some artifact =>
    if w.repivot_count < MAX_REPIVOTS then
      ⟨repivot d.steps artifact completed_agents current_group_num groups, w.repivot_count + 1,
        completed_agents, executed, rerequested⟩
    else ⟨groups, w.repivot_count, completed_agents, executed, rerequested⟩
  | none => ⟨groups, w.repivot_count, completed_agents, executed, rerequested⟩

/-- One iteration of the loop; it is not enabled once no group remains. -/
def Workflow.step (d : Definition) (w : Workflow) (run : GroupRun) : Option Workflow :=
  match w.groups.popFirst with
  | none => none
  | some (current_group_num, steps, groups) =>
    if run.Fits steps then some (w.afterGroup d run current_group_num steps groups) else none

end Arbeiterfarm.Orchestrator
