import Arbeiterfarm.Orchestrator.Workflow
import Mathlib.Data.List.Basic

/-!
# The edits of a plan

One iteration of the loop of `execute_workflow` takes a group, applies the signals of its agents
one by one, and may repivot once. Here each of these edits is a step of its own, so that what holds
right after a signal or a repivot can be said. Each run of the loop is a run of these steps.
-/

namespace Arbeiterfarm.Orchestrator

open Foundation

/-- Whether the workflow lets the agent run again for a new artifact. -/
def canRepivot (steps : List WorkflowStep) (agent_name : String) : Bool :=
  ((steps.find? fun s => s.agent = agent_name).map (·.can_repivot)).getD true

/-- The agents that a repivot re-queues. -/
def requeuedAgents (steps : List WorkflowStep) (artifact : ReplacementArtifact)
    (next_group_num : ℕ) : Groups → List String → List String
  | _, [] => []
  | groups, agent_name :: agent_names =>
    let rest := requeuedAgents steps artifact next_group_num
      (requeue steps artifact next_group_num groups agent_name) agent_names
    if alreadyPlanned agent_name groups || !canRepivot steps agent_name then rest
    else agent_name :: rest

/-! ### The state between two edits -/

structure PlanState where
  groups : Groups
  repivot_count : ℕ
  completed_agents : List String
  /-- The group just executed, with what remained then, while its signals and its replacement
  artifact are handled. -/
  current : Option (ℕ × Groups)
  /-- Ghost: the numbers of the groups taken so far. -/
  order : List ℕ
  /-- Ghost: the signal just applied, with the plan before it. -/
  signaled : Option (AgentSignal × Groups)
  /-- Ghost: the replacement artifact of the repivot just made. -/
  retargeted : Option ReplacementArtifact
  /-- Ghost: the agents that have been re-queued so far. -/
  requeued : List String

/-- The agents of a group in the order in which they run. -/
def runOrder (steps : List WorkflowStep) : List String :=
  (parallelSteps steps ++ sequentialSteps steps).map (·.agent)

inductive PlanEdit where
  /-- The next group runs, and these of its agents complete. -/
  | takeGroup (completed : List String)
  | signal (s : AgentSignal)
  | repivot (artifact : ReplacementArtifact)
  deriving DecidableEq, Repr

def PlanState.init (d : Definition) : PlanState where
  groups := (Workflow.init d).groups
  repivot_count := 0
  completed_agents := []
  current := none
  order := []
  signaled := none
  retargeted := none
  requeued := []

def PlanState.takeGroup (p : PlanState) (completed : List String) (current_group_num : ℕ)
    (groups : Groups) : PlanState :=
  { p with
    groups := groups
    completed_agents := p.completed_agents ++ completed
    current := some (current_group_num, groups)
    order := p.order ++ [current_group_num]
    signaled := none
    retargeted := none }

/-- The signals of a group share the insertion group, which is determined before the first one. -/
def PlanState.signal (d : Definition) (p : PlanState) (s : AgentSignal) (current_group_num : ℕ)
    (remaining : Groups) : PlanState :=
  { p with
    groups :=
      (applySignal d.known_agents (nextGroupNum remaining current_group_num) p.groups s).1
    signaled := some (s, p.groups)
    retargeted := none }

def PlanState.repivot (d : Definition) (p : PlanState) (artifact : ReplacementArtifact)
    (current_group_num : ℕ) : PlanState :=
  { p with
    groups :=
      Orchestrator.repivot d.steps artifact p.completed_agents current_group_num p.groups
    repivot_count := p.repivot_count + 1
    current := none
    signaled := none
    retargeted := some artifact
    requeued := p.requeued ++ requeuedAgents d.steps artifact
      (nextGroupNum p.groups current_group_num) p.groups p.completed_agents }

/-- One edit. Signals and a repivot are for a group that has run, and after the repivot the next
group is taken. -/
def PlanState.step (d : Definition) (p : PlanState) : PlanEdit → Option PlanState
  | .takeGroup completed =>
    match p.groups.popFirst with
    | none => none
    | some (current_group_num, steps, groups) =>
      if completed.Sublist (runOrder steps) then
        some (p.takeGroup completed current_group_num groups)
      else none
  | .signal s =>
    match p.current with
    | none => none
    | some (current_group_num, remaining) => some (p.signal d s current_group_num remaining)
  | .repivot artifact =>
    match p.current with
    | none => none
    | some (current_group_num, _) =>
      if p.repivot_count < MAX_REPIVOTS then some (p.repivot d artifact current_group_num)
      else none

section

variable {d : Definition} {p q : PlanState}

lemma step_takeGroup {completed : List String} (h : p.step d (.takeGroup completed) = some q) :
    ∃ k steps groups, p.groups.popFirst = some (k, steps, groups) ∧
      completed.Sublist (runOrder steps) ∧ q = p.takeGroup completed k groups := by
  rw [PlanState.step] at h
  cases hpop : p.groups.popFirst with
  | none =>
    rw [hpop] at h
    cases h
  | some popped =>
    obtain ⟨k, steps, groups⟩ := popped
    rw [hpop] at h
    by_cases hsub : completed.Sublist (runOrder steps)
    · simp only [if_pos hsub] at h
      exact ⟨k, steps, groups, rfl, hsub, (Option.some.inj h).symm⟩
    · simp only [if_neg hsub] at h
      cases h

lemma step_signal {s : AgentSignal} (h : p.step d (.signal s) = some q) :
    ∃ k remaining, p.current = some (k, remaining) ∧ q = p.signal d s k remaining := by
  rw [PlanState.step] at h
  cases hcurrent : p.current with
  | none =>
    rw [hcurrent] at h
    cases h
  | some current =>
    rw [hcurrent] at h
    exact ⟨current.1, current.2, rfl, (Option.some.inj h).symm⟩

lemma step_repivot {artifact : ReplacementArtifact}
    (h : p.step d (.repivot artifact) = some q) : ∃ k remaining,
      p.current = some (k, remaining) ∧ p.repivot_count < MAX_REPIVOTS ∧
        q = p.repivot d artifact k := by
  rw [PlanState.step] at h
  cases hcurrent : p.current with
  | none =>
    rw [hcurrent] at h
    cases h
  | some current =>
    rw [hcurrent] at h
    by_cases hcount : p.repivot_count < MAX_REPIVOTS
    · simp only [if_pos hcount] at h
      exact ⟨current.1, current.2, rfl, hcount, (Option.some.inj h).symm⟩
    · simp only [if_neg hcount] at h
      cases h

end

/-! ### The loop makes these edits -/

/-- The plan of the loop is the one that has been edited. -/
structure Edited (w : Workflow) (p : PlanState) : Prop where
  groups : p.groups = w.groups
  repivot_count : p.repivot_count = w.repivot_count
  completed_agents : p.completed_agents = w.completed_agents

lemma agentNames_sublist (steps : List WorkflowStep) (results : List (Option StepResult)) :
    (agentNames steps results).Sublist (steps.map (·.agent)) := by
  rw [agentNames]
  induction steps generalizing results with
  | nil => exact .slnil
  | cons step steps ih =>
    cases results with
    | nil => exact List.nil_sublist _
    | cons result results =>
      rw [List.zip_cons_cons, List.filterMap_cons, List.map_cons]
      cases result with
      | none => exact (ih results).cons _
      | some result => exact (ih results).cons_cons _

lemma completed_sublist (run : GroupRun) (steps : List WorkflowStep) :
    (run.completed steps).Sublist (runOrder steps) := by
  rw [GroupRun.completed, runOrder, List.map_append]
  exact List.filter_sublist.trans
    ((agentNames_sublist _ run.parallel).append (agentNames_sublist _ run.sequential))

/-- The signals of a group, one after the other. -/
lemma exec_signals {d : Definition} {k : ℕ} {remaining : Groups} (signals : List AgentSignal)
    {p : PlanState} (hcurrent : p.current = some (k, remaining)) :
    ∃ q, exec (PlanState.step d) p (signals.map .signal) = some q ∧ q.current = p.current ∧
      q.groups = (applySignals.go d.known_agents (nextGroupNum remaining k) p.groups signals).1 ∧
      q.repivot_count = p.repivot_count ∧ q.completed_agents = p.completed_agents := by
  induction signals generalizing p with
  | nil => exact ⟨p, rfl, rfl, rfl, rfl, rfl⟩
  | cons s signals ih =>
    have hstep : p.step d (.signal s) = some (p.signal d s k remaining) := by
      simp only [PlanState.step, hcurrent]
    obtain ⟨q, hexec, hq, hgroups, hcount, hcompleted⟩ :=
      ih (p := p.signal d s k remaining) hcurrent
    refine ⟨q, ?_, hq, hgroups, hcount, hcompleted⟩
    rw [List.map_cons, exec_cons, hstep]
    exact hexec

lemma exec_edits_of_step {d : Definition} {w w' : Workflow} {run : GroupRun} {p : PlanState}
    (hp : Edited w p) (h : w.step d run = some w') :
    ∃ edits q, exec (PlanState.step d) p edits = some q ∧ Edited w' q := by
  rw [Workflow.step] at h
  cases hpop : w.groups.popFirst with
  | none =>
    rw [hpop] at h
    cases h
  | some popped =>
    obtain ⟨k, steps, groups⟩ := popped
    rw [hpop] at h
    by_cases hfits : run.Fits steps
    swap
    · simp only [if_neg hfits] at h
      cases h
    simp only [if_pos hfits] at h
    obtain rfl := Option.some.inj h
    have htake : p.step d (.takeGroup (run.completed steps)) =
        some (p.takeGroup (run.completed steps) k groups) := by
      simp only [PlanState.step, hp.groups, hpop, if_pos (completed_sublist run steps)]
    obtain ⟨q, hexec, hcurrent, hgroups, hcount, hcompleted⟩ := exec_signals (d := d)
      (run.signals steps) (p := p.takeGroup (run.completed steps) k groups) rfl
    have hcount : q.repivot_count = w.repivot_count := hcount.trans hp.repivot_count
    have hcompleted : q.completed_agents = w.completed_agents ++ run.completed steps := by
      rw [hcompleted, ← hp.completed_agents]
      rfl
    have hedits : exec (PlanState.step d) p
        (.takeGroup (run.completed steps) :: (run.signals steps).map .signal) = some q := by
      rw [exec_cons, htake]
      exact hexec
    rw [Workflow.afterGroup]
    cases hreplacement : run.replacement with
    | none => exact ⟨_, q, hedits, hgroups, hcount, hcompleted⟩
    | some artifact =>
      by_cases hmax : w.repivot_count < MAX_REPIVOTS
      · simp only [if_pos hmax]
        have hrepivot : exec (PlanState.step d) q [.repivot artifact] =
            some (q.repivot d artifact k) := by
          rw [exec_cons, PlanState.step, hcurrent]
          simp only [PlanState.takeGroup, hcount, if_pos hmax]
          rfl
        refine ⟨_, q.repivot d artifact k, exec_trans hedits hrepivot, ?_, ?_, hcompleted⟩
        · rw [PlanState.repivot, hcompleted, hgroups]
          rfl
        · rw [PlanState.repivot, hcount]
      · simp only [if_neg hmax]
        exact ⟨_, q, hedits, hgroups, hcount, hcompleted⟩

/-- Whatever the agents of the groups do, the loop makes a sequence of edits of the plan. -/
theorem exec_edits_of_exec {d : Definition} {w : Workflow} {runs : List GroupRun}
    (h : exec (Workflow.step d) (.init d) runs = some w) :
    ∃ edits p, exec (PlanState.step d) (.init d) edits = some p ∧ Edited w p :=
  exec_simulates (fun _ _ _ _ hR hstep => exec_edits_of_step hR hstep) ⟨rfl, rfl, rfl⟩ h

/-- `deep` runs out of time in the group after a repivot. -/
def unpackedRuns : List GroupRun :=
  [⟨[], [some ⟨false, none⟩], [], some ⟨"b", "unpacked", "a"⟩⟩,
    ⟨[], [some ⟨true, none⟩, some ⟨false, none⟩], [], none⟩]

theorem exec_edits_of_exec_unpacked : ∃ d w edits p,
    exec (Workflow.step d) (.init d) unpackedRuns = some w ∧ w.repivot_count = 1 ∧
      exec (PlanState.step d) (.init d) edits = some p ∧ Edited w p := by
  let d : Definition := ⟨[⟨"surface", 1, "", true, none, false⟩,
    ⟨"deep", 2, "", true, none, false⟩], ["surface", "deep"]⟩
  obtain ⟨w, hw⟩ : ∃ w, exec (Workflow.step d) (.init d) unpackedRuns = some w :=
    Option.isSome_iff_exists.mp (by decide)
  have hcount : (exec (Workflow.step d) (.init d) unpackedRuns).map (·.repivot_count) = some 1 := by
    decide
  rw [hw] at hcount
  obtain ⟨edits, p, hp, hedited⟩ := exec_edits_of_exec hw
  exact ⟨d, w, edits, p, hw, Option.some.inj hcount, hp, hedited⟩

end Arbeiterfarm.Orchestrator
