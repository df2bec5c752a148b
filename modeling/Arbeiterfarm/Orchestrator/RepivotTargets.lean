import Arbeiterfarm.Orchestrator.PlanEdits
import Arbeiterfarm.Orchestrator.Termination
import Mathlib.Data.List.Infix

/-!
# What the steps are targeted at

A repivot names the replacement artifact in the prompts of the remaining steps and re-queues the
agents that have completed. A prompt that already mentions a retarget is left alone, whichever
artifact that was; and whether an agent may run again is looked up in the steps of the definition,
not in those that were re-queued.
-/

namespace Arbeiterfarm.Orchestrator

open Foundation

def Mentions (text prompt : String) : Prop := text.toList <:+: prompt.toList

instance (text prompt : String) : Decidable (Mentions text prompt) :=
  inferInstanceAs (Decidable (_ <:+: _))

/-- Right after a repivot every remaining step names its artifact, and no agent has been re-queued
twice. -/
structure PlanState.Retargeted (p : PlanState) : Prop where
  named : ∀ artifact, p.retargeted = some artifact →
    ∀ step ∈ p.groups.elems, Mentions artifact.id step.prompt
  once : p.requeued.Nodup

/-- At a repivot, the steps that mention a retarget already name its artifact, and no agent that has
been re-queued could be so again. -/
def Retargetable (d : Definition) (p : PlanState) : PlanEdit → Prop
  | .takeGroup _ => True
  | .signal _ => True
  | .repivot artifact =>
    (∀ step ∈ p.groups.elems,
      Mentions "[RETARGET:" step.prompt → Mentions artifact.id step.prompt) ∧
    ∀ agent_name ∈ p.requeued, agent_name ∈ p.completed_agents →
      canRepivot d.steps agent_name → alreadyPlanned agent_name p.groups

variable {d : Definition} {steps : List WorkflowStep} {artifact : ReplacementArtifact}
  {groups : Groups} {n : ℕ}

/-! ### Prompts -/

lemma any_tails_iff {text prompt : String} :
    (prompt.toList.tails.any fun suffix => text.toList.isPrefixOf suffix) ↔
      Mentions text prompt := by
  rw [List.any_eq_true, Mentions, List.infix_iff_prefix_suffix]
  constructor
  · rintro ⟨suffix, hsuffix, hfront⟩
    exact ⟨suffix, List.isPrefixOf_iff_prefix.mp hfront, (List.mem_tails _ _).mp hsuffix⟩
  · rintro ⟨suffix, hfront, hsuffix⟩
    exact ⟨suffix, (List.mem_tails _ _).mpr hsuffix, List.isPrefixOf_iff_prefix.mpr hfront⟩

lemma mentions_self (text : String) : Mentions text text := List.infix_rfl

lemma Mentions.append_left {text prompt : String} (h : Mentions text prompt) (before : String) :
    Mentions text (before ++ prompt) := by
  rw [Mentions, String.toList_append]
  exact h.trans (List.suffix_append _ _).isInfix

lemma Mentions.append_right {text prompt : String} (h : Mentions text prompt) (rest : String) :
    Mentions text (prompt ++ rest) := by
  rw [Mentions, String.toList_append]
  exact h.trans (List.prefix_append _ _).isInfix

lemma mentions_retargetSuffix (prompt : String) (artifact : ReplacementArtifact) :
    Mentions artifact.id (prompt ++ retargetSuffix artifact) := by
  have hid : Mentions artifact.id (" [RETARGET: analyze new artifact " ++ artifact.id) :=
    (mentions_self _).append_left _
  have hfilename := (hid.append_right " (").append_right artifact.filename
  have hfrom := (hfilename.append_right ") instead of original ").append_right artifact.repivot_from
  exact (hfrom.append_right "]").append_left prompt

/-- A step that mentions another artifact already is not retargeted. -/
lemma mentions_annotate {step : WorkflowStep} :
    Mentions artifact.id (annotate artifact step).prompt ↔
      (Mentions "[RETARGET:" step.prompt → Mentions artifact.id step.prompt) := by
  by_cases hmentions : Mentions "[RETARGET:" step.prompt
  · rw [annotate, if_pos (any_tails_iff.mpr hmentions)]
    exact ⟨fun hid _ => hid, fun h => h hmentions⟩
  · rw [annotate, if_neg (fun h => hmentions (any_tails_iff.mp h))]
    refine iff_of_true (mentions_retargetSuffix step.prompt artifact) ?_
    intro h
    exact absurd h hmentions

/-! ### The agents that are re-queued -/

lemma requeue_eq (steps : List WorkflowStep) (artifact : ReplacementArtifact) (n : ℕ)
    (groups : Groups) (agent_name : String) : requeue steps artifact n groups agent_name =
      if alreadyPlanned agent_name groups || !canRepivot steps agent_name then groups
      else groups.push n (requeueStep steps artifact n agent_name) := by
  rw [requeue, canRepivot]
  cases alreadyPlanned agent_name groups with
  | true => rfl
  | false => rw [Bool.false_or, if_neg Bool.false_ne_true]

lemma alreadyPlanned_push {step : WorkflowStep} {agent_name : String} :
    alreadyPlanned agent_name (groups.push n step) ↔
      step.agent = agent_name ∨ alreadyPlanned agent_name groups := by
  rw [alreadyPlanned, (groups.elems_push n step).any_eq, List.any_cons, Bool.or_eq_true,
    decide_eq_true_eq, alreadyPlanned]

lemma mem_requeuedAgents {names : List String} {agent_name : String} :
    agent_name ∈ requeuedAgents steps artifact n groups names ↔
      agent_name ∈ names ∧ ¬alreadyPlanned agent_name groups ∧ canRepivot steps agent_name := by
  induction names generalizing groups with
  | nil => simp [requeuedAgents]
  | cons name names ih =>
    rw [requeuedAgents, requeue_eq]
    by_cases hskip : alreadyPlanned name groups || !canRepivot steps name
    · rw [if_pos hskip, if_pos hskip, ih, List.mem_cons]
      constructor
      · rintro ⟨hmem, hrest⟩
        exact ⟨.inr hmem, hrest⟩
      · rintro ⟨rfl | hmem, hplanned, hcan⟩
        · simp [hplanned, hcan] at hskip
        · exact ⟨hmem, hplanned, hcan⟩
    · rw [if_neg hskip, if_neg hskip, List.mem_cons, ih, alreadyPlanned_push, List.mem_cons]
      have hname : ¬alreadyPlanned name groups ∧ canRepivot steps name := by
        simpa using hskip
      constructor
      · rintro (rfl | ⟨hmem, hplanned, hcan⟩)
        · exact ⟨.inl rfl, hname⟩
        · exact ⟨.inr hmem, fun h => hplanned (.inr h), hcan⟩
      · rintro ⟨hmem, hplanned, hcan⟩
        by_cases heq : agent_name = name
        · exact .inl heq
        · refine .inr ⟨hmem.resolve_left heq, ?_, hcan⟩
          rintro (h | h)
          · exact heq h.symm
          · exact hplanned h

lemma nodup_requeuedAgents (names : List String) :
    (requeuedAgents steps artifact n groups names).Nodup := by
  induction names generalizing groups with
  | nil => exact .nil
  | cons name names ih =>
    rw [requeuedAgents, requeue_eq]
    by_cases hskip : alreadyPlanned name groups || !canRepivot steps name
    · rw [if_pos hskip, if_pos hskip]
      exact ih
    · rw [if_neg hskip, if_neg hskip, List.nodup_cons]
      refine ⟨?_, ih⟩
      intro hmem
      -- the step that has just been added keeps the agent from being re-queued again
      exact (mem_requeuedAgents.mp hmem).2.1 (alreadyPlanned_push.mpr (.inl rfl))

lemma mem_elems_requeue_all {names : List String} {step : WorkflowStep} :
    step ∈ (names.foldl (requeue steps artifact n) groups).elems ↔ step ∈ groups.elems ∨
      ∃ agent_name ∈ requeuedAgents steps artifact n groups names,
        step = requeueStep steps artifact n agent_name := by
  induction names generalizing groups with
  | nil => simp [requeuedAgents]
  | cons name names ih =>
    rw [List.foldl_cons, ih, requeuedAgents]
    by_cases hskip : alreadyPlanned name groups || !canRepivot steps name
    · rw [if_pos hskip, requeue_eq, if_pos hskip]
    · rw [if_neg hskip, List.exists_mem_cons_iff, requeue_eq, if_neg hskip,
        (groups.elems_push n _).mem_iff, List.mem_cons, or_assoc, or_left_comm]

/-! ### One edit -/

lemma named_repivot_iff (steps : List WorkflowStep) (names : List String) (k : ℕ) :
    (∀ step ∈ (repivot steps artifact names k groups).elems, Mentions artifact.id step.prompt) ↔
      ∀ step ∈ groups.elems,
        Mentions "[RETARGET:" step.prompt → Mentions artifact.id step.prompt := by
  rw [repivot, OrderedMap.elems_filterMapGroups_map, List.forall_mem_map]
  constructor
  · intro h step hstep
    exact mentions_annotate.mp (h step (mem_elems_requeue_all.mpr (.inl hstep)))
  · intro h step hstep
    rw [mentions_annotate]
    rcases mem_elems_requeue_all.mp hstep with hstep | ⟨agent_name, -, rfl⟩
    · exact h step hstep
    · intro _
      exact mentions_retargetSuffix _ artifact

lemma retargeted_step_iff {p q : PlanState} {edit : PlanEdit} (hp : p.Retargeted)
    (h : p.step d edit = some q) : q.Retargeted ↔ Retargetable d p edit := by
  cases edit with
  | takeGroup completed =>
    obtain ⟨k, steps, groups, -, -, rfl⟩ := step_takeGroup h
    refine iff_of_true ⟨?_, hp.once⟩ trivial
    intro artifact hartifact
    cases hartifact
  | signal s =>
    obtain ⟨k, remaining, -, rfl⟩ := step_signal h
    refine iff_of_true ⟨?_, hp.once⟩ trivial
    intro artifact hartifact
    cases hartifact
  | repivot artifact =>
    obtain ⟨k, remaining, -, -, rfl⟩ := step_repivot h
    rw [Retargetable, ← named_repivot_iff d.steps p.completed_agents k]
    have honce : (p.repivot d artifact k).requeued.Nodup ↔
        ∀ agent_name ∈ p.requeued, agent_name ∈ p.completed_agents →
          canRepivot d.steps agent_name → alreadyPlanned agent_name p.groups := by
      rw [PlanState.repivot, List.nodup_append', and_iff_right hp.once,
        and_iff_right (nodup_requeuedAgents _), List.disjoint_left]
      refine forall₂_congr fun agent_name _ => ?_
      rw [mem_requeuedAgents]
      tauto
    rw [← honce]
    constructor
    · rintro ⟨hnamed, honce⟩
      exact ⟨hnamed artifact rfl, honce⟩
    · rintro ⟨hnamed, honce⟩
      refine ⟨?_, honce⟩
      intro artifact' hartifact
      obtain rfl := Option.some.inj hartifact
      exact hnamed

/-! ### Runs -/

/-- The remaining steps are targeted at the newest artifact after every repivot and no agent is
re-queued twice exactly when each repivot of the run finds a plan that allows this. -/
theorem retargeted_iff_retargetable (d : Definition) (edits : List PlanEdit) (p : PlanState)
    (h : exec (PlanState.step d) (.init d) edits = some p) :
    Always (PlanState.step d) PlanState.Retargeted (.init d) edits ↔
      Along (PlanState.step d) (Retargetable d) (.init d) edits := by
  refine always_iff_along (I := fun _ => True) (fun _ _ _ _ _ => trivial)
    (fun _ _ _ _ hp hstep => retargeted_step_iff hp hstep) trivial ⟨?_, .nil⟩ h
  intro artifact hartifact
  cases hartifact

instance (d : Definition) (p : PlanState) (edit : PlanEdit) : Decidable (Retargetable d p edit) :=
  match edit with
  | .takeGroup _ => inferInstanceAs (Decidable True)
  | .signal _ => inferInstanceAs (Decidable True)
  | .repivot _ => inferInstanceAs (Decidable (_ ∧ _))

def threeGroups : Definition where
  steps := [⟨"surface", 1, "", true, none, false⟩, ⟨"deep", 2, "", true, none, false⟩,
    ⟨"report", 3, "", true, none, false⟩]
  known_agents := ["surface", "deep", "report"]

def firstRepivot : List PlanEdit := [.takeGroup ["surface"], .repivot ⟨"b", "unpacked", "a"⟩]

def secondRepivot : List PlanEdit :=
  [.takeGroup ["deep", "surface"], .repivot ⟨"c", "decrypted", "b"⟩]

def twoGroups : Definition where
  steps := [⟨"surface", 1, "", true, none, false⟩, ⟨"deep", 2, "", true, none, false⟩]
  known_agents := ["surface", "deep"]

/-- Before the second repivot, `surface` is requested once more. -/
def requestedRepivot : List PlanEdit :=
  firstRepivot ++ [.takeGroup ["deep", "surface"], .signal ⟨.request, "surface", "again", "deep"⟩,
    .repivot ⟨"c", "decrypted", "b"⟩]

theorem retargeted_iff_retargetable_requested :
    Always (PlanState.step twoGroups) PlanState.Retargeted (.init twoGroups) requestedRepivot := by
  obtain ⟨p, hp⟩ :
      ∃ p, exec (PlanState.step twoGroups) (.init twoGroups) requestedRepivot = some p :=
    Option.isSome_iff_exists.mp (by decide)
  exact (retargeted_iff_retargetable _ _ p hp).mpr (by decide)

/-- At the second repivot, `surface` is re-queued again. -/
theorem not_retargeted_twice :
    ¬Always (PlanState.step threeGroups) PlanState.Retargeted (.init threeGroups)
      (firstRepivot ++ secondRepivot) := by
  intro h
  have hrequeued : (exec (PlanState.step threeGroups) (.init threeGroups)
      (firstRepivot ++ secondRepivot)).map (·.requeued) =
        some ["surface", "surface", "deep"] := by decide
  obtain ⟨p, hp, hrequeued⟩ := Option.map_eq_some_iff.mp hrequeued
  have honce := (h.of_exec hp).once
  rw [hrequeued] at honce
  exact absurd honce (by decide)

end Arbeiterfarm.Orchestrator
