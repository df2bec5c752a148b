import Arbeiterfarm.Orchestrator.Workflow
import Mathlib.Algebra.BigOperators.Group.Finset.Basic
import Mathlib.Algebra.Order.BigOperators.Group.List
import Mathlib.Algebra.Order.BigOperators.Group.Finset

/-!
# How many steps a workflow executes

For each agent, the steps that it has executed and the steps that are planned for it are counted
together. Taking a group, `skip` and `priority` do not increase the count, and a repivot adds at
most one. A request adds one only when nothing is planned for the agent; it therefore exceeds
the count by which the agent started only when the agent has been executed before. Nothing
bounds the number of such requests.
-/

namespace Arbeiterfarm.Orchestrator

open Foundation

/-! ### Steps that are planned for an agent -/

def plannedCount (x : String) (groups : Groups) : ℕ := groups.elems.countP fun s => s.agent = x

lemma count_map_agent (x : String) (steps : List WorkflowStep) :
    (steps.map (·.agent)).count x = steps.countP fun s => s.agent = x := by
  rw [List.count, List.countP_map]
  apply List.countP_congr
  intro s _
  simp

lemma plannedCount_push (x : String) (k : ℕ) (s : WorkflowStep) (groups : Groups) :
    plannedCount x (groups.push k s) = plannedCount x groups + if s.agent = x then 1 else 0 := by
  rw [plannedCount, (groups.elems_push k s).countP_eq, List.countP_cons, plannedCount]
  simp

lemma plannedCount_eq_zero_iff {x : String} {groups : Groups} :
    plannedCount x groups = 0 ↔ alreadyPlanned x groups = false := by
  simp [plannedCount, alreadyPlanned, List.countP_eq_zero]

lemma plannedCount_popFirst {groups rest : Groups} {k : ℕ} {steps : List WorkflowStep}
    (h : groups.popFirst = some (k, steps, rest)) (x : String) :
    plannedCount x groups = (steps.map (·.agent)).count x + plannedCount x rest := by
  rw [plannedCount, OrderedMap.elems_popFirst h, List.countP_append, count_map_agent, plannedCount]

lemma plannedCount_removeAgent_le (p : ℕ → Bool) (agent x : String) (groups : Groups) :
    plannedCount x (removeAgent p agent groups) ≤ plannedCount x groups := by
  refine List.Sublist.countP_le (OrderedMap.elems_filterMapGroups_sublist ?_ groups)
  intro k as bs h
  simp only at h
  split_ifs at h
  · obtain rfl := Option.some.inj h
    exact List.filter_sublist
  · obtain rfl := Option.some.inj h
    exact List.Sublist.refl _

lemma countP_kept (agent : String) (steps : List WorkflowStep) :
    ((if (steps.filter fun s => s.agent ≠ agent) = [] then none
      else some (steps.filter fun s => s.agent ≠ agent)).getD []).countP
        (fun s => s.agent = agent) = 0 := by
  split_ifs <;> simp [List.countP_eq_zero]

/-- A step of the agent in a group that is looked at is removed. -/
lemma plannedCount_removeAgent_lt {p : ℕ → Bool} {groups : Groups} {k : ℕ} {step : WorkflowStep}
    {steps : List WorkflowStep} (hk : (k, steps) ∈ groups.entries) (hp : p k)
    (hstep : step ∈ steps) :
    plannedCount step.agent (removeAgent p step.agent groups) <
      plannedCount step.agent groups := by
  rw [plannedCount, plannedCount, removeAgent, OrderedMap.elems_filterMapGroups,
    OrderedMap.elems, List.countP_flatMap, List.countP_flatMap]
  refine List.sum_lt_sum _ _ (fun e _ => ?_) ⟨_, hk, ?_⟩
  · simp only [Function.comp_apply]
    by_cases hpe : p e.1
    · rw [if_pos hpe, countP_kept]
      exact Nat.zero_le _
    · rw [if_neg hpe, Option.getD_some]
  · simp only [Function.comp_apply, if_pos hp]
    rw [countP_kept, List.countP_pos_iff]
    exact ⟨step, hstep, by simp⟩

/-! ### Signals -/

lemma findBeyond_spec {agent : String} {n k : ℕ} {step : WorkflowStep}
    {entries : List (ℕ × List WorkflowStep)} (h : findBeyond agent n entries = some (k, step)) :
    step.agent = agent ∧ ∃ steps, (k, steps) ∈ entries ∧ step ∈ steps := by
  induction entries with
  | nil => simp [findBeyond] at h
  | cons e entries ih =>
    obtain ⟨gnum, steps⟩ := e
    have hrest (h : findBeyond agent n entries = some (k, step)) :
        step.agent = agent ∧ ∃ steps', (k, steps') ∈ (gnum, steps) :: entries ∧ step ∈ steps' := by
      obtain ⟨hagent, steps', hmem, hstep⟩ := ih h
      exact ⟨hagent, steps', List.mem_cons_of_mem _ hmem, hstep⟩
    simp only [findBeyond] at h
    split_ifs at h
    · exact hrest h
    · split at h
      · rename_i found hfound
        simp only [Option.some.injEq, Prod.mk.injEq] at h
        obtain ⟨rfl, rfl⟩ := h
        exact ⟨by simpa using List.find?_some hfound, steps, by simp,
          List.mem_of_find?_eq_some hfound⟩
      · exact hrest h

/-- The signal is an applied request for the agent. -/
def Requests (x : String) (applied : Option AgentSignal) : Prop :=
  ∃ s ∈ applied, s.kind = .request ∧ s.target_agent = x

/-- Only a request adds a step, for a known agent that nothing is planned for. -/
lemma applySignal_spec (known_agents : List String) (n : ℕ) (groups : Groups)
    (signal : AgentSignal) (x : String) :
    plannedCount x (applySignal known_agents n groups signal).1 ≤ plannedCount x groups ∨
      plannedCount x groups = 0 ∧ x ∈ known_agents ∧
        plannedCount x (applySignal known_agents n groups signal).1 = 1 ∧
        Requests x (applySignal known_agents n groups signal).2 := by
  simp only [applySignal]
  cases hkind : signal.kind with
  | request =>
    simp only
    split_ifs with hknown hplanned
    · exact .inl le_rfl
    · by_cases hx : signal.target_agent = x
      · subst hx
        have hzero := plannedCount_eq_zero_iff.mpr (Bool.eq_false_iff.mpr hplanned)
        refine .inr ⟨hzero, hknown, ?_, signal, rfl, hkind, rfl⟩
        simp [plannedCount_push, hzero]
      · exact .inl (by simp [plannedCount_push, hx])
    · exact .inl le_rfl
  | skip => exact .inl (plannedCount_removeAgent_le _ _ x groups)
  | priority =>
    simp only
    split
    · exact .inl le_rfl
    · rename_i from_group step hfound
      obtain ⟨hagent, steps, hmem, hstep⟩ := findBeyond_spec hfound
      refine .inl ?_
      rw [plannedCount_push]
      simp only
      split_ifs with hx
      · -- the step that moves is removed from its old group
        have := plannedCount_removeAgent_lt (p := fun gnum => gnum = from_group) hmem
          (by simp) hstep
        rw [hagent] at this hx
        subst hx
        omega
      · exact plannedCount_removeAgent_le _ _ x groups

lemma requested_append (as bs : List AgentSignal) :
    requested (as ++ bs) = requested as ++ requested bs := by
  simp [requested]

lemma mem_requested_of_requests {x : String} {applied : Option AgentSignal}
    (h : Requests x applied) : x ∈ requested applied.toList := by
  obtain ⟨s, hs, hkind, rfl⟩ := h
  refine List.mem_map.mpr ⟨s, ?_, rfl⟩
  rw [Option.mem_def.mp hs]
  simp [hkind]

lemma applySignals_go_cons_fst (known_agents : List String) (n : ℕ) (groups : Groups)
    (signal : AgentSignal) (signals : List AgentSignal) :
    (applySignals.go known_agents n groups (signal :: signals)).1 =
      (applySignals.go known_agents n (applySignal known_agents n groups signal).1 signals).1 :=
  rfl

lemma applySignals_go_cons_snd (known_agents : List String) (n : ℕ) (groups : Groups)
    (signal : AgentSignal) (signals : List AgentSignal) :
    (applySignals.go known_agents n groups (signal :: signals)).2 =
      (applySignal known_agents n groups signal).2.toList ++
        (applySignals.go known_agents n (applySignal known_agents n groups signal).1 signals).2 :=
  rfl

/-- The count exceeds a positive bound only by requests for agents that have been executed. -/
lemma plannedCount_applySignals_go (known_agents : List String) {executed : List String} (n : ℕ)
    {bound : ℕ} {x : String} (hbound : 1 ≤ bound) (groups : Groups) (signals : List AgentSignal)
    (h : executed.count x + plannedCount x groups ≤ bound) :
    executed.count x + plannedCount x (applySignals.go known_agents n groups signals).1 ≤
      bound + ((requested (applySignals.go known_agents n groups signals).2).filter
        (· ∈ executed)).count x := by
  induction signals generalizing groups bound with
  | nil => simpa [applySignals.go, requested] using h
  | cons signal signals ih =>
    rw [applySignals_go_cons_fst, applySignals_go_cons_snd, requested_append,
      List.filter_append, List.count_append]
    rcases applySignal_spec known_agents n groups signal x with hle | ⟨hzero, -, hone, hreq⟩
    · have := ih hbound (applySignal known_agents n groups signal).1 (by omega)
      omega
    · by_cases hx : x ∈ executed
      · have hpos : 0 < ((requested (applySignal known_agents n groups signal).2.toList).filter
            (· ∈ executed)).count x :=
          List.count_pos_iff.mpr
            (List.mem_filter.mpr ⟨mem_requested_of_requests hreq, by simpa using hx⟩)
        have := ih (Nat.le_succ_of_le hbound) (applySignal known_agents n groups signal).1
          (by omega)
        omega
      · have hcount : executed.count x = 0 := List.count_eq_zero.mpr hx
        have := ih hbound (applySignal known_agents n groups signal).1 (by omega)
        omega

lemma plannedCount_applySignals_go_eq_zero {known_agents : List String} {n : ℕ} {x : String}
    (hx : x ∉ known_agents) {groups : Groups} {signals : List AgentSignal}
    (h : plannedCount x groups = 0) :
    plannedCount x (applySignals.go known_agents n groups signals).1 = 0 := by
  induction signals generalizing groups with
  | nil => exact h
  | cons signal signals ih =>
    rw [applySignals_go_cons_fst]
    refine ih ?_
    rcases applySignal_spec known_agents n groups signal x with hle | ⟨-, hknown, -⟩
    · omega
    · exact absurd hknown hx

lemma mem_known_of_applied {known_agents : List String} {n : ℕ} {groups : Groups}
    {signal s : AgentSignal} (h : s ∈ (applySignal known_agents n groups signal).2)
    (hkind : s.kind = .request) : s.target_agent ∈ known_agents := by
  unfold applySignal at h
  simp only at h
  split at h
  · split_ifs at h with hknown
    · simp at h
    · obtain rfl := Option.some.inj h
      exact hknown
    · simp at h
  · rename_i hskip
    split_ifs at h
    · obtain rfl := Option.some.inj h
      simp [hskip] at hkind
    · simp at h
  · rename_i hpriority
    split at h
    · simp at h
    · obtain rfl := Option.some.inj h
      simp [hpriority] at hkind

lemma mem_known_of_requested {known_agents : List String} {n : ℕ} {x : String}
    {groups : Groups} {signals : List AgentSignal}
    (h : x ∈ requested (applySignals.go known_agents n groups signals).2) :
    x ∈ known_agents := by
  induction signals generalizing groups with
  | nil => simp [applySignals.go, requested] at h
  | cons signal signals ih =>
    rw [applySignals_go_cons_snd, requested_append, List.mem_append] at h
    rcases h with h | h
    · obtain ⟨s, hs, rfl⟩ := List.mem_map.mp h
      obtain ⟨hs, hkind⟩ := List.mem_filter.mp hs
      exact mem_known_of_applied (Option.mem_toList.mp hs) (of_decide_eq_true hkind)
    · exact ih h

/-! ### Repivot -/

lemma plannedCount_requeue (steps : List WorkflowStep) (artifact : ReplacementArtifact) (n : ℕ)
    (groups : Groups) (name x : String) :
    plannedCount x (requeue steps artifact n groups name) = plannedCount x groups ∨
      x = name ∧ plannedCount x (requeue steps artifact n groups name) = 1 := by
  unfold requeue
  simp only
  split_ifs with hplanned
  · exact .inl rfl
  · exact .inl rfl
  · by_cases hx : x = name
    · subst hx
      have hzero := plannedCount_eq_zero_iff.mpr (Bool.eq_false_iff.mpr hplanned)
      exact .inr ⟨rfl, by simp [plannedCount_push, hzero, requeueStep]⟩
    · exact .inl (by simp [plannedCount_push, requeueStep, Ne.symm hx])

lemma plannedCount_requeue_all (steps : List WorkflowStep) (artifact : ReplacementArtifact)
    (n : ℕ) (groups : Groups) (names : List String) (x : String) :
    plannedCount x (names.foldl (requeue steps artifact n) groups) = plannedCount x groups ∨
      x ∈ names ∧ plannedCount x (names.foldl (requeue steps artifact n) groups) = 1 := by
  induction names generalizing groups with
  | nil => exact .inl rfl
  | cons name names ih =>
    rw [List.foldl_cons]
    rcases ih (requeue steps artifact n groups name) with heq | ⟨hmem, hone⟩
    · rw [heq]
      rcases plannedCount_requeue steps artifact n groups name x with heq' | ⟨rfl, hone⟩
      · exact .inl heq'
      · exact .inr ⟨by simp, hone⟩
    · exact .inr ⟨List.mem_cons_of_mem _ hmem, hone⟩

@[simp] lemma agent_annotate (artifact : ReplacementArtifact) (step : WorkflowStep) :
    (annotate artifact step).agent = step.agent := by
  simp only [annotate]
  split_ifs <;> rfl

lemma plannedCount_repivot_eq (steps : List WorkflowStep) (artifact : ReplacementArtifact)
    (names : List String) (n : ℕ) (groups : Groups) (x : String) :
    plannedCount x (repivot steps artifact names n groups) =
      plannedCount x (names.foldl (requeue steps artifact (nextGroupNum groups n)) groups) := by
  rw [repivot, plannedCount, OrderedMap.elems_filterMapGroups_map, List.countP_map, plannedCount]
  apply List.countP_congr
  intro s _
  simp

lemma plannedCount_repivot (steps : List WorkflowStep) (artifact : ReplacementArtifact)
    (names : List String) (n : ℕ) (groups : Groups) (x : String) :
    plannedCount x (repivot steps artifact names n groups) = plannedCount x groups ∨
      x ∈ names ∧ plannedCount x (repivot steps artifact names n groups) = 1 := by
  rw [plannedCount_repivot_eq]
  exact plannedCount_requeue_all ..

/-! ### No group is empty -/

lemma noEmpty_removeAgent {groups : Groups} (h : groups.NoEmpty) (p : ℕ → Bool)
    (agent : String) : (removeAgent p agent groups).NoEmpty := by
  apply OrderedMap.noEmpty_filterMapGroups
  intro e he bs hbs
  simp only at hbs
  split_ifs at hbs with _ hnil
  · obtain rfl := Option.some.inj hbs
    exact hnil
  · obtain rfl := Option.some.inj hbs
    exact h e he

lemma noEmpty_applySignal {groups : Groups} (h : groups.NoEmpty) (known_agents : List String)
    (n : ℕ) (signal : AgentSignal) : (applySignal known_agents n groups signal).1.NoEmpty := by
  unfold applySignal
  simp only
  split
  · split_ifs
    · exact h
    · exact h.push _ _
    · exact h
  · exact noEmpty_removeAgent h _ _
  · split
    · exact h
    · exact (noEmpty_removeAgent h _ _).push _ _

lemma noEmpty_applySignals_go {groups : Groups} (h : groups.NoEmpty)
    (known_agents : List String) (n : ℕ) (signals : List AgentSignal) :
    (applySignals.go known_agents n groups signals).1.NoEmpty := by
  induction signals generalizing groups with
  | nil => exact h
  | cons signal signals ih => exact ih (noEmpty_applySignal h _ _ _)

lemma noEmpty_repivot {groups : Groups} (h : groups.NoEmpty) (steps : List WorkflowStep)
    (artifact : ReplacementArtifact) (names : List String) (n : ℕ) :
    (repivot steps artifact names n groups).NoEmpty := by
  have hrequeue :
      (names.foldl (requeue steps artifact (nextGroupNum groups n)) groups).NoEmpty := by
    generalize nextGroupNum groups n = next
    induction names generalizing groups with
    | nil => exact h
    | cons name names ih =>
      refine ih ?_
      unfold requeue
      simp only
      split_ifs
      · exact h
      · exact h
      · exact h.push _ _
  apply OrderedMap.noEmpty_filterMapGroups
  intro e he bs hbs
  obtain rfl := Option.some.inj hbs
  simpa using hrequeue e he

/-! ### The invariant of the loop -/

/-- The agents that a workflow can run. -/
def Definition.agents (d : Definition) : Finset String :=
  (d.steps.map (·.agent) ++ d.known_agents).toFinset

/-- The number of steps that the agent may be given without being requested again. -/
def Definition.allowance (d : Definition) (w : Workflow) (x : String) : ℕ :=
  (d.steps.map (·.agent)).count x + 1 + w.repivot_count

structure Inv (d : Definition) (w : Workflow) : Prop where
  counted : ∀ x, w.executed.count x + plannedCount x w.groups ≤
    d.allowance w x + w.rerequested.count x
  executed_agents : ∀ x ∈ w.executed, x ∈ d.agents
  planned_agents : ∀ x, x ∉ d.agents → plannedCount x w.groups = 0
  completed_agents : ∀ x ∈ w.completed_agents, x ∈ d.agents
  rerequested_agents : ∀ x ∈ w.rerequested, x ∈ d.agents
  repivots : w.repivot_count ≤ MAX_REPIVOTS
  noEmpty : w.groups.NoEmpty

lemma plannedCount_init (steps : List WorkflowStep) (groups : Groups) (x : String) :
    plannedCount x (steps.foldl (fun groups step => groups.push step.group step) groups) =
      plannedCount x groups + (steps.map (·.agent)).count x := by
  induction steps generalizing groups with
  | nil => simp
  | cons step steps ih =>
    rw [List.foldl_cons, ih, plannedCount_push, List.map_cons, List.count_cons]
    simp only [beq_iff_eq]
    omega

lemma noEmpty_init (steps : List WorkflowStep) {groups : Groups} (h : groups.NoEmpty) :
    (steps.foldl (fun groups step => groups.push step.group step) groups).NoEmpty := by
  induction steps generalizing groups with
  | nil => exact h
  | cons step steps ih => exact ih (h.push _ _)

lemma inv_init (d : Definition) : Inv d (.init d) := by
  have hcount (x : String) : plannedCount x (Workflow.init d).groups =
      (d.steps.map (·.agent)).count x := by
    have hempty : plannedCount x .empty = 0 := rfl
    have := plannedCount_init d.steps .empty x
    rw [hempty, Nat.zero_add] at this
    exact this
  refine ⟨?_, by simp [Workflow.init], ?_, by simp [Workflow.init], by simp [Workflow.init],
    Nat.zero_le _, noEmpty_init d.steps OrderedMap.noEmpty_empty⟩
  · intro x
    rw [hcount, Definition.allowance]
    simp only [Workflow.init, List.count_nil]
    omega
  · intro x hx
    rw [hcount, List.count_eq_zero]
    intro hmem
    exact hx (by simp [Definition.agents, List.mem_map.mp hmem])

/-- The state before the repivot of an iteration. -/
lemma inv_signals {d : Definition} {w : Workflow} {n : ℕ} {steps : List WorkflowStep}
    {groups : Groups} (hw : Inv d w) (hpop : w.groups.popFirst = some (n, steps, groups))
    (signals : List AgentSignal) (completed : List String)
    (hcompleted : ∀ x ∈ completed, x ∈ steps.map (·.agent)) :
    Inv d
      { groups := (applySignals signals groups n d.known_agents).1
        repivot_count := w.repivot_count
        completed_agents := w.completed_agents ++ completed
        executed := w.executed ++ steps.map (·.agent)
        rerequested := w.rerequested ++
          (requested (applySignals signals groups n d.known_agents).2).filter
            (· ∈ w.executed ++ steps.map (·.agent)) } := by
  have hsteps : ∀ x ∈ steps.map (·.agent), x ∈ d.agents := by
    intro x hx
    by_contra hne
    have := hw.planned_agents x hne
    rw [plannedCount_popFirst hpop] at this
    exact List.count_eq_zero.mp (by omega) hx
  have hknown : ∀ x ∈ d.known_agents, x ∈ d.agents := fun x hx => by
    simp [Definition.agents, hx]
  refine ⟨?_, ?_, ?_, ?_, ?_, hw.repivots,
    noEmpty_applySignals_go (hw.noEmpty.popFirst hpop).2 _ _ _⟩
  · intro x
    have hbefore := hw.counted x
    rw [plannedCount_popFirst hpop] at hbefore
    have hbound : 1 ≤ d.allowance w x + w.rerequested.count x := by
      simp only [Definition.allowance]
      omega
    have hplanned : (w.executed ++ steps.map (·.agent)).count x + plannedCount x groups ≤
        d.allowance w x + w.rerequested.count x := by
      rw [List.count_append]
      omega
    have := plannedCount_applySignals_go d.known_agents (nextGroupNum groups n) hbound groups
      signals hplanned
    simpa only [applySignals, List.count_append, Definition.allowance, Nat.add_assoc] using this
  · intro x hx
    exact (List.mem_append.mp hx).elim (hw.executed_agents x) (hsteps x)
  · intro x hx
    refine plannedCount_applySignals_go_eq_zero (fun h => hx (hknown x h)) ?_
    have := hw.planned_agents x hx
    rw [plannedCount_popFirst hpop] at this
    omega
  · intro x hx
    exact (List.mem_append.mp hx).elim (hw.completed_agents x) fun h =>
      hsteps x (hcompleted x h)
  · intro x hx
    rcases List.mem_append.mp hx with h | h
    · exact hw.rerequested_agents x h
    · exact hknown x (mem_known_of_requested (List.mem_of_mem_filter h))

lemma inv_repivot {d : Definition} {w : Workflow} (hw : Inv d w)
    (hcount : w.repivot_count < MAX_REPIVOTS) (artifact : ReplacementArtifact) (n : ℕ) :
    Inv d { w with
      groups := repivot d.steps artifact w.completed_agents n w.groups
      repivot_count := w.repivot_count + 1 } := by
  refine ⟨?_, hw.executed_agents, ?_, hw.completed_agents, hw.rerequested_agents, hcount,
    noEmpty_repivot hw.noEmpty _ _ _ _⟩
  · intro x
    have := hw.counted x
    simp only [Definition.allowance] at this ⊢
    rcases plannedCount_repivot d.steps artifact w.completed_agents n w.groups x with
      heq | ⟨-, hone⟩ <;> omega
  · intro x hx
    rcases plannedCount_repivot d.steps artifact w.completed_agents n w.groups x with
      heq | ⟨hmem, -⟩
    · exact heq.trans (hw.planned_agents x hx)
    · exact absurd (hw.completed_agents x hmem) hx

lemma agent_of_mem_completed {run : GroupRun} {steps : List WorkflowStep} {x : String}
    (h : x ∈ run.completed steps) : x ∈ steps.map (·.agent) := by
  have hnames {l : List WorkflowStep} {results : List (Option StepResult)}
      (h : x ∈ agentNames l results) : ∃ s ∈ l, s.agent = x := by
    obtain ⟨⟨s, result⟩, hmem, heq⟩ := List.mem_filterMap.mp h
    obtain ⟨-, -, rfl⟩ := Option.map_eq_some_iff.mp heq
    exact ⟨s, (List.of_mem_zip hmem).1, rfl⟩
  rw [GroupRun.completed] at h
  rcases List.mem_append.mp (List.mem_of_mem_filter h) with h | h <;>
    obtain ⟨s, hs, rfl⟩ := hnames h <;>
    exact List.mem_map_of_mem (List.mem_of_mem_filter hs)

/-- What an iteration does: it takes a group that fits the run. -/
lemma step_spec {d : Definition} {w w' : Workflow} {run : GroupRun}
    (h : w.step d run = some w') : ∃ n steps groups,
      w.groups.popFirst = some (n, steps, groups) ∧ run.Fits steps ∧
        w' = w.afterGroup d run n steps groups := by
  simp only [Workflow.step] at h
  split at h
  · cases h
  · rename_i n steps groups hpop
    split_ifs at h with hfits
    exact ⟨n, steps, groups, hpop, hfits, (Option.some.inj h).symm⟩

lemma inv_step {d : Definition} {w w' : Workflow} {run : GroupRun} (hw : Inv d w)
    (h : w.step d run = some w') : Inv d w' := by
  obtain ⟨n, steps, groups, hpop, -, rfl⟩ := step_spec h
  have hsignals := inv_signals hw hpop (run.signals steps) (run.completed steps)
    fun x hx => agent_of_mem_completed hx
  unfold Workflow.afterGroup
  simp only
  split
  · split_ifs with hcount
    · exact inv_repivot hsignals hcount _ n
    · exact hsignals
  · exact hsignals

lemma executed_step {d : Definition} {w w' : Workflow} {run : GroupRun}
    (h : w.step d run = some w') : ∃ n steps groups,
      w.groups.popFirst = some (n, steps, groups) ∧
        w'.executed = w.executed ++ steps.map (·.agent) := by
  obtain ⟨n, steps, groups, hpop, -, rfl⟩ := step_spec h
  refine ⟨n, steps, groups, hpop, ?_⟩
  unfold Workflow.afterGroup
  simp only
  split
  · split_ifs <;> rfl
  · rfl

/-- Every iteration executes a step. -/
lemma length_le_executed {d : Definition} {w w' : Workflow} {runs : List GroupRun}
    (hw : Inv d w) (h : exec (Workflow.step d) w runs = some w') :
    w.executed.length + runs.length ≤ w'.executed.length := by
  induction runs generalizing w with
  | nil =>
    cases h
    simp
  | cons run runs ih =>
    obtain ⟨u, hu, huw⟩ := Option.bind_eq_some_iff.mp h
    obtain ⟨n, steps, groups, hpop, hexec⟩ := executed_step hu
    have hne := List.length_pos_iff.mpr (hw.noEmpty.popFirst hpop).1
    have := ih (inv_step hw hu) huw
    rw [hexec, List.length_append, List.length_map] at this
    rw [List.length_cons]
    omega

/-! ### The bound -/

lemma sum_count_of_forall_mem {s : Finset String} {l : List String} (h : ∀ x ∈ l, x ∈ s) :
    ∑ x ∈ s, l.count x = l.length := by
  simpa using Multiset.sum_count_eq_card (s := s) (m := (l : Multiset String)) (by simpa using h)

/-- The initial steps, and one step for each agent that may be run, at the start and at each
repivot. -/
def Definition.bound (d : Definition) : ℕ :=
  d.steps.length + d.agents.card * (1 + MAX_REPIVOTS)

lemma Inv.executed_le {d : Definition} {w : Workflow} (hw : Inv d w) :
    w.executed.length ≤ d.bound + w.rerequested.length := by
  have hsteps : ∀ x ∈ d.steps.map (·.agent), x ∈ d.agents := fun x hx => by
    simp [Definition.agents, List.mem_map.mp hx]
  calc w.executed.length = ∑ x ∈ d.agents, w.executed.count x :=
        (sum_count_of_forall_mem hw.executed_agents).symm
    _ ≤ ∑ x ∈ d.agents, ((d.steps.map (·.agent)).count x + (1 + MAX_REPIVOTS) +
          w.rerequested.count x) := by
        apply Finset.sum_le_sum
        intro x _
        have := hw.counted x
        have := hw.repivots
        simp only [Definition.allowance] at *
        omega
    _ = d.bound + w.rerequested.length := by
        rw [Finset.sum_add_distrib, Finset.sum_add_distrib, sum_count_of_forall_mem hsteps,
          sum_count_of_forall_mem hw.rerequested_agents, Finset.sum_const_nat fun _ _ => rfl,
          List.length_map, Definition.bound]

/-- In every run of a workflow the number of iterations, and of the steps that they execute, is
bounded by a function of the initial steps, the known agents and `MAX_REPIVOTS`, plus the number
of requests for agents that have been executed before. -/
theorem executed_le_bound (d : Definition) (runs : List GroupRun) (w : Workflow)
    (h : exec (Workflow.step d) (.init d) runs = some w) :
    runs.length ≤ w.executed.length ∧
      w.executed.length ≤ d.bound + w.rerequested.length := by
  have hinv : Inv d w := exec_preserves (fun _ _ _ => inv_step) (inv_init d) h
  refine ⟨?_, hinv.executed_le⟩
  have := length_le_executed (inv_init d) h
  simpa [Workflow.init] using this

/-! ### An agent that requests itself -/

def surfaceDefinition : Definition where
  steps := [{ agent := "surface", group := 1, prompt := "triage" }]
  known_agents := ["surface"]

def requestSelf : GroupRun where
  parallel := []
  sequential := [some ⟨false, some "signal:request:surface:again"⟩]
  completion := []
  replacement := none

theorem executed_le_bound_surface :
    [requestSelf, requestSelf].length ≤ 2 ∧
      2 ≤ surfaceDefinition.bound +
        (((exec (Workflow.step surfaceDefinition) (.init surfaceDefinition)
          [requestSelf, requestSelf]).get (by decide)).rerequested).length := by
  have h := executed_le_bound surfaceDefinition [requestSelf, requestSelf]
    ((exec (Workflow.step surfaceDefinition) (.init surfaceDefinition)
      [requestSelf, requestSelf]).get (by decide)) (Option.some_get _).symm
  have hlen : (((exec (Workflow.step surfaceDefinition) (.init surfaceDefinition)
      [requestSelf, requestSelf]).get (by decide)).executed).length = 2 := by decide
  rwa [hlen] at h

/-- One sequential step of the agent is all that remains. -/
def Waiting (w : Workflow) : Prop :=
  ∃ k step, w.groups.entries = [(k, [step])] ∧ step.agent = "surface" ∧ step.parallel = false

lemma signals_requestSelf {step : WorkflowStep} (hagent : step.agent = "surface")
    (hparallel : step.parallel = false) :
    requestSelf.signals [step] = [⟨.request, "surface", "again", "surface"⟩] := by
  have hresolved : resolveConflicts (parseSignals "signal:request:surface:again" "surface") =
      [⟨.request, "surface", "again", "surface"⟩] := by decide
  simpa [GroupRun.signals, requestSelf, sequentialSteps, doneContents, hparallel, hagent]
    using hresolved

/-- The agent runs once more and requests itself again. -/
lemma step_of_waiting {w : Workflow} (hw : Waiting w) :
    ∃ w', w.step surfaceDefinition requestSelf = some w' ∧ Waiting w' ∧
      w'.executed = w.executed ++ ["surface"] := by
  obtain ⟨k, step, hentries, hagent, hparallel⟩ := hw
  have hpop : w.groups.popFirst = some (k, [step], .empty) := by
    obtain ⟨⟨entries, hsorted⟩, _, _, _, _⟩ := w
    obtain rfl : entries = [(k, [step])] := hentries
    rfl
  have hfits : requestSelf.Fits [step] := by
    simp [GroupRun.Fits, requestSelf, parallelSteps, sequentialSteps, doneContents, hparallel]
  refine ⟨w.afterGroup surfaceDefinition requestSelf k [step] .empty, ?_, ?_, ?_⟩
  · simp only [Workflow.step, hpop, if_pos hfits]
  · refine ⟨(k + 1) % 2 ^ 32, ⟨"surface", (k + 1) % 2 ^ 32, "again", true, none, false⟩, ?_,
      rfl, rfl⟩
    simp only [Workflow.afterGroup, signals_requestSelf hagent hparallel]
    rfl
  · simp [Workflow.afterGroup, requestSelf, hagent]

/-- A workflow of one agent that requests itself in each of its outputs goes on for ever. -/
theorem not_bounded_requestSelf :
    ¬ ∃ f : List WorkflowStep → List String → ℕ → ℕ, ∀ d runs w,
      exec (Workflow.step d) (.init d) runs = some w →
        w.executed.length ≤ f d.steps d.known_agents MAX_REPIVOTS := by
  rintro ⟨f, hf⟩
  have hrun (n : ℕ) (w : Workflow) (hw : Waiting w) :
      ∃ w', exec (Workflow.step surfaceDefinition) w (List.replicate n requestSelf) = some w' ∧
        w'.executed.length = w.executed.length + n := by
    induction n generalizing w with
    | zero => exact ⟨w, rfl, rfl⟩
    | succ n ih =>
      obtain ⟨u, hu, huw, hexec⟩ := step_of_waiting hw
      obtain ⟨w', hw', hlen⟩ := ih u huw
      refine ⟨w', by simp [List.replicate_succ, hu, hw'], ?_⟩
      rw [hlen, hexec, List.length_append, List.length_singleton]
      omega
  obtain ⟨w', hw', hlen⟩ := hrun
    (f surfaceDefinition.steps surfaceDefinition.known_agents MAX_REPIVOTS + 1)
    (.init surfaceDefinition) ⟨1, _, rfl, rfl, rfl⟩
  have := hf surfaceDefinition _ w' hw'
  omega

end Arbeiterfarm.Orchestrator
