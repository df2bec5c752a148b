import Arbeiterfarm.Orchestrator.SignalOrder
import Mathlib.Data.List.Perm.Basic

/-!
# Priority signals

A priority signal moves a step of its target from a later group to the next one, and notes the
reason in its prompt. It moves one step, and removes all the steps that the target has in the
group where it found the step; so nothing is lost as long as there is one only.
-/

namespace Arbeiterfarm.Orchestrator

open Foundation OrderedMap

variable {groups : Groups} {n : ℕ} {signals : List AgentSignal}

/-- The step as it is in the next group. -/
def prioritized (n : ℕ) (reason : String) (step : WorkflowStep) : WorkflowStep :=
  { step with group := n, prompt := step.prompt ++ " [PRIORITY: " ++ reason ++ "]" }

/-- A step in its group stays there, or is moved for one of the signals. -/
def MovedBy (signals : List AgentSignal) (n : ℕ) (x y : ℕ × WorkflowStep) : Prop :=
  y = x ∨ ∃ signal ∈ signals, signal.target_agent = x.2.agent ∧ n < x.1 ∧
    y = (n, prioritized n signal.reason x.2)

/-- In no later group, a target has two steps. -/
def OncePerGroup (signals : List AgentSignal) (n : ℕ) (groups : Groups) : Prop :=
  ∀ signal ∈ signals, ∀ g, n < g → planned groups signal.target_agent g ≤ 1

lemma movedBy_refl (x : ℕ × WorkflowStep) : MovedBy signals n x x := .inl rfl

/-- A step that has been moved is not moved again. -/
lemma MovedBy.trans {signal : AgentSignal} {x y z : ℕ × WorkflowStep}
    (h : MovedBy [signal] n x y) (h' : MovedBy signals n y z) :
    MovedBy (signal :: signals) n x z := by
  rcases h with rfl | ⟨signal', hsignal, htarget, hlater, rfl⟩
  · rcases h' with rfl | ⟨signal', hsignal, hmoved⟩
    · exact .inl rfl
    · exact .inr ⟨signal', List.mem_cons_of_mem _ hsignal, hmoved⟩
  · obtain rfl := List.mem_singleton.mp hsignal
    rcases h' with rfl | ⟨-, -, -, hlater', -⟩
    · exact .inr ⟨signal', List.mem_cons_self, htarget, hlater, rfl⟩
    · exact absurd hlater' (lt_irrefl n)

/-! ### One signal -/

/-- Of the steps of the agent in the group, there is one. -/
lemma filter_pairs_eq_singleton {agent : String} {g : ℕ} {step : WorkflowStep}
    (hfirst : (groups.get g).find? (fun s => s.agent = agent) = some step)
    (honce : planned groups agent g ≤ 1) :
    (groups.pairs.filter fun x => decide (x.1 = g) && decide (x.2.agent = agent)) =
      [(g, step)] := by
  have hsteps : (groups.get g).filter (fun s => s.agent = agent) = [step] := by
    have hagent : step.agent = agent := by
      simpa only [decide_eq_true_eq] using List.find?_some hfirst
    have hstep : step ∈ (groups.get g).filter fun s => s.agent = agent :=
      List.mem_filter.mpr ⟨List.mem_of_find?_eq_some hfirst, decide_eq_true hagent⟩
    rw [planned, List.countP_eq_length_filter] at honce
    obtain ⟨step', hsteps⟩ :=
      List.length_eq_one_iff.mp (le_antisymm honce (List.length_pos_of_mem hstep))
    rw [hsteps, List.mem_singleton] at hstep
    rw [hsteps, hstep]
  have hsplit : (groups.pairs.filter fun x => decide (x.1 = g) && decide (x.2.agent = agent)) =
      (groups.pairs.filter fun x => x.1 = g).filter fun x => x.2.agent = agent := by
    rw [List.filter_filter]
    apply List.filter_congr
    intro x _
    exact Bool.and_comm _ _
  rw [hsplit, filter_pairs, List.filter_map]
  show ((groups.get g).filter fun s => s.agent = agent).map (g, ·) = _
  rw [hsteps]
  rfl

lemma pairs_removeAgent (agent : String) (g : ℕ) :
    (removeAgent (fun gnum => gnum = g) agent groups).pairs =
      groups.pairs.filter fun x => !(decide (x.1 = g) && decide (x.2.agent = agent)) := by
  apply pairs_filterMapGroups
  intro k steps
  by_cases hk : k = g
  · simp only [decide_eq_true hk, if_true, Bool.true_and]
    have hkept : steps.filter (fun s => s.agent ≠ agent) =
        steps.filter fun s => !decide (s.agent = agent) := by
      apply List.filter_congr
      intro s _
      exact decide_not
    rw [hkept]
    split_ifs with hnone
    · exact hnone.symm
    · rfl
  · simp [hk]

/-- A priority signal moves one step, or none. -/
lemma pairs_applySignal_priority {signal : AgentSignal} (hkind : signal.kind = .priority)
    (hkeys : KeysFrom n groups) (honce : OncePerGroup [signal] n groups)
    (known_agents : List String) :
    ∃ l, List.Forall₂ (MovedBy [signal] n) groups.pairs l ∧
      l.Perm (applySignal known_agents n groups signal).1.pairs := by
  rw [applySignal, hkind]
  cases hfind : findBeyond signal.target_agent n groups.entries with
  | none => exact ⟨groups.pairs, List.forall₂_same.mpr fun x _ => movedBy_refl x, .refl _⟩
  | some found =>
    obtain ⟨from_group, step⟩ := found
    obtain ⟨hlater, -, hfirst⟩ := findBeyond_eq_some groups.sorted hkeys hfind
    have hstep : step.agent = signal.target_agent := by
      simpa only [decide_eq_true_eq] using List.find?_some hfirst
    let others := (removeAgent (fun gnum => gnum = from_group) signal.target_agent groups).pairs
    have hbefore : groups.pairs.Perm ((from_group, step) :: others) := by
      have hsplit := List.filter_append_perm
        (fun x : ℕ × WorkflowStep => decide (x.1 = from_group) &&
          decide (x.2.agent = signal.target_agent)) groups.pairs
      rw [filter_pairs_eq_singleton hfirst
        (honce signal List.mem_cons_self from_group hlater), ← pairs_removeAgent] at hsplit
      exact hsplit.symm
    have hmoved : List.Forall₂ (MovedBy [signal] n) ((from_group, step) :: others)
        ((n, prioritized n signal.reason step) :: others) := by
      refine .cons (.inr ⟨signal, List.mem_cons_self, hstep.symm, hlater, rfl⟩) ?_
      exact List.forall₂_same.mpr fun x _ => movedBy_refl x
    obtain ⟨l, hl, hperm⟩ := List.perm_comp_forall₂ hbefore hmoved
    exact ⟨l, hl, hperm.trans (pairs_push _ _ _).symm⟩

/-- Later groups only lose steps of a target. -/
lemma oncePerGroup_applySignal {signal : AgentSignal} (hkind : signal.kind = .priority)
    (hkeys : KeysFrom n groups) (honce : OncePerGroup signals n groups)
    (known_agents : List String) :
    OncePerGroup signals n (applySignal known_agents n groups signal).1 := by
  intro signal' hsignal' g hg
  have hbefore := honce signal' hsignal' g hg
  rw [planned_applySignal hkeys, hkind]
  split_ifs
  · rw [SignalKind.act, moveFirst]
    split_ifs
    · rw [Function.update_of_ne hg.ne', Function.update_apply]
      split_ifs
      · exact Nat.zero_le 1
      · exact hbefore
    · exact hbefore
  · exact hbefore

/-! ### All signals -/

lemma forall₂_movedBy_trans {signal : AgentSignal} {xs ys zs : List (ℕ × WorkflowStep)}
    (h : List.Forall₂ (MovedBy [signal] n) xs ys) (h' : List.Forall₂ (MovedBy signals n) ys zs) :
    List.Forall₂ (MovedBy (signal :: signals) n) xs zs := by
  induction h generalizing zs with
  | nil =>
    cases h'
    exact .nil
  | cons hxy _ ih =>
    cases h' with
    | cons hyz hrest => exact .cons (hxy.trans hyz) (ih hrest)

lemma pairs_go (hpriority : ∀ s ∈ signals, s.kind = .priority) (hkeys : KeysFrom n groups)
    (honce : OncePerGroup signals n groups) (known_agents : List String) :
    ∃ l, List.Forall₂ (MovedBy signals n) groups.pairs l ∧
      l.Perm (applySignals.go known_agents n groups signals).1.pairs := by
  induction signals generalizing groups with
  | nil => exact ⟨groups.pairs, List.forall₂_same.mpr fun x _ => movedBy_refl x, .refl _⟩
  | cons signal signals ih =>
    obtain ⟨hkind, hpriority⟩ := List.forall_mem_cons.mp hpriority
    obtain ⟨hfirst, honce⟩ := List.forall_mem_cons.mp honce
    obtain ⟨l, hl, hperm⟩ := pairs_applySignal_priority hkind hkeys
      (List.forall_mem_singleton.mpr hfirst) known_agents
    obtain ⟨l', hl', hperm'⟩ := ih hpriority (keysFrom_applySignal hkeys known_agents signal)
      (oncePerGroup_applySignal hkind hkeys honce known_agents)
    obtain ⟨l'', hl'', hperm''⟩ := List.perm_comp_forall₂ hperm hl'
    exact ⟨l'', forall₂_movedBy_trans hl hl'', hperm''.trans hperm'⟩

/-- Priority signals keep every step: it stays where it is, or goes to the next group with a note
in its prompt. -/
theorem pairs_applySignals_priority (hpriority : ∀ s ∈ signals, s.kind = .priority)
    (current_group_num : ℕ) (known_agents : List String)
    (honce : OncePerGroup signals (nextGroupNum groups current_group_num) groups) :
    ∃ l, List.Forall₂ (MovedBy signals (nextGroupNum groups current_group_num)) groups.pairs l ∧
      l.Perm (applySignals signals groups current_group_num known_agents).1.pairs :=
  pairs_go hpriority (keysFrom_nextGroupNum groups current_group_num) honce known_agents

/-- The reporter is planned for the last of three groups. -/
def reporterLast : Groups :=
  (reporterLater.push 3 ⟨"yara", 3, "", true, none, false⟩).push 4
    ⟨"reporter", 4, "again", true, none, false⟩

lemma oncePerGroup_of_entries (h : ∀ e ∈ groups.entries, ∀ signal ∈ signals,
    e.2.countP (fun s => s.agent = signal.target_agent) ≤ 1) : OncePerGroup signals n groups := by
  intro signal hsignal g _
  rw [planned, List.countP_eq_length_filter]
  by_contra hmany
  have hstep : ∃ s, s ∈ groups.get g := by
    rw [← List.length_pos_iff_exists_mem]
    have hle := List.length_filter_le (fun s => decide (s.agent = signal.target_agent))
      (groups.get g)
    omega
  obtain ⟨s, hs⟩ := hstep
  obtain ⟨steps, hsteps, -⟩ := mem_of_mem_getEntry hs
  have hle := h (g, steps) hsteps signal hsignal
  rw [List.countP_eq_length_filter] at hle
  rw [OrderedMap.get, getEntry_eq_of_mem groups.sorted hsteps] at hmany
  exact hmany hle

theorem pairs_applySignals_priority_reporterLast :
    ∃ l, List.Forall₂ (MovedBy [⟨.priority, "reporter", "urgent", "intel"⟩]
        (nextGroupNum reporterLast 1)) reporterLast.pairs l ∧
      l.Perm (applySignals [⟨.priority, "reporter", "urgent", "intel"⟩] reporterLast 1
        []).1.pairs :=
  pairs_applySignals_priority (by decide) 1 [] (oncePerGroup_of_entries (by decide))

/-- The reporter has two steps in the last group. -/
def reporterTwice : Groups :=
  reporterLater.push 3 ⟨"reporter", 3, "again", true, none, false⟩

/-- A priority signal changes the prompt of the step that it moves, and where its target has two
steps in one group, one of them is lost. -/
theorem not_perm_applySignals_priority :
    ¬ ((applySignals [⟨.priority, "reporter", "urgent", "intel"⟩] reporterLater 1 []).1.elems.map
        fun s => (s.agent, s.prompt)).Perm (reporterLater.elems.map fun s => (s.agent, s.prompt)) ∧
    ¬ ((applySignals [⟨.priority, "reporter", "urgent", "intel"⟩] reporterTwice 1 []).1.elems.map
        (·.agent)).Perm (reporterTwice.elems.map (·.agent)) := by
  decide

end Arbeiterfarm.Orchestrator
