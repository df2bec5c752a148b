import Arbeiterfarm.Orchestrator.PlanEdits
import Arbeiterfarm.Orchestrator.SignalOrder
import Arbeiterfarm.Orchestrator.Termination

/-!
# Invariants of the plan

Whatever is requested, skipped, moved and re-queued, no remaining group is empty, each step is in
the group that it names, and the groups run in ascending order. New steps join the first remaining
group or, when none remains, the one after the current group; and there is none after the last
`u32` number.
-/

namespace Arbeiterfarm.Orchestrator

open Foundation OrderedMap

/-- Each step is in the group that it names. -/
def Filed (groups : Groups) : Prop := ∀ k, ∀ s ∈ groups.get k, s.group = k

structure PlanState.Ordered (p : PlanState) : Prop where
  noEmpty : p.groups.NoEmpty
  filed : Filed p.groups
  later : ∀ k ∈ p.order.getLast?, ∀ e ∈ p.groups.entries, k < e.1
  ascending : p.order.Pairwise (· < ·)
  skipped : ∀ s before, p.signaled = some (s, before) → s.kind = .skip →
    alreadyPlanned s.target_agent p.groups = false
  requested : ∀ s before, p.signaled = some (s, before) → s.kind = .request → ∀ agent,
    plannedCount agent p.groups ≤ plannedCount agent before ∨ plannedCount agent p.groups ≤ 1

/-- The signal requests an agent that can be added to the plan. -/
def Adds (known_agents : List String) (groups : Groups) (s : AgentSignal) : Prop :=
  s.kind = .request ∧ s.target_agent ∈ known_agents ∧ alreadyPlanned s.target_agent groups = false

/-- The edit adds a step after the last `u32` group, when no group remained. -/
def Overflows (d : Definition) (p : PlanState) : PlanEdit → Prop
  | .takeGroup _ => False
  | .signal s => ∃ current ∈ p.current, 2 ^ 32 ≤ current.1 + 1 ∧ current.2.entries = [] ∧
      Adds d.known_agents p.groups s
  | .repivot _ => ∃ current ∈ p.current, 2 ^ 32 ≤ current.1 + 1 ∧ p.groups.entries = [] ∧
      ∃ agent_name ∈ p.completed_agents, canRepivot d.steps agent_name

variable {d : Definition} {groups : Groups} {k n : ℕ}

/-! ### The group that a step names -/

lemma Filed.push (h : Filed groups) {step : WorkflowStep} (hstep : step.group = n) :
    Filed (groups.push n step) := by
  intro k s hs
  rw [get_push] at hs
  split_ifs at hs with hk
  · rcases List.mem_append.mp hs with hs | hs
    · rw [hk]
      exact h n s hs
    · rw [List.mem_singleton.mp hs, hk]
      exact hstep
  · exact h k s hs

lemma Filed.removeAgent (h : Filed groups) (q : ℕ → Bool) (agent : String) :
    Filed (removeAgent q agent groups) := by
  intro k s hs
  rw [get_removeAgent] at hs
  split_ifs at hs with hk
  · exact h k s (List.mem_filter.mp hs).1
  · exact h k s hs

lemma Filed.applySignal (h : Filed groups) (known_agents : List String) (n : ℕ)
    (s : AgentSignal) : Filed (applySignal known_agents n groups s).1 := by
  rw [Orchestrator.applySignal]
  cases s.kind with
  | request =>
    simp only
    split_ifs with hknown hplanned
    · exact h
    · exact h.push rfl
    · exact h
  | skip => exact h.removeAgent _ _
  | priority =>
    cases hfind : findBeyond s.target_agent n groups.entries with
    | none => exact h
    | some found => exact (h.removeAgent _ _).push rfl

lemma group_annotate (artifact : ReplacementArtifact) (step : WorkflowStep) :
    (annotate artifact step).group = step.group := by
  rw [annotate]
  split_ifs <;> rfl

lemma Filed.requeue (h : Filed groups) (steps : List WorkflowStep)
    (artifact : ReplacementArtifact) (n : ℕ) (agent_name : String) :
    Filed (requeue steps artifact n groups agent_name) := by
  rw [Orchestrator.requeue]
  split_ifs
  · exact h
  · exact h
  · exact h.push rfl

lemma Filed.repivot (h : Filed groups) (steps : List WorkflowStep)
    (artifact : ReplacementArtifact) (completed_agents : List String) (k : ℕ) :
    Filed (repivot steps artifact completed_agents k groups) := by
  have hrequeued : Filed
      (completed_agents.foldl (Orchestrator.requeue steps artifact (nextGroupNum groups k))
        groups) := by
    generalize nextGroupNum groups k = n
    induction completed_agents generalizing groups with
    | nil => exact h
    | cons agent_name completed_agents ih => exact ih (h.requeue steps artifact n agent_name)
  intro k s hs
  rw [Orchestrator.repivot, get_filterMapGroups (fun _ => rfl), Option.getD_some] at hs
  obtain ⟨s', hs', rfl⟩ := List.mem_map.mp hs
  rw [group_annotate]
  exact hrequeued k s' hs'

lemma filed_init (steps : List WorkflowStep) (h : Filed groups) :
    Filed (steps.foldl (fun groups step => groups.push step.group step) groups) := by
  induction steps generalizing groups with
  | nil => exact h
  | cons step steps ih => exact ih (h.push rfl)

/-! ### The insertion group -/

lemma nextGroupNum_of_entries_eq_nil (h : groups.entries = []) :
    nextGroupNum groups k = (k + 1) % 2 ^ 32 := by
  rw [nextGroupNum, firstKey?, h]
  rfl

/-- The insertion group is a later one unless its number overflows. -/
lemma lt_nextGroupNum_iff (h : ∀ e ∈ groups.entries, k < e.1) :
    k < nextGroupNum groups k ↔ ¬(2 ^ 32 ≤ k + 1 ∧ groups.entries = []) := by
  cases hentries : groups.entries with
  | nil =>
    rw [nextGroupNum_of_entries_eq_nil hentries, and_iff_left rfl, not_le]
    constructor
    · intro hlt
      by_contra hle
      have := Nat.mod_lt (k + 1) (show 0 < 2 ^ 32 by decide)
      omega
    · intro hlt
      rw [Nat.mod_eq_of_lt hlt]
      exact k.lt_succ_self
  | cons e l =>
    have hfirst : nextGroupNum groups k = e.1 := by
      rw [nextGroupNum, firstKey?, hentries]
      rfl
    rw [hfirst, iff_true_left (h e (by rw [hentries]; exact List.mem_cons_self))]
    rintro ⟨-, hnil⟩
    cases hnil

lemma exists_key_push (n : ℕ) (step : WorkflowStep) (groups : Groups) :
    ∃ e ∈ (groups.push n step).entries, e.1 = n := by
  have hget : step ∈ (groups.push n step).get n := by
    rw [get_push, if_pos rfl]
    exact List.mem_append_right _ (List.mem_singleton_self step)
  obtain ⟨steps, hmem, -⟩ := mem_of_mem_getEntry hget
  exact ⟨(n, steps), hmem, rfl⟩

/-! ### Signals -/

lemma alreadyPlanned_of_skip (known_agents : List String) (n : ℕ) (groups : Groups)
    {s : AgentSignal} (hskip : s.kind = .skip) :
    alreadyPlanned s.target_agent (applySignal known_agents n groups s).1 = false := by
  rw [applySignal, hskip, alreadyPlanned_eq_false]
  intro g
  rw [planned_removeAgent, if_pos ⟨rfl, rfl⟩]

/-- A signal that finds an empty plan leaves it empty, unless it adds an agent. -/
lemma applySignal_of_entries_eq_nil {known_agents : List String} {s : AgentSignal}
    (h : groups.entries = []) (hadds : ¬Adds known_agents groups s) :
    (applySignal known_agents n groups s).1.entries = [] := by
  rw [applySignal]
  cases hkind : s.kind with
  | request =>
    simp only
    split_ifs with hknown hplanned
    · exact h
    · exact absurd ⟨hkind, hknown, Bool.eq_false_iff.mpr hplanned⟩ hadds
    · exact h
  | skip =>
    simp only [removeAgent, filterMapGroups, h]
    rfl
  | priority =>
    rw [h]
    exact h

lemma entries_of_adds {known_agents : List String} {s : AgentSignal}
    (h : Adds known_agents groups s) :
    ∃ e ∈ (applySignal known_agents n groups s).1.entries, e.1 = n := by
  obtain ⟨hkind, hknown, hplanned⟩ := h
  rw [applySignal, hkind]
  simp only [if_neg (not_not.mpr hknown), hplanned, Bool.false_eq_true, if_false]
  exact exists_key_push n _ groups

/-- After a signal, what remains is later, unless it has been added with an earlier number. -/
lemma later_applySignal_iff {known_agents : List String} {s : AgentSignal}
    (h : ∀ e ∈ groups.entries, k < e.1) (hn : k < n ∨ groups.entries = []) :
    (∀ e ∈ (applySignal known_agents n groups s).1.entries, k < e.1) ↔
      ¬(n ≤ k ∧ Adds known_agents groups s) := by
  constructor
  · rintro hlater ⟨hle, hadds⟩
    obtain ⟨e, he, rfl⟩ := entries_of_adds (n := n) hadds
    exact absurd (hlater e he) hle.not_gt
  · intro hadds
    by_cases hlt : k < n
    · exact forall_key_applySignal hlt h known_agents s
    · have hentries := hn.resolve_left hlt
      have hnone := applySignal_of_entries_eq_nil (n := n) hentries
        fun hadd => hadds ⟨not_lt.mp hlt, hadd⟩
      rw [hnone]
      exact List.forall_mem_nil _

/-! ### Repivot -/

lemma forall_key_requeue_all {Q : ℕ → Prop} (hn : Q n) (h : ∀ e ∈ groups.entries, Q e.1)
    (steps : List WorkflowStep) (artifact : ReplacementArtifact) (names : List String) :
    ∀ e ∈ (names.foldl (requeue steps artifact n) groups).entries, Q e.1 := by
  induction names generalizing groups with
  | nil => exact h
  | cons name names ih =>
    refine ih ?_
    rw [requeue]
    split_ifs
    · exact h
    · exact h
    · exact forall_key_push hn h _

/-- An agent that may run again is planned once it has been considered. -/
lemma plannedCount_requeue_all_pos {steps : List WorkflowStep} {agent_name : String}
    (hcan : canRepivot steps agent_name) (artifact : ReplacementArtifact) {names : List String}
    (hmem : agent_name ∈ names) (groups : Groups) :
    0 < plannedCount agent_name (names.foldl (requeue steps artifact n) groups) := by
  induction names generalizing groups with
  | nil => cases hmem
  | cons name names ih =>
    rw [List.foldl_cons]
    rcases List.mem_cons.mp hmem with rfl | hmem
    · have hplanned : 0 < plannedCount agent_name (requeue steps artifact n groups agent_name) := by
        rw [requeue]
        split_ifs with halready hcannot
        · rw [Nat.pos_iff_ne_zero, ne_eq, plannedCount_eq_zero_iff, halready]
          exact Bool.true_eq_false_eq_False
        · rw [canRepivot] at hcan
          simp [hcan] at hcannot
        · rw [plannedCount_push, requeueStep, if_pos rfl]
          exact Nat.succ_pos _
      rcases plannedCount_requeue_all steps artifact n
        (requeue steps artifact n groups agent_name) names agent_name with heq | ⟨-, hone⟩
      · rwa [heq]
      · rw [hone]
        exact Nat.one_pos
    · exact ih hmem _

lemma requeue_all_eq_self {steps : List WorkflowStep} {names : List String}
    (h : ∀ name ∈ names, canRepivot steps name = false) (artifact : ReplacementArtifact)
    (n : ℕ) (groups : Groups) : names.foldl (requeue steps artifact n) groups = groups := by
  induction names with
  | nil => rfl
  | cons name names ih =>
    obtain ⟨hname, hnames⟩ := List.forall_mem_cons.mp h
    have hself : requeue steps artifact n groups name = groups := by
      rw [canRepivot] at hname
      simp [requeue, hname]
    rw [List.foldl_cons, hself, ih hnames]

/-- After a repivot, what remains is later, unless an agent has been re-queued with an earlier
number. -/
lemma later_repivot_iff (h : ∀ e ∈ groups.entries, k < e.1) (steps : List WorkflowStep)
    (artifact : ReplacementArtifact) (completed_agents : List String) :
    (∀ e ∈ (repivot steps artifact completed_agents k groups).entries, k < e.1) ↔
      ¬(2 ^ 32 ≤ k + 1 ∧ groups.entries = [] ∧
        ∃ agent_name ∈ completed_agents, canRepivot steps agent_name) := by
  constructor
  · rintro hlater ⟨hmax, hentries, agent_name, hmem, hcan⟩
    have hplanned : 0 < plannedCount agent_name
        (repivot steps artifact completed_agents k groups) := by
      rw [plannedCount_repivot_eq]
      exact plannedCount_requeue_all_pos hcan artifact hmem groups
    have hnone : ∀ e ∈ groups.entries, e.1 = nextGroupNum groups k := by
      rw [hentries]
      exact List.forall_mem_nil _
    have hkeys : ∀ e ∈ (repivot steps artifact completed_agents k groups).entries,
        e.1 = nextGroupNum groups k :=
      forall_key_filterMapGroups (Q := fun key => key = nextGroupNum groups k)
        (forall_key_requeue_all (Q := fun key => key = nextGroupNum groups k) rfl hnone steps
          artifact _) _
    obtain ⟨s, hs, -⟩ := List.countP_pos_iff.mp hplanned
    obtain ⟨e, he, -⟩ := List.mem_flatMap.mp hs
    have hlt := hlater e he
    rw [hkeys e he, lt_nextGroupNum_iff h] at hlt
    exact hlt ⟨hmax, hentries⟩
  · intro hcond
    by_cases hlt : k < nextGroupNum groups k
    · exact forall_key_filterMapGroups (forall_key_requeue_all hlt h steps artifact _) _
    · rw [lt_nextGroupNum_iff h, not_not] at hlt
      have hnone : ∀ agent_name ∈ completed_agents, canRepivot steps agent_name = false := by
        intro agent_name hmem
        rw [Bool.eq_false_iff]
        intro hcan
        exact hcond ⟨hlt.1, hlt.2, agent_name, hmem, hcan⟩
      rw [repivot, requeue_all_eq_self hnone]
      exact forall_key_filterMapGroups h _

/-! ### Runs -/

/-- The group just executed is the last one taken, and when its number has no successor and nothing
remained, all that has been added since shares one key. -/
def CurrentLast (p : PlanState) : Prop :=
  ∀ k remaining, p.current = some (k, remaining) → p.order.getLast? = some k ∧
    (∀ e ∈ remaining.entries, k < e.1) ∧
      (remaining.entries = [] → ∀ e ∈ p.groups.entries, e.1 = nextGroupNum remaining k)

lemma currentLast_step {p q : PlanState} {edit : PlanEdit} (hp : CurrentLast p)
    (h : p.step d edit = some q) : CurrentLast q := by
  intro k remaining hcurrent
  cases edit with
  | takeGroup completed =>
    obtain ⟨k', steps, groups, hpop, -, rfl⟩ := step_takeGroup h
    obtain ⟨rfl, rfl⟩ := Prod.mk.inj (Option.some.inj hcurrent)
    refine ⟨List.getLast?_concat, lt_of_popFirst hpop, ?_⟩
    intro hentries
    simp only [PlanState.takeGroup, hentries]
    exact List.forall_mem_nil _
  | signal s =>
    obtain ⟨k', remaining', hcurrent', rfl⟩ := step_signal h
    obtain ⟨rfl, rfl⟩ := Prod.mk.inj (Option.some.inj (hcurrent'.symm.trans hcurrent))
    obtain ⟨hlast, hlater, hkey⟩ := hp _ _ hcurrent'
    refine ⟨hlast, hlater, ?_⟩
    intro hentries
    exact forall_key_applySignal
      (Q := fun key => key = nextGroupNum remaining' k') rfl (hkey hentries) _ s
  | repivot artifact =>
    obtain ⟨k', remaining', -, -, rfl⟩ := step_repivot h
    cases hcurrent

lemma ordered_takeGroup {p : PlanState} (hp : p.Ordered) {completed : List String} {k : ℕ}
    {steps : List WorkflowStep} {groups : Groups}
    (hpop : p.groups.popFirst = some (k, steps, groups)) :
    (p.takeGroup completed k groups).Ordered where
  noEmpty := (hp.noEmpty.popFirst hpop).2
  filed := fun k' s hs => hp.filed k' s (mem_get_of_popFirst hpop hs)
  later := by
    intro k' hk'
    obtain rfl := Option.some.inj (List.getLast?_concat.symm.trans hk')
    exact lt_of_popFirst hpop
  ascending := by
    refine List.pairwise_append.mpr ⟨hp.ascending, List.pairwise_singleton _ _, ?_⟩
    intro k₁ hk₁ k₂ hk₂
    obtain rfl := List.mem_singleton.mp hk₂
    -- the groups taken before are at most the last of them, which is before what remains
    obtain ⟨front, last, hfront⟩ :=
      (List.eq_nil_or_concat' p.order).resolve_left (List.ne_nil_of_mem hk₁)
    have hlast : p.order.getLast? = some last := by rw [hfront, List.getLast?_concat]
    have hle : k₁ ≤ last := by
      have hascending := hp.ascending
      rw [hfront] at hk₁ hascending
      rcases List.mem_append.mp hk₁ with hk₁ | hk₁
      · have hbefore := (List.pairwise_append.mp hascending).2.2
        exact (hbefore _ hk₁ _ (List.mem_singleton_self last)).le
      · exact (List.mem_singleton.mp hk₁).le
    refine lt_of_le_of_lt hle (hp.later last hlast (k₂, steps) ?_)
    rw [entries_popFirst hpop]
    exact List.mem_cons_self
  skipped := by
    intro s before h
    cases h
  requested := by
    intro s before h
    cases h

lemma ordered_signal_iff {p : PlanState} (hp : p.Ordered) (hcurrent : CurrentLast p) {k : ℕ}
    {remaining : Groups} (h : p.current = some (k, remaining)) (s : AgentSignal) :
    (p.signal d s k remaining).Ordered ↔ ¬Overflows d p (.signal s) := by
  obtain ⟨hlast, hremaining, hkey⟩ := hcurrent k remaining h
  have hlater := hp.later k hlast
  have hn : k < nextGroupNum remaining k ∨ p.groups.entries = [] := by
    by_cases hlt : k < nextGroupNum remaining k
    · exact .inl hlt
    · rw [lt_nextGroupNum_iff hremaining, not_not] at hlt
      refine .inr (List.eq_nil_iff_forall_not_mem.mpr ?_)
      intro e he
      have hek := hlater e he
      rw [hkey hlt.2 e he, lt_nextGroupNum_iff hremaining] at hek
      exact hek hlt
  have hoverflows : Overflows d p (.signal s) ↔
      nextGroupNum remaining k ≤ k ∧ Adds d.known_agents p.groups s := by
    rw [← not_lt, lt_nextGroupNum_iff hremaining, not_not, Overflows, h]
    simp [and_assoc]
  rw [hoverflows, ← later_applySignal_iff hlater hn]
  constructor
  · intro hq
    exact hq.later k hlast
  · intro hq
    refine ⟨noEmpty_applySignal hp.noEmpty _ _ _, hp.filed.applySignal _ _ _, ?_, hp.ascending,
      ?_, ?_⟩
    · intro k' hk'
      obtain rfl := Option.some.inj (hlast.symm.trans hk')
      exact hq
    · intro s' before hs' hskip
      obtain ⟨rfl, rfl⟩ := Prod.mk.inj (Option.some.inj hs')
      exact alreadyPlanned_of_skip _ _ _ hskip
    · intro s' before hs' hrequest agent
      obtain ⟨rfl, rfl⟩ := Prod.mk.inj (Option.some.inj hs')
      rcases applySignal_spec d.known_agents (nextGroupNum remaining k) p.groups s agent with
        hle | ⟨-, -, hone, -⟩
      · exact .inl hle
      · exact .inr hone.le

lemma ordered_repivot_iff {p : PlanState} (hp : p.Ordered) (hcurrent : CurrentLast p) {k : ℕ}
    {remaining : Groups} (h : p.current = some (k, remaining)) (artifact : ReplacementArtifact) :
    (p.repivot d artifact k).Ordered ↔ ¬Overflows d p (.repivot artifact) := by
  obtain ⟨hlast, -, -⟩ := hcurrent k remaining h
  have hoverflows : Overflows d p (.repivot artifact) ↔ 2 ^ 32 ≤ k + 1 ∧ p.groups.entries = [] ∧
      ∃ agent_name ∈ p.completed_agents, canRepivot d.steps agent_name := by
    rw [Overflows, h]
    simp
  rw [hoverflows, ← later_repivot_iff (hp.later k hlast) d.steps artifact p.completed_agents]
  constructor
  · intro hq
    exact hq.later k hlast
  · intro hq
    refine ⟨noEmpty_repivot hp.noEmpty _ _ _ _, hp.filed.repivot _ _ _ _, ?_, hp.ascending, ?_, ?_⟩
    · intro k' hk'
      obtain rfl := Option.some.inj (hlast.symm.trans hk')
      exact hq
    · intro s before hs
      cases hs
    · intro s before hs
      cases hs

lemma ordered_step_iff {p q : PlanState} {edit : PlanEdit} (hcurrent : CurrentLast p)
    (hp : p.Ordered) (h : p.step d edit = some q) : q.Ordered ↔ ¬Overflows d p edit := by
  cases edit with
  | takeGroup completed =>
    obtain ⟨k, steps, groups, hpop, -, rfl⟩ := step_takeGroup h
    exact iff_of_true (ordered_takeGroup hp hpop) not_false
  | signal s =>
    obtain ⟨k, remaining, hk, rfl⟩ := step_signal h
    exact ordered_signal_iff hp hcurrent hk s
  | repivot artifact =>
    obtain ⟨k, remaining, hk, -, rfl⟩ := step_repivot h
    exact ordered_repivot_iff hp hcurrent hk artifact

lemma ordered_init (d : Definition) : (PlanState.init d).Ordered where
  noEmpty := noEmpty_init d.steps noEmpty_empty
  filed := filed_init d.steps fun _ _ hs => absurd hs List.not_mem_nil
  later := by
    intro k hk
    cases hk
  ascending := .nil
  skipped := by
    intro s before h
    cases h
  requested := by
    intro s before h
    cases h

/-- The plan is in order throughout a run exactly when no step is added after the last `u32`
group. -/
theorem ordered_iff_not_overflows (d : Definition) (edits : List PlanEdit) (p : PlanState)
    (h : exec (PlanState.step d) (.init d) edits = some p) :
    Always (PlanState.step d) PlanState.Ordered (.init d) edits ↔
      Along (PlanState.step d) (fun p edit => ¬Overflows d p edit) (.init d) edits := by
  have hinit : CurrentLast (.init d) := by
    intro k remaining hcurrent
    cases hcurrent
  exact always_iff_along (fun _ _ _ => currentLast_step)
    (fun _ _ _ hcurrent hp hstep => ordered_step_iff hcurrent hp hstep) hinit (ordered_init d) h

instance (d : Definition) (p : PlanState) (edit : PlanEdit) : Decidable (Overflows d p edit) :=
  match edit with
  | .takeGroup _ => inferInstanceAs (Decidable False)
  | .signal s => inferInstanceAs (Decidable (∃ current ∈ p.current, 2 ^ 32 ≤ current.1 + 1 ∧
      current.2.entries = [] ∧ s.kind = .request ∧ s.target_agent ∈ d.known_agents ∧
      alreadyPlanned s.target_agent p.groups = false))
  | .repivot _ => inferInstanceAs (Decidable (∃ current ∈ p.current, 2 ^ 32 ≤ current.1 + 1 ∧
      p.groups.entries = [] ∧ ∃ agent_name ∈ p.completed_agents, canRepivot d.steps agent_name))

/-- A definition whose only group is `group`. -/
def surfaceOnly (group : ℕ) : Definition where
  steps := [⟨"surface", group, "", true, none, false⟩]
  known_agents := ["surface", "intel"]

def requestIntel : List PlanEdit :=
  [.takeGroup ["surface"], .signal ⟨.request, "intel", "", "surface"⟩]

theorem ordered_iff_not_overflows_requestIntel :
    Always (PlanState.step (surfaceOnly 1)) PlanState.Ordered (.init (surfaceOnly 1))
      (requestIntel ++ [.repivot ⟨"b", "unpacked", "a"⟩, .takeGroup ["intel"]]) := by
  obtain ⟨p, hp⟩ : ∃ p, exec (PlanState.step (surfaceOnly 1)) (.init (surfaceOnly 1))
      (requestIntel ++ [.repivot ⟨"b", "unpacked", "a"⟩, .takeGroup ["intel"]]) = some p :=
    Option.isSome_iff_exists.mp (by decide)
  exact (ordered_iff_not_overflows _ _ p hp).mpr (by decide)

/-- After group 4294967295, what is requested is in group 0. -/
theorem not_ordered_after_last_group :
    ¬Always (PlanState.step (surfaceOnly 4294967295)) PlanState.Ordered
      (.init (surfaceOnly 4294967295)) requestIntel := by
  intro h
  obtain ⟨p, hp⟩ : ∃ p, exec (PlanState.step (surfaceOnly 4294967295))
      (.init (surfaceOnly 4294967295)) requestIntel = some p :=
    Option.isSome_iff_exists.mp (by decide)
  have hkeys : (exec (PlanState.step (surfaceOnly 4294967295)) (.init (surfaceOnly 4294967295))
      requestIntel).map (fun p => (p.order.getLast?, p.groups.entries.map Prod.fst)) =
        some (some 4294967295, [0]) := by decide
  rw [hp, Option.map_some, Option.some.injEq, Prod.mk.injEq] at hkeys
  obtain ⟨e, he, hzero⟩ := List.mem_map.mp (hkeys.2.symm ▸ List.mem_singleton_self 0)
  have hlater := (h.of_exec hp).later _ hkeys.1 e he
  omega

end Arbeiterfarm.Orchestrator
