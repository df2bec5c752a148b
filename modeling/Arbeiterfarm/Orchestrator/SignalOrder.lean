import Arbeiterfarm.Orchestrator.Workflow
import Mathlib.Algebra.Notation.Pi.Defs
import Mathlib.Data.List.Count
import Mathlib.Data.List.Nodup
import Mathlib.Data.Nat.Find

/-!
# The order of signals

The agents of a group finish in any order, and their signals are collected in that order. A signal
changes only where its target is planned, and how it does depends on nothing else; of two signals
for one target, only a request and a skip would not commute, and conflict resolution drops the
skip. So the order decides about reasons and positions, but not about who is planned where.
-/

namespace Arbeiterfarm.Orchestrator

open Foundation OrderedMap

variable {groups : Groups} {agent : String} {n g : ℕ}

/-! ### Where an agent is planned -/

/-- How often the agent is planned in each group. -/
def planned (groups : Groups) (agent : String) (g : ℕ) : ℕ :=
  (groups.get g).countP fun s => s.agent = agent

lemma planned_eq_zero : planned groups agent g = 0 ↔ ∀ s ∈ groups.get g, s.agent ≠ agent := by
  rw [planned, List.countP_eq_zero]
  simp only [decide_eq_true_eq]

lemma alreadyPlanned_eq_false : alreadyPlanned agent groups = false ↔
    ∀ g, planned groups agent g = 0 := by
  simp only [alreadyPlanned, List.any_eq_false, decide_eq_true_eq, mem_elems_iff, planned_eq_zero]
  constructor
  · intro h g s hs
    exact h s ⟨g, hs⟩
  · rintro h s ⟨g, hs⟩
    exact h g s hs

lemma planned_push (step : WorkflowStep) : planned (groups.push n step) agent =
    if step.agent = agent then
      Function.update (planned groups agent) n (planned groups agent n + 1)
    else planned groups agent := by
  funext g
  rw [planned, get_push]
  by_cases hg : g = n
  · subst hg
    rw [if_pos rfl, List.countP_append, List.countP_singleton]
    by_cases hagent : step.agent = agent
    · simp [hagent, planned]
    · simp [hagent, planned]
  · rw [if_neg hg]
    by_cases hagent : step.agent = agent
    · rw [if_pos hagent, Function.update_of_ne hg, planned]
    · rw [if_neg hagent, planned]

lemma get_removeAgent (p : ℕ → Bool) : (removeAgent p agent groups).get g =
    if p g then (groups.get g).filter fun s => s.agent ≠ agent else groups.get g := by
  rw [removeAgent, get_filterMapGroups]
  · by_cases hp : p g
    · rw [if_pos hp, if_pos hp]
      simp only
      split_ifs with hkept
      · exact hkept.symm
      · rfl
    · rw [if_neg hp, if_neg hp, Option.getD_some]
  · intro k
    by_cases hp : p k
    · rw [if_pos hp]
      rfl
    · rw [if_neg hp, Option.getD_some]

lemma planned_removeAgent (p : ℕ → Bool) (target : String) :
    planned (removeAgent p target groups) agent g =
      if target = agent ∧ p g then 0 else planned groups agent g := by
  rw [planned, get_removeAgent]
  by_cases hp : p g
  · rw [if_pos hp]
    by_cases hagent : target = agent
    · subst hagent
      rw [if_pos ⟨rfl, hp⟩, List.countP_eq_zero]
      intro s hs
      simpa using (List.mem_filter.mp hs).2
    · rw [if_neg (fun h => hagent h.1), List.countP_filter, planned]
      apply List.countP_congr
      intro s _
      simp only [Bool.and_eq_true, decide_eq_true_eq]
      refine ⟨fun h => h.1, fun h => ⟨h, ?_⟩⟩
      rintro rfl
      exact hagent h
  · rw [if_neg hp, if_neg (fun h => hp h.2), planned]

/-! ### The search for a step to move -/

/-- The next group comes first. -/
def KeysFrom (n : ℕ) (groups : Groups) : Prop := ∀ e ∈ groups.entries, n ≤ e.1

section

variable {l : List (ℕ × List WorkflowStep)} {step : WorkflowStep}

lemma lt_of_sorted_cons {k : ℕ} {as : List WorkflowStep}
    (hsorted : (((k, as) :: l).map Prod.fst).Pairwise (· < ·)) : ∀ e ∈ l, k < e.1 :=
  fun _ he => (List.pairwise_cons.mp hsorted).1 _ (List.mem_map_of_mem he)

/-- What holds of the steps of the first group and of an entry behind it holds of the entry. -/
lemma forall_getEntry_cons {P : WorkflowStep → Prop} {k : ℕ} {as : List WorkflowStep}
    (hhead : ∀ s ∈ as, P s) (htail : ∀ s ∈ getEntry g l, P s) :
    ∀ s ∈ getEntry g ((k, as) :: l), P s := by
  intro s hs
  rw [getEntry] at hs
  split_ifs at hs
  · exact hhead s hs
  · exact htail s hs

lemma ne_of_not_any {as : List WorkflowStep} (h : ¬as.any fun s => s.agent = agent) :
    ∀ s ∈ as, s.agent ≠ agent := fun s hs hagent =>
  h (List.any_eq_true.mpr ⟨s, hs, decide_eq_true hagent⟩)

lemma ne_of_find_eq_none {as : List WorkflowStep} (h : as.find? (fun s => s.agent = agent) = none) :
    ∀ s ∈ as, s.agent ≠ agent := fun s hs hagent =>
  List.find?_eq_none.mp h s hs (decide_eq_true hagent)

/-- The step is the first one of the agent in the first group that has one. -/
lemma findBeyond_eq_some (hsorted : (l.map Prod.fst).Pairwise (· < ·)) (hkeys : ∀ e ∈ l, n ≤ e.1)
    (h : findBeyond agent n l = some (g, step)) :
    n < g ∧ (∀ g' < g, ∀ s ∈ getEntry g' l, s.agent ≠ agent) ∧
      (getEntry g l).find? (fun s => s.agent = agent) = some step := by
  induction l with
  | nil => cases h
  | cons e l ih =>
    obtain ⟨k, as⟩ := e
    have hlt := lt_of_sorted_cons hsorted
    obtain ⟨hk, hkeys⟩ := List.forall_mem_cons.mp hkeys
    have ih := ih (List.pairwise_cons.mp hsorted).2 hkeys
    rw [findBeyond] at h
    by_cases hn : k = n
    · rw [if_pos hn] at h
      split_ifs at h with hnext
      obtain ⟨hlater, hbefore, hfind⟩ := ih h
      have hne : g ≠ k := fun heq => absurd hlater (by omega)
      refine ⟨hlater, fun g' hg' => ?_, by rw [getEntry, if_neg hne, hfind]⟩
      exact forall_getEntry_cons (ne_of_not_any hnext) (hbefore g' hg')
    · rw [if_neg hn] at h
      cases hfind : as.find? fun s => s.agent = agent with
      | some found =>
        rw [hfind] at h
        cases h
        refine ⟨lt_of_le_of_ne hk (Ne.symm hn), ?_, by rw [getEntry, if_pos rfl, hfind]⟩
        intro g' hg' s hs
        have hnone : getEntry g' ((g, as) :: l) = [] := by
          apply getEntry_of_forall_lt
          exact List.forall_mem_cons.mpr ⟨hg', fun e he => hg'.trans (hlt e he)⟩
        rw [hnone] at hs
        cases hs
      | none =>
        rw [hfind] at h
        obtain ⟨hlater, hbefore, hfind'⟩ := ih h
        have hne : g ≠ k := by
          rintro rfl
          rw [getEntry_of_forall_lt hlt] at hfind'
          cases hfind'
        refine ⟨hlater, fun g' hg' => ?_, by rw [getEntry, if_neg hne, hfind']⟩
        exact forall_getEntry_cons (ne_of_find_eq_none hfind) (hbefore g' hg')

/-- Nothing is found if the agent is in the next group or nowhere. -/
lemma findBeyond_eq_none (hsorted : (l.map Prod.fst).Pairwise (· < ·)) (hkeys : ∀ e ∈ l, n ≤ e.1)
    (h : findBeyond agent n l = none) : (∃ s ∈ getEntry n l, s.agent = agent) ∨
      ∀ g, ∀ s ∈ getEntry g l, s.agent ≠ agent := by
  induction l with
  | nil =>
    right
    intro g s hs
    cases hs
  | cons e l ih =>
    obtain ⟨k, as⟩ := e
    have hlt := lt_of_sorted_cons hsorted
    obtain ⟨hk, hkeys⟩ := List.forall_mem_cons.mp hkeys
    have ih := ih (List.pairwise_cons.mp hsorted).2 hkeys
    rw [findBeyond] at h
    by_cases hn : k = n
    · subst hn
      rw [if_pos rfl] at h
      by_cases hnext : as.any fun s => s.agent = agent
      · obtain ⟨s, hs, hagent⟩ := List.any_eq_true.mp hnext
        left
        exact ⟨s, by rwa [getEntry, if_pos rfl], of_decide_eq_true hagent⟩
      · rw [if_neg hnext] at h
        right
        rcases ih h with ⟨s, hs, -⟩ | hnone
        · rw [getEntry_of_forall_lt hlt] at hs
          cases hs
        · exact fun g => forall_getEntry_cons (ne_of_not_any hnext) (hnone g)
    · rw [if_neg hn] at h
      cases hfind : as.find? fun s => s.agent = agent with
      | some found =>
        rw [hfind] at h
        cases h
      | none =>
        rw [hfind] at h
        have hnone : getEntry n l = [] :=
          getEntry_of_forall_lt fun e he => hk.trans_lt (hlt e he)
        right
        rcases ih h with ⟨s, hs, -⟩ | hnowhere
        · rw [hnone] at hs
          cases hs
        · exact fun g => forall_getEntry_cons (ne_of_find_eq_none hfind) (hnowhere g)

end

/-- A signal adds no key but the one of the insertion group. -/
lemma forall_key_applySignal {Q : ℕ → Prop} (hn : Q n) (h : ∀ e ∈ groups.entries, Q e.1)
    (known_agents : List String) (signal : AgentSignal) :
    ∀ e ∈ (applySignal known_agents n groups signal).1.entries, Q e.1 := by
  rw [applySignal]
  cases signal.kind with
  | request =>
    simp only
    split_ifs with hknown hplanned
    · exact h
    · exact forall_key_push hn h _
    · exact h
  | skip => exact forall_key_filterMapGroups h _
  | priority =>
    cases hfind : findBeyond signal.target_agent n groups.entries with
    | none =>
      exact h
    | some found =>
      exact forall_key_push hn (forall_key_filterMapGroups h _) _

lemma keysFrom_applySignal (h : KeysFrom n groups) (known_agents : List String)
    (signal : AgentSignal) : KeysFrom n (applySignal known_agents n groups signal).1 :=
  forall_key_applySignal le_rfl h known_agents signal

lemma keysFrom_nextGroupNum (groups : Groups) (current_group_num : ℕ) :
    KeysFrom (nextGroupNum groups current_group_num) groups := by
  obtain ⟨l, hsorted⟩ := groups
  intro e he
  cases l with
  | nil => cases he
  | cons e' l =>
    show e'.1 ≤ e.1
    rcases List.mem_cons.mp he with rfl | he
    · exact le_rfl
    · exact (lt_of_sorted_cons hsorted e he).le

/-! ### What a signal does to its target -/

/-- The numbers of steps of an agent, by group. -/
abbrev Plan := ℕ → ℕ

open Classical in
/-- Of an agent that is not in the next group, the first group goes there as one step. -/
noncomputable def moveFirst (n : ℕ) (plan : Plan) : Plan :=
  if h : plan n = 0 ∧ ∃ g, plan g ≠ 0 then
    Function.update (Function.update plan (Nat.find h.2) 0) n 1
  else plan

open Classical in
/-- A known agent that is planned nowhere is added to the next group. -/
noncomputable def addMissing (known : Prop) (n : ℕ) (plan : Plan) : Plan :=
  if known ∧ plan = 0 then Function.update plan n 1 else plan

/-- What a signal of each kind does to the plan of its target. -/
noncomputable def SignalKind.act (known : Prop) (n : ℕ) (plan : Plan) : SignalKind → Plan
  | .request => addMissing known n plan
  | .skip => 0
  | .priority => moveFirst n plan

lemma addMissing_of_ne_zero {known : Prop} {plan : Plan} (h : plan ≠ 0) :
    addMissing known n plan = plan := by
  rw [addMissing, if_neg]
  exact fun hadd => h hadd.2

lemma moveFirst_zero : moveFirst n 0 = 0 := by
  rw [moveFirst, dif_neg]
  rintro ⟨-, g, hg⟩
  exact hg rfl

lemma moveFirst_ne_zero {plan : Plan} (h : plan ≠ 0) : moveFirst n plan ≠ 0 := by
  rw [moveFirst]
  split_ifs with hmove
  · intro heq
    have hat := congrFun heq n
    rw [Function.update_self] at hat
    exact absurd hat Nat.one_ne_zero
  · exact h

lemma moveFirst_of_ne_zero {plan : Plan} (h : plan n ≠ 0) : moveFirst n plan = plan := by
  rw [moveFirst, dif_neg]
  exact fun hmove => h hmove.1

lemma moveFirst_of_first {plan : Plan} (hnext : plan n = 0) (hg : plan g ≠ 0)
    (hbefore : ∀ g' < g, plan g' = 0) :
    moveFirst n plan = Function.update (Function.update plan g 0) n 1 := by
  have hfirst : Nat.find (⟨g, hg⟩ : ∃ g, plan g ≠ 0) = g := by
    rw [Nat.find_eq_iff]
    exact ⟨hg, fun g' hg' hne => hne (hbefore g' hg')⟩
  rw [moveFirst, dif_pos ⟨hnext, g, hg⟩]
  congr 2

/-- A request and a move of the same agent commute. -/
lemma act_request_priority (known : Prop) (plan : Plan) :
    SignalKind.act known n (SignalKind.act known n plan .request) .priority =
      SignalKind.act known n (SignalKind.act known n plan .priority) .request := by
  show moveFirst n (addMissing known n plan) = addMissing known n (moveFirst n plan)
  by_cases hzero : plan = 0
  · subst hzero
    rw [moveFirst_zero, addMissing]
    split_ifs
    · apply moveFirst_of_ne_zero
      rw [Function.update_self]
      exact Nat.one_ne_zero
    · exact moveFirst_zero
  · rw [addMissing_of_ne_zero hzero, addMissing_of_ne_zero (moveFirst_ne_zero hzero)]

/-- The signals for one agent commute, except for a request and a skip. -/
lemma act_comm (known : Prop) (plan : Plan) {k k' : SignalKind}
    (h : ¬ (k = .request ∧ k' = .skip)) (h' : ¬ (k = .skip ∧ k' = .request)) :
    SignalKind.act known n (SignalKind.act known n plan k) k' =
      SignalKind.act known n (SignalKind.act known n plan k') k := by
  cases k with
  | request =>
    cases k' with
    | request => rfl
    | skip => exact absurd ⟨rfl, rfl⟩ h
    | priority => exact act_request_priority known plan
  | skip =>
    cases k' with
    | request => exact absurd ⟨rfl, rfl⟩ h'
    | skip => rfl
    | priority => exact moveFirst_zero
  | priority =>
    cases k' with
    | request => exact (act_request_priority known plan).symm
    | skip => exact moveFirst_zero.symm
    | priority => rfl

/-! ### What a sequence of signals does -/

/-- Where no step is found beyond the next group, none is moved. -/
lemma moveFirst_of_findBeyond_eq_none (h : KeysFrom n groups)
    (hfind : findBeyond agent n groups.entries = none) :
    moveFirst n (planned groups agent) = planned groups agent := by
  rcases findBeyond_eq_none groups.sorted h hfind with ⟨s, hs, hagent⟩ | hnowhere
  · apply moveFirst_of_ne_zero
    rw [ne_eq, planned_eq_zero]
    exact fun hnone => hnone s hs hagent
  · have hzero : planned groups agent = 0 :=
      funext fun g => planned_eq_zero.mpr (hnowhere g)
    rw [hzero, moveFirst_zero]

/-- A step that is found beyond the next group is moved there. -/
lemma planned_move (h : KeysFrom n groups) {target : String} {step step' : WorkflowStep}
    (hfind : findBeyond target n groups.entries = some (g, step))
    (hagent' : step'.agent = step.agent) :
    planned ((removeAgent (fun gnum => gnum = g) target groups).push n step') agent =
      if target = agent then moveFirst n (planned groups agent) else planned groups agent := by
  obtain ⟨hlater, hbefore, hfirst⟩ := findBeyond_eq_some groups.sorted h hfind
  have hstep : step.agent = target := by
    simpa only [decide_eq_true_eq] using List.find?_some hfirst
  rw [planned_push, hagent', hstep]
  by_cases hagent : target = agent
  · subst hagent
    have hnext : planned groups target n = 0 := planned_eq_zero.mpr (hbefore n hlater)
    have hfrom : planned groups target g ≠ 0 := by
      rw [ne_eq, planned_eq_zero]
      exact fun hnone => hnone step (List.mem_of_find?_eq_some hfirst) hstep
    have hremoved : planned (removeAgent (fun gnum => gnum = g) target groups) target =
        Function.update (planned groups target) g 0 := by
      funext g'
      rw [planned_removeAgent, Function.update_apply]
      by_cases hg : g' = g
      · rw [if_pos ⟨rfl, decide_eq_true hg⟩, if_pos hg]
      · rw [if_neg fun h => hg (of_decide_eq_true h.2), if_neg hg]
    rw [if_pos rfl, if_pos rfl, hremoved, moveFirst_of_first hnext hfrom
      fun g' hg' => planned_eq_zero.mpr (hbefore g' hg'), Function.update_of_ne hlater.ne, hnext]
  · rw [if_neg hagent, if_neg hagent]
    funext g'
    rw [planned_removeAgent, if_neg fun h => hagent h.1]

/-- A request plans its target once, unless it is planned or not known. -/
lemma planned_request {target : String} (known : Prop) [Decidable known] (step : WorkflowStep)
    (hstep : step.agent = target) (signal : AgentSignal) :
    planned (if ¬ known then (groups, none)
      else if alreadyPlanned target groups then (groups, none)
      else (groups.push n step, some signal)).1 agent =
        if target = agent then addMissing known n (planned groups agent)
        else planned groups agent := by
  by_cases hknown : known
  · rw [if_neg (not_not.mpr hknown)]
    cases hplanned : alreadyPlanned target groups with
    | true =>
      have hne : planned groups target ≠ 0 := by
        intro hzero
        rw [alreadyPlanned_eq_false.mpr (congrFun hzero)] at hplanned
        cases hplanned
      rw [if_pos rfl]
      by_cases hagent : target = agent
      · subst hagent
        rw [if_pos rfl, addMissing_of_ne_zero hne]
      · rw [if_neg hagent]
    | false =>
      rw [if_neg Bool.false_ne_true, planned_push, hstep]
      by_cases hagent : target = agent
      · subst hagent
        have hzero : planned groups target = 0 := funext (alreadyPlanned_eq_false.mp hplanned)
        rw [if_pos rfl, if_pos rfl, addMissing, if_pos ⟨hknown, hzero⟩, hzero]
        rfl
      · rw [if_neg hagent, if_neg hagent]
  · have hsame : addMissing known n (planned groups agent) = planned groups agent :=
      if_neg fun hadd => hknown hadd.1
    rw [if_pos hknown, hsame, ite_self]

/-- A signal moves only its target. -/
lemma planned_applySignal (h : KeysFrom n groups) (known_agents : List String)
    (signal : AgentSignal) : planned (applySignal known_agents n groups signal).1 agent =
      if signal.target_agent = agent then
        signal.kind.act (agent ∈ known_agents) n (planned groups agent)
      else planned groups agent := by
  rw [applySignal]
  cases signal.kind with
  | request =>
    refine (planned_request (signal.target_agent ∈ known_agents)
      { agent := signal.target_agent, group := n, prompt := signal.reason } rfl signal).trans ?_
    by_cases hagent : signal.target_agent = agent
    · subst hagent
      rfl
    · rw [if_neg hagent, if_neg hagent]
  | skip =>
    funext g
    rw [planned_removeAgent]
    by_cases hagent : signal.target_agent = agent
    · rw [if_pos ⟨hagent, rfl⟩, if_pos hagent]
      rfl
    · rw [if_neg fun h => hagent h.1, if_neg hagent]
  | priority =>
    cases hfind : findBeyond signal.target_agent n groups.entries with
    | none =>
      by_cases hagent : signal.target_agent = agent
      · subst hagent
        rw [if_pos rfl, SignalKind.act, moveFirst_of_findBeyond_eq_none h hfind]
      · rw [if_neg hagent]
    | some found => exact planned_move h hfind rfl

/-- The kinds of the signals for an agent, in order. -/
def kindsFor (agent : String) (signals : List AgentSignal) : List SignalKind :=
  (signals.filter fun s => s.target_agent = agent).map (·.kind)

lemma planned_go (h : KeysFrom n groups) (known_agents : List String)
    (signals : List AgentSignal) :
    planned (applySignals.go known_agents n groups signals).1 agent =
      (kindsFor agent signals).foldl (SignalKind.act (agent ∈ known_agents) n)
        (planned groups agent) := by
  induction signals generalizing groups with
  | nil => rfl
  | cons signal signals ih =>
    rw [applySignals.go]
    simp only
    rw [ih (keysFrom_applySignal h known_agents signal), planned_applySignal h]
    by_cases hagent : signal.target_agent = agent
    · have hcons : kindsFor agent (signal :: signals) = signal.kind :: kindsFor agent signals := by
        simp [kindsFor, hagent]
      rw [if_pos hagent, hcons, List.foldl_cons]
    · have hcons : kindsFor agent (signal :: signals) = kindsFor agent signals := by
        simp [kindsFor, hagent]
      rw [if_neg hagent, hcons]

/-! ### Conflicts -/

/-- Two signals with one key conflict. -/
def AgentSignal.key (s : AgentSignal) : String × SignalKind := (s.target_agent, s.kind)

lemma any_key_iff {signals : List AgentSignal} {sig : AgentSignal} :
    (signals.any fun s => s.target_agent = sig.target_agent ∧ s.kind = sig.kind) = true ↔
      sig.key ∈ signals.map AgentSignal.key := by
  simp only [List.any_eq_true, decide_eq_true_eq, List.mem_map, AgentSignal.key, Prod.mk.injEq]

/-- The keys are those of all signals, each once. -/
lemma keys_foldl (signals result : List AgentSignal)
    (hnodup : (result.map AgentSignal.key).Nodup) :
    ((signals.foldl (fun result sig =>
      if result.any fun s => s.target_agent = sig.target_agent ∧ s.kind = sig.kind then result
      else result ++ [sig]) result).map AgentSignal.key).Nodup ∧
    ∀ k, k ∈ (signals.foldl (fun result sig =>
      if result.any fun s => s.target_agent = sig.target_agent ∧ s.kind = sig.kind then result
      else result ++ [sig]) result).map AgentSignal.key ↔
        k ∈ result.map AgentSignal.key ∨ k ∈ signals.map AgentSignal.key := by
  induction signals generalizing result with
  | nil => exact ⟨hnodup, fun k => by simp⟩
  | cons sig signals ih =>
    rw [List.foldl_cons]
    by_cases hseen : sig.key ∈ result.map AgentSignal.key
    · rw [if_pos (any_key_iff.mpr hseen)]
      obtain ⟨hfirst, hmem⟩ := ih result hnodup
      refine ⟨hfirst, fun k => ?_⟩
      rw [hmem, List.map_cons, List.mem_cons]
      constructor
      · rintro (hk | hk)
        · exact .inl hk
        · exact .inr (.inr hk)
      · rintro (hk | rfl | hk)
        · exact .inl hk
        · exact .inl hseen
        · exact .inr hk
    · rw [if_neg fun h => hseen (any_key_iff.mp h)]
      have hnodup' : ((result ++ [sig]).map AgentSignal.key).Nodup := by
        rw [List.map_append, List.map_singleton]
        exact hnodup.append (List.nodup_singleton _) (List.disjoint_singleton.mpr hseen)
      obtain ⟨hfirst, hmem⟩ := ih (result ++ [sig]) hnodup'
      refine ⟨hfirst, fun k => ?_⟩
      rw [hmem, List.map_append, List.mem_append, List.map_singleton, List.mem_singleton,
        List.map_cons, List.mem_cons, or_assoc]

lemma nodup_keys_firstPerKind (signals : List AgentSignal) :
    ((firstPerKind signals).map AgentSignal.key).Nodup :=
  (keys_foldl signals [] List.nodup_nil).1

lemma mem_keys_firstPerKind {signals : List AgentSignal} {k : String × SignalKind} :
    k ∈ (firstPerKind signals).map AgentSignal.key ↔ k ∈ signals.map AgentSignal.key := by
  rw [firstPerKind, (keys_foldl signals [] List.nodup_nil).2 k]
  simp

lemma contains_request_targets {signals : List AgentSignal} {target : String} :
    ((signals.filter fun s => s.kind = .request).map (·.target_agent)).contains target = true ↔
      (target, SignalKind.request) ∈ signals.map AgentSignal.key := by
  simp only [List.contains_iff_mem, List.mem_map, List.mem_filter, decide_eq_true_eq,
    AgentSignal.key, Prod.mk.injEq]
  constructor
  · rintro ⟨s, ⟨hs, hkind⟩, htarget⟩
    exact ⟨s, hs, htarget, hkind⟩
  · rintro ⟨s, hs, htarget, hkind⟩
    exact ⟨s, ⟨hs, hkind⟩, htarget⟩

lemma nodup_keys_resolveConflicts (signals : List AgentSignal) :
    ((resolveConflicts signals).map AgentSignal.key).Nodup :=
  (nodup_keys_firstPerKind signals).sublist (List.filter_sublist.map _)

/-- A key is kept unless it is a skip of an agent that is requested. -/
lemma mem_keys_resolveConflicts {signals : List AgentSignal} {k : String × SignalKind} :
    k ∈ (resolveConflicts signals).map AgentSignal.key ↔ k ∈ signals.map AgentSignal.key ∧
      ¬ (k.2 = .skip ∧ (k.1, SignalKind.request) ∈ signals.map AgentSignal.key) := by
  have hkept (s : AgentSignal) : (!(decide (s.kind = .skip) &&
      ((List.filter (fun s => s.kind = .request) (firstPerKind signals)).map
        (·.target_agent)).contains s.target_agent)) = true ↔
      ¬ (s.kind = .skip ∧ (s.target_agent, SignalKind.request) ∈ signals.map AgentSignal.key) := by
    rw [Bool.not_eq_true', ← Bool.not_eq_true, Bool.and_eq_true, decide_eq_true_eq,
      contains_request_targets, mem_keys_firstPerKind]
  constructor
  · intro hk
    obtain ⟨s, hs, rfl⟩ := List.mem_map.mp hk
    obtain ⟨hfirst, hkeep⟩ := List.mem_filter.mp hs
    exact ⟨mem_keys_firstPerKind.mp (List.mem_map_of_mem hfirst), (hkept s).mp hkeep⟩
  · rintro ⟨hk, hkeep⟩
    obtain ⟨s, hs, rfl⟩ := List.mem_map.mp (mem_keys_firstPerKind.mpr hk)
    exact List.mem_map_of_mem (List.mem_filter.mpr ⟨hs, (hkept s).mpr hkeep⟩)

lemma perm_keys_resolveConflicts {signals signals' : List AgentSignal}
    (h : signals.Perm signals') : ((resolveConflicts signals).map AgentSignal.key).Perm
      ((resolveConflicts signals').map AgentSignal.key) := by
  rw [List.perm_ext_iff_of_nodup (nodup_keys_resolveConflicts _) (nodup_keys_resolveConflicts _)]
  intro k
  have hkeys (k : String × SignalKind) :
      k ∈ signals.map AgentSignal.key ↔ k ∈ signals'.map AgentSignal.key :=
    (h.map AgentSignal.key).mem_iff
  rw [mem_keys_resolveConflicts, mem_keys_resolveConflicts, hkeys, hkeys]

lemma kindsFor_eq (signals : List AgentSignal) : kindsFor agent signals =
    ((signals.map AgentSignal.key).filter fun k => k.1 = agent).map Prod.snd := by
  rw [List.filter_map, List.map_map]
  rfl

/-- No agent is both requested and skipped. -/
lemma not_request_and_skip {signals : List AgentSignal}
    (hrequest : .request ∈ kindsFor agent (resolveConflicts signals))
    (hskip : .skip ∈ kindsFor agent (resolveConflicts signals)) : False := by
  have hkey (k : SignalKind) (hk : k ∈ kindsFor agent (resolveConflicts signals)) :
      (agent, k) ∈ (resolveConflicts signals).map AgentSignal.key := by
    rw [kindsFor_eq, List.mem_map] at hk
    obtain ⟨⟨target, kind⟩, hfilter, rfl⟩ := hk
    obtain ⟨hmem, htarget⟩ := List.mem_filter.mp hfilter
    rwa [← show target = agent from of_decide_eq_true htarget]
  obtain ⟨-, hkept⟩ := mem_keys_resolveConflicts.mp (hkey .skip hskip)
  exact hkept ⟨rfl, (mem_keys_resolveConflicts.mp (hkey .request hrequest)).1⟩

/-! ### The order does not matter -/

lemma planned_resolved {signals signals' : List AgentSignal} (h : signals.Perm signals')
    (groups : Groups) (current_group_num : ℕ) (known_agents : List String) :
    planned (applySignals (resolveConflicts signals) groups current_group_num known_agents).1 =
      planned
        (applySignals (resolveConflicts signals') groups current_group_num known_agents).1 := by
  funext agent
  have hkeys := keysFrom_nextGroupNum groups current_group_num
  rw [applySignals, applySignals, planned_go hkeys, planned_go hkeys]
  have hperm : (kindsFor agent (resolveConflicts signals)).Perm
      (kindsFor agent (resolveConflicts signals')) := by
    rw [kindsFor_eq, kindsFor_eq]
    exact ((perm_keys_resolveConflicts h).filter _).map _
  apply hperm.foldl_eq'
  intro k hk k' hk' plan
  apply act_comm
  · rintro ⟨rfl, rfl⟩
    exact not_request_and_skip hk hk'
  · rintro ⟨rfl, rfl⟩
    exact not_request_and_skip hk' hk

/-- The agents that are planned in a group. -/
def agentsIn (groups : Groups) (g : ℕ) : List String := (groups.get g).map (·.agent)

lemma perm_agentsIn {groups groups' : Groups} (h : planned groups = planned groups') (g : ℕ) :
    (agentsIn groups g).Perm (agentsIn groups' g) := by
  have hcount (groups : Groups) (agent : String) :
      (agentsIn groups g).count agent = planned groups agent g := by
    rw [agentsIn, List.count_eq_countP, List.countP_map, planned]
    apply List.countP_congr
    intro s _
    simp [Function.comp]
  rw [List.perm_iff_count]
  intro agent
  rw [hcount, hcount, h]

/-- Who is planned in a group does not depend on the order of the signals. -/
theorem perm_agentsIn_applySignals {signals signals' : List AgentSignal}
    (h : signals.Perm signals') (groups : Groups) (current_group_num : ℕ)
    (known_agents : List String) (g : ℕ) :
    (agentsIn (applySignals (resolveConflicts signals) groups current_group_num
      known_agents).1 g).Perm
    (agentsIn (applySignals (resolveConflicts signals') groups current_group_num
      known_agents).1 g) :=
  perm_agentsIn (planned_resolved h groups current_group_num known_agents) g

def reporterLater : Groups := (OrderedMap.empty.push 2 ⟨"intel", 2, "", true, none, false⟩).push 3
  ⟨"reporter", 3, "", true, none, false⟩

/-- Two agents have finished: one asks for the decompiler, the other has it skipped and the reporter
moved. -/
theorem perm_agentsIn_applySignals_reporterLater :
    (agentsIn (applySignals (resolveConflicts
      [⟨.request, "decompiler", "packed", "surface"⟩, ⟨.skip, "decompiler", "benign", "yara"⟩,
        ⟨.priority, "reporter", "urgent", "yara"⟩]) reporterLater 1 ["decompiler"]).1 2).Perm
    (agentsIn (applySignals (resolveConflicts
      [⟨.skip, "decompiler", "benign", "yara"⟩, ⟨.priority, "reporter", "urgent", "yara"⟩,
        ⟨.request, "decompiler", "packed", "surface"⟩]) reporterLater 1 ["decompiler"]).1 2) :=
  perm_agentsIn_applySignals (by decide) reporterLater 1 ["decompiler"] 2

end Arbeiterfarm.Orchestrator
