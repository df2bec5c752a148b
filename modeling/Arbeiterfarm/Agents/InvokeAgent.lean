import Arbeiterfarm.Agents.ToolGating

/-!
# Agents that invoke agents

The tool `internal.invoke_agent` answers a message in a new thread with another agent. The agent
is resolved by its name, and patterns are stripped from its allowed tools so that it cannot invoke
agents in turn. The patterns that are stripped begin with `meta.`, while the tools are called
`internal.`: an invoked agent is contained only if its own patterns allow no internal tool.
-/

namespace Arbeiterfarm.Agents

open Foundation Llm

/-! ### Agents -/

structure AgentConfig where
  name : String
  system_prompt : String
  allowed_tools : List String
  tool_call_budget : Option ℕ
  deriving DecidableEq, Repr

/-- An agent of the database. -/
structure AgentRow where
  name : String
  system_prompt : String
  allowed_tools : Json

def AgentRow.toConfig (row : AgentRow) : AgentConfig where
  name := row.name
  system_prompt := row.system_prompt
  allowed_tools := (row.allowed_tools.asArray.getD []).filterMap (·.asStr)
  tool_call_budget := none

/-- The database goes before the agents that are compiled in. -/
def resolveAgent (name : String) (fallback_configs : List AgentConfig) (agents : List AgentRow) :
    Option AgentConfig :=
  match agents.find? (·.name = name) with
  | some row => some row.toConfig
  | none => fallback_configs.find? (·.name = name)

/-- What the invoked agent is configured with. -/
def childConfig (agent : AgentConfig) : AgentConfig :=
  { agent with allowed_tools :=
      agent.allowed_tools.filter fun t => !"meta.".toList.isPrefixOf t.toList }

/-- The prefix of the tools that are about agents. -/
def isInternal (name : String) : Bool := "internal.".toList.isPrefixOf name.toList

lemma isInternal_invokeAgent : isInternal "internal.invoke_agent" = true := by decide

/-! ### Runs of an agent -/

/-- What the runs of a user have in common. -/
structure AgentRuntime where
  specs : ToolSpecRegistry
  agents : List AgentRow := []
  agent_configs : List AgentConfig
  restriction_cache : Option RestrictionCache := none

/-- What the backend and the process add to a run. -/
structure Backend where
  is_local : Bool
  use_cwc : Bool := false
  system_prompt : String
  max_llm_tokens_per_day : Option ℤ := none
  max_output : ℕ
  parseJson : String → Except String Json

namespace AgentRuntime

variable (rt : AgentRuntime)

def loopConfig (agent : AgentConfig) (backend : Backend) : LoopConfig where
  specs := rt.specs
  allowed_tools := agent.allowed_tools
  restriction_cache := rt.restriction_cache
  is_local := backend.is_local
  use_cwc := backend.use_cwc
  tool_call_budget := agent.tool_call_budget
  agent_name := some agent.name
  system_prompt := backend.system_prompt
  max_llm_tokens_per_day := backend.max_llm_tokens_per_day
  max_output := backend.max_output
  parseJson := backend.parseJson

/-- The agent that `internal.invoke_agent` runs. -/
def invokedAgent (agent_name : String) : Option AgentConfig :=
  (resolveAgent agent_name rt.agent_configs rt.agents).map childConfig

/-- Every run of the loop is one of the agent, on any backend. -/
def RunsAs (agent : AgentConfig) : SendAct → Prop
  | .shared (.start cfg _ _ _ _) => ∃ backend, cfg = rt.loopConfig agent backend
  | _ => True

/-- Some run of the agent in a new thread dispatches the tool. -/
def Dispatches (agent : AgentConfig) (name : String) : Prop :=
  ∃ account acts s, (∀ a ∈ acts, rt.RunsAs agent a) ∧
    exec sendMessageSystem.recordedStep (.init account, []) acts = some s ∧
    ∃ d ∈ s.2, d.name = name

/-- How deep invocations nest in the runs of an agent; its model names any agent it likes. -/
inductive Nests : AgentConfig → ℕ → Prop where
  | leaf (agent : AgentConfig) : Nests agent 0
  | invoke {agent child : AgentConfig} {agent_name : String} {n : ℕ}
    (hcall : rt.Dispatches agent "internal.invoke_agent")
    (hchild : rt.invokedAgent agent_name = some child) (h : Nests child n) : Nests agent (n + 1)

/-- The runs of an invoked agent dispatch no internal tool and invoke no agents in turn. -/
structure Contained (child : AgentConfig) : Prop where
  noInternal : ∀ name, rt.Dispatches child name → isInternal name = false
  oneLevel : ∀ n, rt.Nests child n → n = 0

/-- A tool that the patterns of the agent allow, that is granted to the user if it is restricted,
and that may be called at all. -/
structure MayCall (agent : AgentConfig) (name : String) : Prop where
  allowed : isToolAllowedByConfig name agent.allowed_tools = true
  granted : ∀ rc ∈ rt.restriction_cache, rc.isAllowed name = true
  calls : ∀ spec ∈ rt.specs.getLatest name, 0 < spec.max_calls_per_run

/-- The agent may call no tools at all, or no internal tool under any name that is repaired. -/
def RefusesInternal (agent : AgentConfig) : Prop :=
  agent.tool_call_budget = some 0 ∨ ∀ called, isInternal (fixupToolName called rt.specs) = true →
    ¬ rt.MayCall agent (fixupToolName called rt.specs)

end AgentRuntime

/-! ### Patterns -/

/-- A pattern that matches an internal tool is the wildcard, or begins as the tool does. -/
lemma isInternal_of_patternMatches {pattern name : String}
    (h : patternMatches pattern name = true) (hname : isInternal name = true) :
    pattern = "*" ∨ isInternal pattern = true := by
  simp only [patternMatches, Bool.or_eq_true, Bool.and_eq_true, decide_eq_true_eq,
    List.isSuffixOf_iff_suffix, List.isPrefixOf_iff_prefix] at h
  rcases h with (rfl | hwildcard) | ⟨⟨ns, hns⟩, hprefix⟩
  · exact .inr hname
  · exact .inl hwildcard
  · right
    simp only [isInternal, List.isPrefixOf_iff_prefix] at hname ⊢
    have hdrop : pattern.toList.dropLast.dropLast = ns := by
      rw [← hns]
      simp
    rw [hdrop] at hprefix
    have hdot : ns ++ ['.'] <+: pattern.toList := ⟨['*'], by rw [← hns]; simp⟩
    rcases List.prefix_or_prefix_of_prefix hname hprefix with hle | ⟨rest, hrest⟩
    · exact hle.trans hdot
    · rcases List.eq_nil_or_concat rest with rfl | ⟨rest', c, rfl⟩
      · rw [List.append_nil] at hrest
        rwa [← hrest]
      · -- the dot of the pattern cannot stand before the last character
        have hmem : '.' ∈ "internal".toList := by
          have heq : (ns ++ '.' :: rest') ++ [c] = "internal".toList ++ ['.'] := by
            simpa using hrest
          rw [← (List.append_inj' heq rfl).1]
          simp
        simp at hmem

lemma mem_childConfig {agent : AgentConfig} {t : String}
    (h : t ∈ (childConfig agent).allowed_tools) : t ∈ agent.allowed_tools :=
  List.mem_of_mem_filter h

namespace AgentRuntime

variable {rt : AgentRuntime} {agent child : AgentConfig}

/-- An agent whose patterns are neither the wildcard nor internal is refused every internal
tool. -/
lemma refusesInternal_of_patterns
    (h : ∀ t ∈ agent.allowed_tools, t ≠ "*" ∧ isInternal t = false) :
    rt.RefusesInternal (childConfig agent) := by
  right
  intro called hinternal hmay
  obtain ⟨t, ht, hmatches⟩ := List.any_eq_true.mp hmay.allowed
  obtain ⟨hwildcard, hpattern⟩ := h t (mem_childConfig ht)
  rcases isInternal_of_patternMatches hmatches hinternal with heq | heq
  · exact hwildcard heq
  · rw [hpattern] at heq
    cases heq

/-! ### What a run may call -/

/-- The loop of a run is configured with the agent, and an internal tool that has been dispatched
is one that the agent may call. -/
structure RunInv (rt : AgentRuntime) (agent : AgentConfig)
    (s : SendSystem × List Dispatch) : Prop where
  configured : ∀ l ∈ s.1.sys.loop, ∃ backend, l.cfg = rt.loopConfig agent backend
  passed : ∀ d ∈ s.2, isInternal d.name = true →
    d.name = fixupToolName d.called rt.specs ∧ rt.MayCall agent d.name

lemma cfg_of_start {s s' : SendSystem} {a : SendAct} (hstart : a.isStart = true)
    (hruns : rt.RunsAs agent a) (h : s.step a = some s') :
    ∀ l ∈ s'.sys.loop, ∃ backend, l.cfg = rt.loopConfig agent backend := by
  cases a with
  | shared a =>
    cases a with
    | start cfg tools hint memory memory_pairs =>
      obtain ⟨backend, rfl⟩ := hruns
      simp only [SendSystem.step] at h
      split_ifs at h
      obtain ⟨sys, hsys, rfl⟩ := Option.map_eq_some_iff.mp h
      simp only [System.step] at hsys
      split_ifs at hsys
      obtain rfl := Option.some.inj hsys
      intro l hl
      obtain rfl := Option.some.inj hl
      exact ⟨backend, rfl⟩
    | _ => cases hstart
  | _ => cases hstart

/-- A call with an internal name that passes the gates is allowed by the patterns. -/
lemma mayCall_of_passes {backend : Backend} {native : List String} {name : String}
    {counts : ToolCounts} (hgates : PassesGates (rt.loopConfig agent backend) native name)
    (hbudget : ∀ spec ∈ rt.specs.getLatest name,
      (counts.bump name).get name ≤ spec.max_calls_per_run)
    (hinternal : isInternal name = true) : rt.MayCall agent name where
  allowed := by
    have hne : name ≠ "tools.discover" := by
      rintro rfl
      revert hinternal
      decide
    have hallowed := hgates.allowed
    simp only [LoopConfig.allows, hne, decide_false, Bool.and_false, Bool.false_or] at hallowed
    exact hallowed
  granted := hgates.granted
  calls spec hspec := by
    have hcount := hbudget spec hspec
    rw [ToolCounts.get_bump, if_pos rfl] at hcount
    exact (Nat.succ_pos _).trans_le hcount

lemma runInv_step {s s' : SendSystem × List Dispatch} {a : SendAct} (h : RunInv rt agent s)
    (hruns : rt.RunsAs agent a) (hstep : sendMessageSystem.recordedStep s a = some s') :
    RunInv rt agent s' := by
  obtain ⟨t, ht, rfl⟩ := Option.map_eq_some_iff.mp hstep
  have hrule : RunRule s.1.sys.loop t.sys.loop a.isStart (s.1.dispatched a) :=
    SendSystem.rule_of_step ht
  have hstart (hs : a.isStart = true) := cfg_of_start hs hruns ht
  obtain ⟨hconfigured, hpassed⟩ := h
  show RunInv rt agent (t, if a.isStart then [] else s.2 ++ (s.1.dispatched a).toList)
  generalize s.1.sys.loop = before at hconfigured hrule
  generalize hafter : t.sys.loop = after at hrule hstart
  generalize a.isStart = starts at hrule hstart ⊢
  generalize s.1.dispatched a = d at hrule ⊢
  cases hrule with
  | idle =>
    rw [if_neg Bool.false_ne_true, Option.toList_none, List.append_nil]
    exact ⟨by rwa [hafter], hpassed⟩
  | start =>
    rw [if_pos rfl]
    refine ⟨?_, by simp⟩
    rw [hafter]
    exact hstart rfl
  | @call l l' _ hcall =>
    rw [if_neg Bool.false_ne_true]
    obtain ⟨backend, hcfg⟩ := hconfigured l rfl
    have hcfg' (heq : l'.cfg = l.cfg) :
        ∀ l ∈ t.sys.loop, ∃ backend, l.cfg = rt.loopConfig agent backend := by
      intro l'' hl''
      rw [hafter] at hl''
      obtain rfl := Option.some.inj hl''
      exact ⟨backend, heq.trans hcfg⟩
    cases hcall with
    | other heq | rejected name heq =>
      rw [Option.toList_none, List.append_nil]
      exact ⟨hcfg' heq, hpassed⟩
    | dispatched called name hname hgates hbudget heq =>
      rw [hcfg] at hname hgates hbudget
      refine ⟨hcfg' heq, ?_⟩
      intro d hd hinternal
      rcases List.mem_append.mp hd with hd | hd
      · exact hpassed d hd hinternal
      · obtain rfl := List.mem_singleton.mp hd
        exact ⟨hname, mayCall_of_passes hgates hbudget hinternal⟩

/-! ### A run without a budget -/

/-- The loop has not called its model. -/
def Waits (l : Loop) : Prop :=
  match l.phase with
  | .start _ | .poll | .done => True
  | _ => False

/-- The model is not called when the budget is zero, so nothing is dispatched. -/
structure Exhausted (s : SendSystem × List Dispatch) : Prop where
  waits : ∀ l ∈ s.1.sys.loop, Waits l
  batch : s.1.batch = none
  none_dispatched : s.2 = []

lemma waits_poll {l : Loop} {t : Thread} {dbFails : Bool}
    (h : l.cfg.tool_call_budget = some 0) : Waits (l.poll t dbFails) := by
  have hafter (l' : Loop) (hcfg : l'.cfg = l.cfg) : Waits l'.afterPoll := by
    simp only [Waits, Loop.afterPoll, hcfg, h, Option.getD_some, Nat.zero_le, true_or, if_true]
  cases dbFails with
  | false => exact hafter _ rfl
  | true => exact hafter _ rfl

lemma waits_loopStep {s s' : System} {l : Loop} {a : LoopAct}
    (hcfg : l.cfg.tool_call_budget = some 0) (hwaits : Waits l) (h : s.loopStep l a = some s') :
    ∀ l' ∈ s'.loop, Waits l' := by
  intro l' hl'
  cases System.LoopRule.of_loopStep h with
  | @startCheck history c hphase =>
    obtain rfl := Option.some.inj hl'
    cases c with
    | within => trivial
    | cwc msgs => trivial
    | legacy d =>
      simp only [Loop.startCheck, Loop.compact]
      generalize l.legacyCompact s.thread history d = kept
      obtain ⟨t, kept⟩ := kept
      cases kept <;> trivial
  | poll =>
    obtain rfl := Option.some.inj hl'
    exact waits_poll hcfg
  | _ hphase => simp only [Waits, hphase] at hwaits

lemma exhausted_step {s s' : SendSystem × List Dispatch} {a : SendAct}
    (hbudget : agent.tool_call_budget = some 0) (hinv : RunInv rt agent s) (h : Exhausted s)
    (hstep : sendMessageSystem.recordedStep s a = some s') : Exhausted s' := by
  obtain ⟨t, ht, rfl⟩ := Option.map_eq_some_iff.mp hstep
  replace ht : s.1.step a = some t := ht
  obtain ⟨hwaits, hbatch, hnone⟩ := h
  have hcfg (l : Loop) (hl : l ∈ s.1.sys.loop) : l.cfg.tool_call_budget = some 0 := by
    obtain ⟨backend, hcfg⟩ := hinv.configured l hl
    rw [hcfg]
    exact hbudget
  cases a with
  | shared a =>
    simp only [SendSystem.step] at ht
    split_ifs at ht with hshared
    obtain ⟨sys, hsys, rfl⟩ := Option.map_eq_some_iff.mp ht
    refine ⟨?_, hbatch, ?_⟩
    · cases a with
      | queueInsert content =>
        cases hsys
        exact hwaits
      | queueCommit seq =>
        obtain ⟨t, -, rfl⟩ := Option.map_eq_some_iff.mp hsys
        exact hwaits
      | otherThread =>
        cases hsys
        exact hwaits
      | send content =>
        simp only [System.step] at hsys
        split_ifs at hsys
        cases hsys
        exact hwaits
      | start cfg tools hint memory memory_pairs =>
        simp only [System.step] at hsys
        split_ifs at hsys
        cases hsys
        rintro l ⟨⟩
        trivial
      | loop a =>
        simp only [System.step] at hsys
        split at hsys
        · next l hl => exact waits_loopStep (hcfg l hl) (hwaits l hl) hsys
        · cases hsys
    · show (if a.isStart then [] else s.2 ++ (SendSystem.dispatched s.1 (.shared a)).toList) = []
      rw [hnone]
      split_ifs <;> rfl
  | complete cwc dbFails uuid result =>
    simp only [SendSystem.step] at ht
    split at ht
    · next l hl _ =>
      split at ht
      · next hphase =>
        have hl' := hwaits l hl
        simp only [Waits, hphase] at hl'
      · cases ht
    · cases ht
  | item d | finish =>
    simp only [SendSystem.step] at ht
    split at ht
    · next hb =>
      rw [hbatch] at hb
      cases hb
    · cases ht

/-! ### What is dispatched -/

/-- The internal tools that a run dispatches are tools that the agent may call. -/
lemma mayCall_of_dispatches {name : String} (h : rt.Dispatches agent name)
    (hinternal : isInternal name = true) :
    agent.tool_call_budget ≠ some 0 ∧
      ∃ called, fixupToolName called rt.specs = name ∧ rt.MayCall agent name := by
  obtain ⟨account, acts, s, hruns, hexec, d, hd, rfl⟩ := h
  have hinv : RunInv rt agent s ∧ (agent.tool_call_budget = some 0 → Exhausted s) := by
    refine exec_invariant (C := fun _ a => rt.RunsAs agent a) (I := fun s => RunInv rt agent s ∧
      (agent.tool_call_budget = some 0 → Exhausted s)) ?_ ?_
      (Along.of_mem (fun a ha _ => hruns a ha) _) hexec
    · rintro s a t ⟨hinv, hexhausted⟩ ha hstep
      refine ⟨runInv_step hinv ha hstep, ?_⟩
      intro hbudget
      exact exhausted_step hbudget hinv (hexhausted hbudget) hstep
    · exact ⟨⟨by rintro l ⟨⟩, by simp⟩, fun _ => ⟨by rintro l ⟨⟩, rfl, rfl⟩⟩
  obtain ⟨hfixed, hmay⟩ := hinv.1.passed d hd hinternal
  refine ⟨?_, d.called, hfixed.symm, hmay⟩
  intro hbudget
  rw [(hinv.2 hbudget).none_dispatched] at hd
  cases hd

/-! ### A tool that may be called is dispatched -/

lemma checkGates_of_mayCall {backend : Backend} {name : String}
    (hlocal : backend.is_local = false) (h : rt.MayCall agent name) :
    checkGates (rt.loopConfig agent backend) [] [] name =
      (.ok (), ToolCounts.bump [] name) := by
  have hallows : (rt.loopConfig agent backend).allows name = true := by
    rw [LoopConfig.allows, Bool.or_eq_true]
    exact .inr h.allowed
  have hgranted : ((rt.loopConfig agent backend).restriction_cache.any
      fun rc => !rc.isAllowed name) = false := by
    simp only [loopConfig]
    cases hcache : rt.restriction_cache with
    | none => rfl
    | some rc =>
      rw [Option.any_some, h.granted rc hcache]
      rfl
  have hbudget : checkPerToolBudget name [] rt.specs = (none, ToolCounts.bump [] name) := by
    refine Prod.ext ?_ rfl
    simp only [checkPerToolBudget]
    cases hspec : rt.specs.getLatest name with
    | none => rfl
    | some spec =>
      rw [Option.bind_some, if_neg]
      rw [ToolCounts.get_bump, if_pos rfl]
      exact Nat.not_lt.mpr (h.calls spec hspec)
  rw [checkGates, if_neg (by rw [hallows]; decide), if_neg (by simp [loopConfig, hlocal]),
    hgranted, if_neg Bool.false_ne_true]
  simp only [loopConfig, hbudget]

/-- A response that calls one tool. -/
def callResponse (called : String) : CompletionResponse where
  content := ""
  tool_calls := [⟨"c1", called, .obj []⟩]
  finish_reason := .toolUse
  usage := none

/-- A loop that is about to call its model dispatches the tool that the model calls. -/
lemma exec_callResponse {sys : System} {l : Loop} {called : String} {counts : ToolCounts}
    (hloop : sys.loop = some l) (haccount : sys.account = none) (hphase : l.phase = .call)
    (hlocal : l.cfg.is_local = false)
    (hgates : checkGates l.cfg l.tools l.per_tool_counts (fixupToolName called l.cfg.specs) =
      (.ok (), counts)) (history : List Dispatch) :
    ∃ s, exec sendMessageSystem.recordedStep (⟨sys, none⟩, history)
        [.complete none false "" (.ok (callResponse called)), .item {}] = some s ∧
      s.2 = history ++ [⟨called, fixupToolName called l.cfg.specs, l.tools⟩] := by
  obtain ⟨thread, account, loop⟩ := sys
  obtain rfl : loop = some l := hloop
  obtain rfl : account = none := haccount
  have hpreflight : l.preflight none = l := by
    rw [Loop.preflight, if_neg (by rw [hlocal]; decide)]
  let b : Batch := .ofResponse l.cfg.parseJson "" (callResponse called)
  have hcomplete : sendMessageSystem.recordedStep (⟨⟨thread, none, some l⟩, none⟩, history)
      (.complete none false "" (.ok (callResponse called))) =
        some (⟨⟨thread, none, some l⟩, some b⟩, history) := by
    have hstep : SendSystem.step ⟨⟨thread, none, some l⟩, none⟩
        (.complete none false "" (.ok (callResponse called))) =
          some ⟨⟨thread, none, some l⟩, some b⟩ := by
      simp only [SendSystem.step, hphase]
      rw [show l.complete none none false "" (.ok (callResponse called)) =
        (l.preflight none, none, some b) from rfl, hpreflight]
    simp only [CallingSystem.recordedStep, hstep, Option.map_some]
    rw [show sendMessageSystem.record _ _ history = history ++ [] from rfl, List.append_nil]
  have hdispatched : l.dispatchItem { b with items := [] } called {} =
      some ⟨called, fixupToolName called l.cfg.specs, l.tools⟩ := by
    simp only [Loop.dispatchItem, Loop.itemChecks, hgates]
    rfl
  have hitem : sendMessageSystem.recordedStep (⟨⟨thread, none, some l⟩, some b⟩, history)
      (.item {}) = some (SendSystem.next ⟨⟨thread, none, some l⟩, some b⟩
        (l.callItem thread { b with items := [] } "c1" called {}),
        history ++ [⟨called, fixupToolName called l.cfg.specs, l.tools⟩]) := by
    show some (_, history ++ (l.dispatchItem { b with items := [] } called {}).toList) = _
    rw [hdispatched]
    rfl
  rw [exec_cons, hcomplete, Option.bind_some, exec_cons, hitem]
  exact ⟨_, rfl, rfl⟩

/-- A backend that is not local. -/
def cloudBackend : Backend where
  is_local := false
  system_prompt := "p"
  max_output := 4096
  parseJson _ := .ok (.obj [])

/-- A run up to the first call of the model. -/
def firstSteps (cfg : LoopConfig) : List SendAct :=
  [.shared (.send "q"), .shared (.start cfg [] "" [] []), .shared (.loop (.startCheck .within)),
    .shared (.loop (.poll false))]

lemma dispatches_of_mayCall {called : String} (hbudget : agent.tool_call_budget ≠ some 0)
    (h : rt.MayCall agent (fixupToolName called rt.specs)) :
    rt.Dispatches agent (fixupToolName called rt.specs) := by
  let cfg := rt.loopConfig agent cloudBackend
  let t := Thread.new.insert (userMessage "q")
  let l := ((startLoop t cfg [] "" [] []).startCheck t t.getThreadMessagesCompacted .within).1.poll
    t false
  have hphase : l.phase = .call := by
    have hexhausted : ¬ agent.tool_call_budget.getD Loop.maxToolCalls ≤ 0 := by
      cases hagent : agent.tool_call_budget with
      | none => decide
      | some budget =>
        rw [hagent] at hbudget
        intro hle
        exact hbudget (congrArg some (Nat.le_zero.mp hle))
    have herrors : ¬ maxConsecutiveErrors < 0 := Nat.not_lt_zero _
    exact if_neg (not_or.mpr ⟨hexhausted, herrors⟩)
  let sys : System := ⟨t, none, some l⟩
  have hloop : sys.loop = some l := rfl
  obtain ⟨s, hs, hhistory⟩ :=
    exec_callResponse hloop rfl hphase rfl (checkGates_of_mayCall rfl h) []
  refine ⟨none, firstSteps cfg ++ [.complete none false "" (.ok (callResponse called)), .item {}],
    s, ?_, ?_, ⟨called, _, []⟩, ?_, rfl⟩
  · simp only [firstSteps, List.cons_append, List.nil_append, List.forall_mem_cons]
    exact ⟨trivial, ⟨cloudBackend, rfl⟩, trivial, trivial, trivial, trivial, by simp⟩
  · rw [exec_append]
    exact hs
  · rw [hhistory]
    exact List.mem_singleton_self _

/-! ### Containment -/

lemma contained_of_refuses (h : rt.RefusesInternal child) : rt.Contained child := by
  have hnone (name : String) (hname : rt.Dispatches child name) : isInternal name = false := by
    by_contra hinternal
    rw [Bool.not_eq_false] at hinternal
    obtain ⟨hbudget, called, rfl, hmay⟩ := mayCall_of_dispatches hname hinternal
    rcases h with hzero | hrefuses
    · exact hbudget hzero
    · exact hrefuses called hinternal hmay
  refine ⟨hnone, ?_⟩
  intro n hn
  cases hn with
  | leaf => rfl
  | invoke hcall =>
    have hinternal := hnone _ hcall
    rw [isInternal_invokeAgent] at hinternal
    cases hinternal

/-- An agent that is configured with the stripped patterns is contained exactly if these refuse
every internal tool. -/
theorem contained_iff (rt : AgentRuntime) (agent : AgentConfig) :
    rt.Contained (childConfig agent) ↔ rt.RefusesInternal (childConfig agent) := by
  refine ⟨?_, contained_of_refuses⟩
  intro h
  by_cases hbudget : (childConfig agent).tool_call_budget = some 0
  · exact .inl hbudget
  · right
    intro called hinternal hmay
    have hnot := h.noInternal _ (dispatches_of_mayCall hbudget hmay)
    rw [hinternal] at hnot
    cases hnot

/-- An agent is contained if its patterns are neither the wildcard nor internal. -/
theorem contained_of_patterns (h : ∀ t ∈ agent.allowed_tools, t ≠ "*" ∧ isInternal t = false) :
    rt.Contained (childConfig agent) :=
  contained_of_refuses (refusesInternal_of_patterns h)

/-! ### The thinker -/

def thinkerAgent : AgentConfig where
  name := "thinker"
  system_prompt := "You are an autonomous analysis supervisor."
  allowed_tools := ["internal.*"]
  tool_call_budget := some 30

def metaSpecs : ToolSpecRegistry :=
  [⟨"internal.invoke_agent", 10⟩, ⟨"internal.list_agents", 3⟩, ⟨"internal.read_thread", 10⟩,
    ⟨"internal.list_artifacts", 5⟩, ⟨"internal.read_artifact", 20⟩]

def metaRuntime : AgentRuntime where
  specs := metaSpecs
  agent_configs := [thinkerAgent]

lemma dispatches_thinker :
    metaRuntime.Dispatches (childConfig thinkerAgent) "internal.invoke_agent" := by
  have hname : fixupToolName "internal.invoke_agent" metaRuntime.specs =
      "internal.invoke_agent" := by decide
  have hmay : metaRuntime.MayCall (childConfig thinkerAgent) "internal.invoke_agent" := by
    refine ⟨by decide, ?_, by decide⟩
    rintro rc ⟨⟩
  rw [← hname] at hmay ⊢
  exact dispatches_of_mayCall (by decide) hmay

/-- A thinker that is invoked by a thinker can invoke a thinker. -/
theorem not_contained_thinker : ¬ metaRuntime.Contained (childConfig thinkerAgent) := by
  intro h
  have hinternal := h.noInternal _ dispatches_thinker
  rw [isInternal_invokeAgent] at hinternal
  cases hinternal

/-- There is no bound on how deep thinkers nest. -/
theorem nests_thinker (n : ℕ) : metaRuntime.Nests (childConfig thinkerAgent) n := by
  induction n with
  | zero => exact .leaf _
  | succ n ih =>
    have hthinker : metaRuntime.invokedAgent "thinker" = some (childConfig thinkerAgent) := by
      decide
    exact .invoke dispatches_thinker hthinker ih

end AgentRuntime

end Arbeiterfarm.Agents
