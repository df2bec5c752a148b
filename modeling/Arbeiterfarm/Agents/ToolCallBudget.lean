import Arbeiterfarm.Agents.ToolGating

/-!
# The tool call budget

Both loops compare the number of tool calls with the budget before they call the model, and not
while they process the calls of a response. So the budget caps the dispatches of a run as long as
no call is dispatched after the budget has been used up, but a response with more calls than are
left goes through as a whole.
-/

namespace Arbeiterfarm.Agents

open Foundation Llm

def LoopConfig.maxBudget (cfg : LoopConfig) : ℕ := cfg.tool_call_budget.getD Loop.maxToolCalls

/-- The dispatches of the run are within its budget. -/
def WithinBudget (l : Loop) (history : List Dispatch) : Prop :=
  history.length ≤ l.cfg.maxBudget

namespace CallingSystem

variable (S : CallingSystem)

/-- A call that passes its checks is processed while there is some of the budget left. -/
def BudgetLeft (s : S.State × List Dispatch) (a : S.Action) : Prop :=
  (S.dispatched s.1 a).isSome = true → ∀ l ∈ S.loop s.1, l.tool_call_count < l.cfg.maxBudget

instance (s : S.State × List Dispatch) (a : S.Action) : Decidable (S.BudgetLeft s a) :=
  inferInstanceAs (Decidable ((S.dispatched s.1 a).isSome = true →
    ∀ l ∈ S.loop s.1, l.tool_call_count < l.cfg.maxBudget))

lemma withinBudget_step {s s' : S.State × List Dispatch} {a : S.Action}
    (hrecorded : ∀ l ∈ S.loop s.1, Recorded l s.2) (h : ∀ l ∈ S.loop s.1, WithinBudget l s.2)
    (hleft : S.BudgetLeft s a) (hstep : S.recordedStep s a = some s') :
    ∀ l ∈ S.loop s'.1, WithinBudget l s'.2 := by
  obtain ⟨t, ht, rfl⟩ := Option.map_eq_some_iff.mp hstep
  have hrule := S.rule_of_step ht
  simp only [BudgetLeft] at hleft
  intro l hl
  simp only [record]
  generalize S.loop s.1 = before at h hrecorded hleft hrule
  generalize S.loop t = after at hl hrule
  generalize S.starts a = starts at hrule ⊢
  generalize S.dispatched s.1 a = d at hleft hrule ⊢
  cases hrule with
  | idle =>
    rw [if_neg Bool.false_ne_true, Option.toList_none, List.append_nil]
    exact h l hl
  | start =>
    rw [if_pos rfl]
    exact Nat.zero_le _
  | @call l₀ _ _ hcall =>
    obtain rfl := Option.some.inj hl
    rw [if_neg Bool.false_ne_true]
    have hwithin := h _ rfl
    cases hcall with
    | other hcfg | rejected name hcfg =>
      rw [Option.toList_none, List.append_nil, WithinBudget, hcfg]
      exact hwithin
    | dispatched called name _ _ _ hcfg =>
      rw [Option.toList_some, WithinBudget, hcfg, List.length_append]
      -- the dispatches before this one have been counted as calls
      calc s.2.length + 1 ≤ l₀.tool_call_count + 1 := Nat.add_le_add_right (hrecorded _ rfl).total 1
        _ ≤ l₀.cfg.maxBudget := hleft rfl _ rfl

lemma withinBudget {s : S.State} (hs : S.loop s = none) {as : List S.Action}
    {s' : S.State × List Dispatch} (hleft : Along S.recordedStep S.BudgetLeft (s, []) as)
    (h : exec S.recordedStep (s, []) as = some s') : ∀ l ∈ S.loop s'.1, WithinBudget l s'.2 := by
  have hnone {P : Loop → Prop} : ∀ l ∈ S.loop s, P l := by
    intro l hl
    rw [hs] at hl
    cases hl
  refine (exec_invariant (I := fun s => (∀ l ∈ S.loop s.1, Recorded l s.2) ∧
    ∀ l ∈ S.loop s.1, WithinBudget l s.2) ?_ ⟨hnone, hnone⟩ hleft h).2
  intro s a t hinv hleft hstep
  constructor
  · exact S.recorded_step hinv.1 hstep
  · exact S.withinBudget_step hinv.1 hinv.2 hleft hstep

end CallingSystem

/-- In every run of either loop that dispatches calls only while some of the budget is left, the
dispatches are within the budget. -/
theorem dispatches_withinBudget {account account' : Option UsageDaily} {acts : List Act}
    {sends : List SendAct} {s : System × List Dispatch} {s' : SendSystem × List Dispatch}
    (hleft : Along streamingSystem.recordedStep streamingSystem.BudgetLeft
      (.init account, []) acts)
    (hleft' : Along sendMessageSystem.recordedStep sendMessageSystem.BudgetLeft
      (.init account', []) sends)
    (h : exec streamingSystem.recordedStep (.init account, []) acts = some s)
    (h' : exec sendMessageSystem.recordedStep (.init account', []) sends = some s') :
    (∀ l ∈ s.1.loop, WithinBudget l s.2) ∧ (∀ l ∈ s'.1.sys.loop, WithinBudget l s'.2) := by
  constructor
  · exact streamingSystem.withinBudget rfl hleft h
  · exact sendMessageSystem.withinBudget rfl hleft' h'

/-! ### A response with two calls -/

/-- A configuration with a budget. -/
def budgetConfig (budget : ℕ) : LoopConfig where
  specs := [⟨"file.info", 20⟩]
  allowed_tools := ["*"]
  is_local := false
  tool_call_budget := some budget
  system_prompt := "p"
  max_output := 4096
  parseJson _ := .ok (.obj [])

def startBudget (budget : ℕ) : Act := .start (budgetConfig budget) ["file.info"] "" [] []

/-- A streamed response with two calls. -/
def twoStreamed (budget : ℕ) : List Act :=
  [.send "q", startBudget budget, .loop (.startCheck .within), .loop (.poll false),
    .loop (.callLlm none false
      { chunks := [.ok (.toolCallStart "c1" "file.info"), .ok (.toolCallStart "c2" "file.info")] }
      .stored),
    .loop (.toolCall "ok" none .stored), .loop (.toolCall "ok" none .stored)]

/-- The same response, complete. -/
def twoComplete (budget : ℕ) : List SendAct :=
  [.shared (.send "q"), .shared (startBudget budget), .shared (.loop (.startCheck .within)),
    .shared (.loop (.poll false)),
    .complete none false "" (.ok
      { content := ""
        tool_calls := [⟨"c1", "file.info", .obj []⟩, ⟨"c2", "file.info", .obj []⟩]
        finish_reason := .toolUse
        usage := none }),
    .item {}, .item {}]

theorem dispatches_withinBudget_two : ∃ s s',
    exec streamingSystem.recordedStep (.init none, []) (twoStreamed 2) = some s ∧
    exec sendMessageSystem.recordedStep (.init none, []) (twoComplete 2) = some s' ∧
    s.2.length = 2 ∧ s'.2.length = 2 ∧ (∀ l ∈ System.loop s.1, WithinBudget l s.2) ∧
    (∀ l ∈ System.loop (SendSystem.sys s'.1), WithinBudget l s'.2) := by
  obtain ⟨s, h, hs⟩ : ∃ s, exec streamingSystem.recordedStep (.init none, []) (twoStreamed 2) =
      some s ∧ s.2.length = 2 := ⟨_, rfl, by decide +kernel⟩
  obtain ⟨s', h', hs'⟩ : ∃ s, exec sendMessageSystem.recordedStep (.init none, [])
      (twoComplete 2) = some s ∧ s.2.length = 2 := ⟨_, rfl, by decide +kernel⟩
  exact ⟨s, s', h, h', hs, hs',
    dispatches_withinBudget (by decide +kernel) (by decide +kernel) h h'⟩

/-- With a budget of one, either loop dispatches both calls. -/
theorem not_withinBudget_two : (∃ s l,
    exec streamingSystem.recordedStep (.init none, []) (twoStreamed 1) = some s ∧
    System.loop s.1 = some l ∧ ¬ WithinBudget l s.2) ∧ (∃ s l,
    exec sendMessageSystem.recordedStep (.init none, []) (twoComplete 1) = some s ∧
    System.loop (SendSystem.sys s.1) = some l ∧ ¬ WithinBudget l s.2) := by
  constructor
  · refine ⟨_, _, rfl, rfl, ?_⟩
    simp only [WithinBudget]
    decide +kernel
  · refine ⟨_, _, rfl, rfl, ?_⟩
    simp only [WithinBudget]
    decide +kernel

end Arbeiterfarm.Agents
