import Arbeiterfarm.Agents.SendMessage
import Mathlib.Data.List.Count

/-!
# Which tools are dispatched

Both loops dispatch a tool under its repaired name, after the same checks. What a step means for
the tool calls of a run is said once for both: nothing, a call that is answered by an error, or a
dispatch. The history of a run is the list of its dispatches; it starts anew with each run.
-/

namespace Arbeiterfarm.Agents

open Foundation

/-- A tool call that is dispatched, with the native tools at that time. -/
structure Dispatch where
  called : String
  name : String
  native : List String
  deriving DecidableEq, Repr

/-- A dispatch that reaches the invoker; discovery is answered by the loop itself. -/
def Dispatch.invoked (d : Dispatch) : Bool := d.name ≠ "tools.discover"

/-! ### Steps -/

/-- What a step of a loop means for its tool calls. -/
inductive CallRule (l : Loop) : Loop → Option Dispatch → Prop where
  | other {l' : Loop} (hcfg : l'.cfg = l.cfg) (hcounts : l'.per_tool_counts = l.per_tool_counts)
      (hcount : l'.tool_call_count = l.tool_call_count) : CallRule l l' none
  | rejected {l' : Loop} (name : String) (hcfg : l'.cfg = l.cfg)
      (hcounts : l'.per_tool_counts = l.per_tool_counts ∨
        l'.per_tool_counts = l.per_tool_counts.bump name)
      (hcount : l'.tool_call_count = l.tool_call_count + 1) : CallRule l l' none
  | dispatched {l' : Loop} (called name : String) (hname : name = fixupToolName called l.cfg.specs)
      (hgates : PassesGates l.cfg l.tools name)
      (hbudget : ∀ spec ∈ l.cfg.specs.getLatest name,
        (l.per_tool_counts.bump name).get name ≤ spec.max_calls_per_run)
      (hcfg : l'.cfg = l.cfg) (hcounts : l'.per_tool_counts = l.per_tool_counts.bump name)
      (hcount : l'.tool_call_count = l.tool_call_count + 1) :
      CallRule l l' (some ⟨called, name, l.tools⟩)

/-- What a step of a system means for the loop that is running. -/
inductive RunRule : Option Loop → Option Loop → Bool → Option Dispatch → Prop where
  | idle (l : Option Loop) : RunRule l l false none
  | start (l : Option Loop) {l' : Loop} (hcounts : l'.per_tool_counts = [])
      (hcount : l'.tool_call_count = 0) : RunRule l (some l') true none
  | call {l l' : Loop} {d : Option Dispatch} (h : CallRule l l' d) :
      RunRule (some l) (some l') false d

/-- A system with an agent loop that calls tools. -/
structure CallingSystem where
  State : Type
  Action : Type
  step : State → Action → Option State
  loop : State → Option Loop
  starts : Action → Bool
  dispatched : State → Action → Option Dispatch
  rule_of_step : ∀ {s a s'}, step s a = some s' →
    RunRule (loop s) (loop s') (starts a) (dispatched s a)

/-- The history after a step. -/
def CallingSystem.record (S : CallingSystem) (s : S.State) (a : S.Action)
    (history : List Dispatch) : List Dispatch :=
  if S.starts a then [] else history ++ (S.dispatched s a).toList

/-- The step with the history of the run. -/
def CallingSystem.recordedStep (S : CallingSystem) (s : S.State × List Dispatch) (a : S.Action) :
    Option (S.State × List Dispatch) :=
  (S.step s.1 a).map fun s' => (s', S.record s.1 a s.2)

/-! ### What holds of a history -/

def dispatchCount (history : List Dispatch) (name : String) : ℕ :=
  (history.map (·.name)).count name

/-- Every dispatch has passed the checks, and the counters of the loop are no less than what has
been dispatched. -/
structure Recorded (l : Loop) (history : List Dispatch) : Prop where
  fixedUp : ∀ d ∈ history, d.name = fixupToolName d.called l.cfg.specs
  gates : ∀ d ∈ history, PassesGates l.cfg d.native d.name
  counts : ∀ name, dispatchCount history name ≤ l.per_tool_counts.get name
  budget : ∀ name, ∀ spec ∈ l.cfg.specs.getLatest name,
    dispatchCount history name ≤ spec.max_calls_per_run
  total : history.length ≤ l.tool_call_count

@[simp] lemma ToolCounts.get_bump (counts : ToolCounts) (name name' : String) :
    (counts.bump name).get name' = counts.get name' + if name' = name then 1 else 0 := by
  by_cases h : name' = name
  · simp [ToolCounts.get, ToolCounts.bump, h]
  · have hne : (name' == name) = false := by simpa using h
    simp [ToolCounts.get, ToolCounts.bump, List.lookup_cons, hne, h]

lemma dispatchCount_append (history : List Dispatch) (d : Dispatch) (name : String) :
    dispatchCount (history ++ [d]) name =
      dispatchCount history name + if d.name = name then 1 else 0 := by
  simp [dispatchCount, List.count_append, List.count_singleton]

lemma Recorded.start {l : Loop} : Recorded l [] where
  fixedUp := by simp
  gates := by simp
  counts := by simp [dispatchCount]
  budget := by simp [dispatchCount]
  total := Nat.zero_le _

/-- A history stays right when the counters grow. -/
lemma Recorded.mono {l l' : Loop} {history : List Dispatch} (h : Recorded l history)
    (hcfg : l'.cfg = l.cfg)
    (hcounts : ∀ name, l.per_tool_counts.get name ≤ l'.per_tool_counts.get name)
    (hcount : l.tool_call_count ≤ l'.tool_call_count) : Recorded l' history where
  fixedUp := by
    rw [hcfg]
    exact h.fixedUp
  gates := by
    rw [hcfg]
    exact h.gates
  counts name := (h.counts name).trans (hcounts name)
  budget := by
    rw [hcfg]
    exact h.budget
  total := h.total.trans hcount

lemma Recorded.call {l l' : Loop} {history : List Dispatch} {d : Option Dispatch}
    (h : Recorded l history) (hcall : CallRule l l' d) : Recorded l' (history ++ d.toList) := by
  cases hcall with
  | other hcfg hcounts hcount =>
    rw [Option.toList_none, List.append_nil]
    apply h.mono hcfg
    · intro name
      rw [hcounts]
    · rw [hcount]
  | rejected name hcfg hcounts hcount =>
    rw [Option.toList_none, List.append_nil]
    apply h.mono hcfg
    · intro name'
      rcases hcounts with hcounts | hcounts
      · rw [hcounts]
      · rw [hcounts, ToolCounts.get_bump]
        exact Nat.le_add_right _ _
    · rw [hcount]
      exact Nat.le_succ _
  | dispatched called name hname hgates hbudget hcfg hcounts hcount =>
    have hcount_le (name' : String) :
        dispatchCount (history ++ [⟨called, name, l.tools⟩]) name' ≤
          (l.per_tool_counts.bump name).get name' := by
      rw [dispatchCount_append, ToolCounts.get_bump]
      simp only [eq_comm (a := name')]
      exact Nat.add_le_add_right (h.counts name') _
    rw [Option.toList_some]
    refine ⟨?_, ?_, ?_, ?_, ?_⟩
    · intro d hd
      rw [hcfg]
      rcases List.mem_append.mp hd with hd | hd
      · exact h.fixedUp d hd
      · rw [List.mem_singleton.mp hd]
        exact hname
    · intro d hd
      rw [hcfg]
      rcases List.mem_append.mp hd with hd | hd
      · exact h.gates d hd
      · rw [List.mem_singleton.mp hd]
        exact hgates
    · rw [hcounts]
      exact hcount_le
    · intro name' spec hspec
      rw [hcfg] at hspec
      by_cases heq : name = name'
      · subst heq
        exact (hcount_le name).trans (hbudget spec hspec)
      · rw [dispatchCount_append, if_neg heq]
        exact h.budget name' spec hspec
    · rw [hcount, List.length_append]
      exact Nat.add_le_add_right h.total 1

namespace CallingSystem

variable (S : CallingSystem)

/-- A run keeps its history right. -/
lemma recorded_step {s s' : S.State × List Dispatch} {a : S.Action}
    (h : ∀ l ∈ S.loop s.1, Recorded l s.2) (hstep : S.recordedStep s a = some s') :
    ∀ l ∈ S.loop s'.1, Recorded l s'.2 := by
  obtain ⟨t, ht, rfl⟩ := Option.map_eq_some_iff.mp hstep
  have hrule := S.rule_of_step ht
  intro l hl
  simp only [record]
  generalize S.loop s.1 = before at h hrule
  generalize S.loop t = after at hl hrule
  generalize S.starts a = starts at hrule ⊢
  generalize S.dispatched s.1 a = d at hrule ⊢
  cases hrule with
  | idle =>
    rw [if_neg Bool.false_ne_true, Option.toList_none, List.append_nil]
    exact h l hl
  | start =>
    rw [if_pos rfl]
    exact .start
  | call hcall =>
    obtain rfl := Option.some.inj hl
    rw [if_neg Bool.false_ne_true]
    exact (h _ rfl).call hcall

theorem recorded {s : S.State} (hs : S.loop s = none) {as : List S.Action}
    {s' : S.State × List Dispatch} (h : exec S.recordedStep (s, []) as = some s') :
    ∀ l ∈ S.loop s'.1, Recorded l s'.2 := by
  refine exec_preserves (I := fun s => ∀ l ∈ S.loop s.1, Recorded l s.2) ?_ ?_ h
  · intro s a t hinv hstep
    exact S.recorded_step hinv hstep
  · intro l hl
    rw [hs] at hl
    cases hl

end CallingSystem

end Arbeiterfarm.Agents
