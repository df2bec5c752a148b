import Arbeiterfarm.Agents.InvokeTool
import Mathlib.Data.List.Infix

/-!
# The stop after consecutive errors

Both loops count the tool calls that fail in a row, and end before they call the model again when
there are more than `maxConsecutiveErrors`. A call that is rejected is counted. A call that is
dispatched resets the counter, whether it succeeds or not; and the counter is not looked at between
the calls of one response. So the stop is reliable in runs where dispatched calls succeed, and where
none is dispatched after too many have been rejected.
-/

namespace Arbeiterfarm.Agents

open Foundation Llm

/-! ### Steps -/

/-- What a step of a loop means for its counter of errors. -/
inductive ErrorRule (l : Loop) : Loop → Option CallOutcome → Prop where
  | other {l' : Loop} (h : l'.consecutive_errors = l.consecutive_errors) : ErrorRule l l' none
  | rejected {l' : Loop} (h : l'.consecutive_errors = l.consecutive_errors + 1) :
    ErrorRule l l' (some .rejected)
  | dispatched {l' : Loop} (success : Bool) (h : l'.consecutive_errors = 0) :
    ErrorRule l l' (some (.dispatched success))

/-- What a step of a system means for the loop that is running. -/
inductive ErrorRunRule : Option Loop → Option Loop → Bool → Option CallOutcome → Prop where
  | idle (l : Option Loop) : ErrorRunRule l l false none
  | start (l : Option Loop) {l' : Loop} (h : l'.consecutive_errors = 0) :
    ErrorRunRule l (some l') true none
  | call {l l' : Loop} {outcome : Option CallOutcome} (h : ErrorRule l l' outcome) :
    ErrorRunRule (some l) (some l') false outcome

/-- What a step means for the errors of the loop and for its next request: it makes one only if
there are not too many errors. -/
structure ErrorStep (loop loop' : Option Loop) (asks asks' : Prop) (starts : Bool)
    (outcome : Option CallOutcome) : Prop where
  rule : ErrorRunRule loop loop' starts outcome
  asks : asks' → (asks ∧ loop' = loop) ∨
    ∀ l ∈ loop', l.consecutive_errors ≤ maxConsecutiveErrors

/-- A system with an agent loop that counts its errors. -/
structure ErrorSystem where
  State : Type
  Action : Type
  step : State → Action → Option State
  loop : State → Option Loop
  starts : Action → Bool
  outcome : State → Action → Option CallOutcome
  /-- The action is a request to the model. -/
  requests : Action → Bool
  /-- The loop is about to call the model. -/
  asks : State → Prop
  errorStep : ∀ {s a s'}, step s a = some s' →
    ErrorStep (loop s) (loop s') (asks s) (asks s') (starts a) (outcome s a)
  asks_of_requests : ∀ {s a s'}, step s a = some s' → requests a = true →
    asks s ∧ (loop s).isSome = true

def failures (history : List CallOutcome) : List Bool := history.map (·.failed)

lemma failures_append (history : List CallOutcome) (outcome : CallOutcome) :
    failures (history ++ [outcome]) = failures history ++ [outcome.failed] :=
  List.map_append

/-- More than `maxConsecutiveErrors` calls in a row have failed. -/
def TooManyFailed (history : List CallOutcome) : Prop :=
  List.replicate (maxConsecutiveErrors + 1) true <:+: failures history

namespace ErrorSystem

variable (S : ErrorSystem)

/-- The step with the outcomes of the calls of the run, which starts anew with each run. -/
def recordedStep (s : S.State × List CallOutcome) (a : S.Action) :
    Option (S.State × List CallOutcome) :=
  (S.step s.1 a).map fun s' =>
    (s', if S.starts a then [] else s.2 ++ (S.outcome s.1 a).toList)

/-- A call that is dispatched succeeds, and there are not too many errors yet. -/
def Steady (s : S.State × List CallOutcome) (a : S.Action) : Prop :=
  ∀ success, S.outcome s.1 a = some (.dispatched success) →
    success = true ∧ ∀ l ∈ S.loop s.1, l.consecutive_errors ≤ maxConsecutiveErrors

instance (s : S.State × List CallOutcome) (a : S.Action) : Decidable (S.Steady s a) :=
  inferInstanceAs (Decidable (∀ success, S.outcome s.1 a = some (.dispatched success) →
    success = true ∧ ∀ l ∈ S.loop s.1, l.consecutive_errors ≤ maxConsecutiveErrors))

end ErrorSystem

/-! ### Failures in a row -/

/-- The failures at the end of the history are counted, and so are too many in a row at any
time. -/
structure Counted (l : Loop) (history : List CallOutcome) : Prop where
  streak : ∀ n, List.replicate n true <:+ failures history → n ≤ l.consecutive_errors
  tooMany : TooManyFailed history → maxConsecutiveErrors < l.consecutive_errors

lemma counted_nil (l : Loop) : Counted l [] where
  streak n h := by
    have hlength := h.length_le
    rw [List.length_replicate] at hlength
    exact hlength.trans (Nat.zero_le _)
  tooMany h := by
    have hlength := h.length_le
    rw [List.length_replicate] at hlength
    exact absurd hlength (Nat.not_succ_le_zero _)

lemma Counted.congr {l l' : Loop} {history : List CallOutcome} (h : Counted l history)
    (herrors : l'.consecutive_errors = l.consecutive_errors) : Counted l' history := by
  obtain ⟨hstreak, htooMany⟩ := h
  rw [← herrors] at hstreak htooMany
  exact ⟨hstreak, htooMany⟩

lemma replicate_suffix_concat {n : ℕ} {bs : List Bool} {b : Bool}
    (h : List.replicate (n + 1) true <:+ bs ++ [b]) :
    b = true ∧ List.replicate n true <:+ bs := by
  rw [List.suffix_concat_iff, List.replicate_succ'] at h
  rcases h with hnil | ⟨t, heq, ht⟩
  · simp at hnil
  · obtain ⟨rfl, hb⟩ := List.append_inj' heq rfl
    exact ⟨(List.singleton_inj.mp hb).symm, ht⟩

lemma Counted.rejected {l l' : Loop} {history : List CallOutcome} (h : Counted l history)
    (herrors : l'.consecutive_errors = l.consecutive_errors + 1) :
    Counted l' (history ++ [.rejected]) := by
  have hstreak (n : ℕ) (hn : List.replicate n true <:+ failures (history ++ [.rejected])) :
      n ≤ l'.consecutive_errors := by
    cases n with
    | zero => exact Nat.zero_le _
    | succ n =>
      rw [failures_append] at hn
      rw [herrors]
      exact Nat.succ_le_succ (h.streak n (replicate_suffix_concat hn).2)
  refine ⟨hstreak, ?_⟩
  intro htooMany
  rw [TooManyFailed, failures_append, List.infix_concat_iff] at htooMany
  rcases htooMany with hsuffix | hinfix
  · exact hstreak (maxConsecutiveErrors + 1) (by rwa [failures_append])
  · rw [herrors]
    exact (h.tooMany hinfix).trans (Nat.lt_succ_self _)

/-- A call that succeeds ends a streak, which has not been too long. -/
lemma Counted.succeeded {l l' : Loop} {history : List CallOutcome} (h : Counted l history)
    (hfew : l.consecutive_errors ≤ maxConsecutiveErrors) :
    Counted l' (history ++ [.dispatched true]) where
  streak n hn := by
    cases n with
    | zero => exact Nat.zero_le _
    | succ n =>
      rw [failures_append] at hn
      cases (replicate_suffix_concat hn).1
  tooMany htooMany := by
    rw [TooManyFailed, failures_append, List.infix_concat_iff] at htooMany
    rcases htooMany with hsuffix | hinfix
    · cases (replicate_suffix_concat hsuffix).1
    · exact absurd (h.tooMany hinfix) (Nat.not_lt.mpr hfew)

namespace ErrorSystem

variable (S : ErrorSystem)

/-- The errors of the run are counted, and there are not too many when the model is called. -/
structure ErrorInv (s : S.State × List CallOutcome) : Prop where
  counted : ∀ l ∈ S.loop s.1, Counted l s.2
  asks : S.asks s.1 → ∀ l ∈ S.loop s.1, l.consecutive_errors ≤ maxConsecutiveErrors

lemma errorInv_step {s s' : S.State × List CallOutcome} {a : S.Action} (h : S.ErrorInv s)
    (hsteady : S.Steady s a) (hstep : S.recordedStep s a = some s') : S.ErrorInv s' := by
  obtain ⟨t, ht, rfl⟩ := Option.map_eq_some_iff.mp hstep
  obtain ⟨hrule, hasks⟩ := S.errorStep ht
  refine ⟨?_, ?_⟩
  · intro l hl
    have hcounted := h.counted
    simp only [Steady] at hsteady
    show Counted l (if S.starts a then [] else s.2 ++ (S.outcome s.1 a).toList)
    generalize S.loop s.1 = before at hcounted hsteady hrule
    generalize S.loop t = after at hl hrule
    generalize S.starts a = starts at hrule ⊢
    generalize S.outcome s.1 a = outcome at hsteady hrule ⊢
    cases hrule with
    | idle =>
      rw [if_neg Bool.false_ne_true, Option.toList_none, List.append_nil]
      exact hcounted l hl
    | start =>
      rw [if_pos rfl]
      exact counted_nil l
    | @call l₀ _ _ hcall =>
      obtain rfl := Option.some.inj hl
      rw [if_neg Bool.false_ne_true]
      have hcounted₀ := hcounted l₀ rfl
      cases hcall with
      | other herrors =>
        rw [Option.toList_none, List.append_nil]
        exact hcounted₀.congr herrors
      | rejected herrors => exact hcounted₀.rejected herrors
      | dispatched success =>
        obtain ⟨rfl, hfew⟩ := hsteady success rfl
        exact hcounted₀.succeeded (hfew l₀ rfl)
  · intro hafter
    rcases hasks hafter with ⟨hbefore, hsame⟩ | hfew
    · show ∀ l ∈ S.loop t, _
      rw [hsame]
      exact h.asks hbefore
    · exact hfew

/-- In a run whose steps are steady, no request is made after too many failures in a row. -/
lemma not_tooManyFailed {s : S.State} (hs : S.loop s = none) {as : List S.Action}
    {s' : S.State × List CallOutcome} (hsteady : Along S.recordedStep S.Steady (s, []) as)
    (h : exec S.recordedStep (s, []) as = some s') {a : S.Action} {t : S.State}
    (ha : S.requests a = true) (ht : S.step s'.1 a = some t) : ¬ TooManyFailed s'.2 := by
  have hinv : S.ErrorInv s' := by
    refine exec_invariant (I := S.ErrorInv) ?_ ?_ hsteady h
    · intro s a t hinv hsteady hstep
      exact S.errorInv_step hinv hsteady hstep
    · constructor
      · intro l hl
        exact counted_nil l
      · intro _ l hl
        rw [hs] at hl
        cases hl
  obtain ⟨hasks, hloop⟩ := S.asks_of_requests ht ha
  obtain ⟨l, hl⟩ := Option.isSome_iff_exists.mp hloop
  intro htooMany
  exact Nat.not_lt.mpr (hinv.asks hasks l hl) ((hinv.counted l hl).tooMany htooMany)

end ErrorSystem

/-! ### Steps without tool calls -/

namespace Loop

variable {l : Loop} {t : Thread}

/-- The counter is as before, and the loop calls its model only while it is low. -/
structure KeepsErrors (l l' : Loop) : Prop where
  errors : l'.consecutive_errors = l.consecutive_errors
  asks : l'.phase = .call → l'.consecutive_errors ≤ maxConsecutiveErrors

lemma keepsErrors_of_phase {l' : Loop} (herrors : l'.consecutive_errors = l.consecutive_errors)
    (hphase : l'.phase ≠ .call) : KeepsErrors l l' :=
  ⟨herrors, fun h => absurd h hphase⟩

lemma keepsErrors_keep {phase : Phase} (hphase : phase ≠ .call) (r : Thread × Option (List Held)) :
    KeepsErrors l (l.keep phase r).1 := by
  obtain ⟨t, kept⟩ := r
  cases kept <;> exact keepsErrors_of_phase rfl hphase

lemma keepsErrors_startCheck (history : List MessageRow) (c : StartCheck) :
    KeepsErrors l (l.startCheck t history c).1 := by
  cases c with
  | within | cwc msgs => exact keepsErrors_of_phase rfl (by rintro ⟨⟩)
  | legacy d =>
    have hpoll : Phase.poll ≠ .call := by rintro ⟨⟩
    exact keepsErrors_keep hpoll _

/-- The counter is looked at before the model is called. -/
lemma keepsErrors_poll (dbFails : Bool) : KeepsErrors l (l.poll t dbFails) := by
  have hafter (l' : Loop) (herrors : l'.consecutive_errors = l.consecutive_errors) :
      KeepsErrors l l'.afterPoll := by
    refine ⟨herrors, ?_⟩
    intro hphase
    simp only [afterPoll] at hphase
    split_ifs at hphase with hstop
    exact Nat.not_lt.mp fun hmany => hstop (.inr hmany)
  cases dbFails with
  | false => exact hafter _ rfl
  | true => exact hafter _ rfl

lemma errors_preflight (cwc : Option (List ChatMessage)) :
    (l.preflight cwc).consecutive_errors = l.consecutive_errors := by
  simp only [preflight]
  split_ifs
  · cases cwc <;> rfl
  · rfl
  · rfl

lemma keepsErrors_onResponse (c : Collected) (insert : Insert) :
    KeepsErrors l (l.onResponse t c insert).1 := by
  simp only [onResponse]
  split
  · cases insert <;> exact keepsErrors_of_phase rfl (by rintro ⟨⟩)
  · split_ifs <;> exact keepsErrors_of_phase rfl (by rintro ⟨⟩)

lemma keepsErrors_callLlm (account : Option UsageDaily) (cwc : Option (List ChatMessage))
    (dbFails : Bool) (s : Llm.Stream) (insert : Insert) :
    KeepsErrors l (l.callLlm t account cwc dbFails s insert).1 := by
  simp only [callLlm]
  split
  · obtain ⟨herrors, hasks⟩ := keepsErrors_onResponse (l := l.preflight cwc) (t := t) _ insert
    exact ⟨herrors.trans (errors_preflight cwc), hasks⟩
  · exact keepsErrors_of_phase rfl (by rintro ⟨⟩)

lemma errors_reinforce (goal : String) :
    (l.reinforce goal).consecutive_errors = l.consecutive_errors := by
  simp only [reinforce]
  split_ifs <;> rfl

lemma keepsErrors_afterTools (cwc : Option (List ChatMessage)) (dbFails : Bool) :
    KeepsErrors l (l.afterTools t cwc dbFails) := by
  simp only [afterTools]
  split_ifs
  · cases cwc with
    | some msgs => exact keepsErrors_of_phase rfl (by rintro ⟨⟩)
    | none => exact keepsErrors_of_phase (errors_reinforce "") (by rintro ⟨⟩)
  · exact keepsErrors_of_phase rfl (by rintro ⟨⟩)
  · exact keepsErrors_of_phase (errors_reinforce l.goalReminder) (by rintro ⟨⟩)
  · exact keepsErrors_of_phase (errors_reinforce "") (by rintro ⟨⟩)

lemma keepsErrors_check (shouldCompact dbFails : Bool) :
    KeepsErrors l (l.check t shouldCompact dbFails) := by
  simp only [check]
  split_ifs <;> exact keepsErrors_of_phase rfl (by rintro ⟨⟩)

/-! ### Tool calls -/

lemma errors_discover (new_tool : Option String) :
    (l.discover new_tool).consecutive_errors = l.consecutive_errors := by
  cases new_tool with
  | none => rfl
  | some name =>
    simp only [discover]
    split_ifs <;> rfl

lemma nextCall_ne_call (pending : List StreamedCall) : nextCall pending ≠ .call := by
  cases pending <;> rintro ⟨⟩

/-- A call that is dispatched resets the counter, whatever the tool returns. -/
lemma errors_dispatch (name : String) (call : StreamedCall) (pending : List StreamedCall)
    (counts : ToolCounts) (output : String) (new_tool : Option String) (insert : Insert) :
    (l.dispatch t name call pending counts output new_tool insert).1.consecutive_errors = 0 := by
  cases insert <;> exact errors_discover new_tool

lemma phase_toolCall (call : StreamedCall) (pending : List StreamedCall) (output : String)
    (new_tool : Option String) (insert : Insert) :
    (l.toolCall t call pending output new_tool insert).1.phase ≠ .call := by
  simp only [toolCall]
  split
  · exact nextCall_ne_call pending
  · cases insert with
    | aborted => rintro ⟨⟩
    | stored => exact nextCall_ne_call pending
    | failed => exact nextCall_ne_call pending

lemma errorRule_toolCall (env : ToolEnv) (call : StreamedCall) (pending : List StreamedCall)
    (output : String) (new_tool : Option String) (insert : Insert) :
    ErrorRule l (l.toolCall t call pending output new_tool insert).1
      (some (l.callOutcome env (l.invocation call))) := by
  simp only [toolCall, invocation]
  generalize l.checks call = checks
  obtain ⟨result, counts⟩ := checks
  cases result with
  | error e => exact .rejected rfl
  | ok arguments => exact .dispatched _ (errors_dispatch _ _ _ _ _ _ _)

end Loop

/-! ### The streaming loop -/

def ToolAct.isStart : ToolAct → Bool
  | .other a => a.isStart
  | _ => false

def ToolAct.requests : ToolAct → Bool
  | .other (.loop (.callLlm ..)) => true
  | _ => false

/-- The loop is about to call its model. -/
def System.Asks (s : System) : Prop := ∃ l, s.loop = some l ∧ l.phase = .call

/-- A step of the loop that processes no call. -/
lemma Loop.KeepsErrors.errorStep {l l' : Loop} {asks asks' : Prop} (h : l.KeepsErrors l')
    (hasks : asks' → l'.phase = .call) :
    ErrorStep (some l) (some l') asks asks' false none := by
  refine ⟨.call (.other h.errors), ?_⟩
  intro hasks'
  right
  intro l'' hl''
  obtain rfl := Option.some.inj hl''
  exact h.asks (hasks hasks')

/-- A step that processes a call. -/
lemma ErrorRule.errorStep {l l' : Loop} {asks asks' : Prop} {outcome : Option CallOutcome}
    (h : ErrorRule l l' outcome) (hasks : ¬ asks') :
    ErrorStep (some l) (some l') asks asks' false outcome :=
  ⟨.call h, fun hasks' => absurd hasks' hasks⟩

/-- A step of another party. -/
lemma errorStep_idle (loop : Option Loop) (asks : Prop) :
    ErrorStep loop loop asks asks false none :=
  ⟨.idle loop, fun hasks => .inl ⟨hasks, rfl⟩⟩

lemma System.phase_of_asks {s : System} {l : Loop} (hl : s.loop = some l) (h : s.Asks) :
    l.phase = .call := by
  obtain ⟨l', hl', hphase⟩ := h
  rw [hl] at hl'
  obtain rfl := Option.some.inj hl'
  exact hphase

lemma System.errorStep_loopStep {s s' : System} {l : Loop} {a : LoopAct} (hl : s.loop = some l)
    (ha : (Act.loop a).isToolCall = false) (h : s.loopStep l a = some s') :
    ErrorStep s.loop s'.loop s.Asks s'.Asks false none := by
  rw [hl]
  cases LoopRule.of_loopStep h with
  | startCheck => exact (Loop.keepsErrors_startCheck _ _).errorStep (phase_of_asks rfl)
  | poll => exact (Loop.keepsErrors_poll _).errorStep (phase_of_asks rfl)
  | callLlm => exact (Loop.keepsErrors_callLlm _ _ _ _ _).errorStep (phase_of_asks rfl)
  | toolCall => cases ha
  | afterTools => exact (Loop.keepsErrors_afterTools _ _).errorStep (phase_of_asks rfl)
  | trim =>
    have hcheck : Phase.check ≠ .call := by rintro ⟨⟩
    exact (Loop.keepsErrors_keep hcheck _).errorStep (phase_of_asks rfl)
  | check => exact (Loop.keepsErrors_check _ _).errorStep (phase_of_asks rfl)
  | compact =>
    have hpoll : Phase.poll ≠ .call := by rintro ⟨⟩
    exact (Loop.keepsErrors_keep hpoll _).errorStep (phase_of_asks rfl)

/-- A step that processes no tool call. -/
lemma System.errorStep_step {s s' : System} {a : Act} (ha : a.isToolCall = false)
    (h : s.step a = some s') :
    ErrorStep s.loop s'.loop s.Asks s'.Asks a.isStart none := by
  cases a with
  | queueInsert content =>
    cases h
    exact errorStep_idle _ _
  | queueCommit seq =>
    obtain ⟨t, -, rfl⟩ := Option.map_eq_some_iff.mp h
    exact errorStep_idle _ _
  | otherThread =>
    cases h
    exact errorStep_idle _ _
  | send content =>
    simp only [step] at h
    split_ifs at h
    cases h
    exact errorStep_idle _ _
  | start cfg tools hint memory memory_pairs =>
    simp only [step] at h
    split_ifs at h
    cases h
    refine ⟨.start _ rfl, ?_⟩
    intro hasks
    cases phase_of_asks rfl hasks
  | loop a =>
    simp only [step] at h
    split at h
    · next l hl => exact errorStep_loopStep hl ha h
    · cases h

lemma System.errorStep_toolStep {s s' : System} {a : ToolAct} (h : s.toolStep a = some s') :
    ErrorStep s.loop s'.loop s.Asks s'.Asks a.isStart (s.callOutcome a) := by
  cases a with
  | tool env insert =>
    simp only [toolStep, step] at h
    split at h
    · next l hl =>
      cases LoopRule.of_loopStep h with
      | @toolCall call pending _ _ _ hphase =>
        have houtcome : s.callOutcome (.tool env insert) =
            some (l.callOutcome env (l.invocation call)) := by
          simp only [callOutcome, nextToolCall, hl, Option.bind_some, hphase, Option.map_some]
        rw [hl, houtcome]
        refine (Loop.errorRule_toolCall env call pending _ _ _).errorStep ?_
        intro hasks
        exact Loop.phase_toolCall call pending _ _ _ (phase_of_asks rfl hasks)
    · cases h
  | other a =>
    simp only [toolStep] at h
    split_ifs at h with ha
    exact errorStep_step (Bool.eq_false_of_not_eq_true ha) h

lemma System.asks_of_requests {s s' : System} {a : ToolAct} (h : s.toolStep a = some s')
    (ha : a.requests = true) : s.Asks ∧ s.loop.isSome = true := by
  cases a with
  | tool env insert => cases ha
  | other a =>
    cases a with
    | loop a =>
      cases a with
      | callLlm cwc dbFails stream insert =>
        replace h : s.step (.loop (.callLlm cwc dbFails stream insert)) = some s' := h
        simp only [step] at h
        split at h
        · next l hl =>
          cases LoopRule.of_loopStep h with
          | callLlm hphase => exact ⟨⟨l, hl, hphase⟩, by rw [hl]; rfl⟩
        · cases h
      | _ => cases ha
    | _ => cases ha

/-- The streaming loop as a system that counts its errors. -/
abbrev streamingErrors : ErrorSystem where
  State := System
  Action := ToolAct
  step := System.toolStep
  loop := System.loop
  starts := ToolAct.isStart
  outcome := System.callOutcome
  requests := ToolAct.requests
  asks := System.Asks
  errorStep := System.errorStep_toolStep
  asks_of_requests := System.asks_of_requests

/-! ### The loop without streaming -/

namespace Loop

variable {l : Loop} {t : Thread}

lemma errors_pushAssistant (b : Batch) (insert : Insert) :
    (l.pushAssistant t b insert).1.consecutive_errors = l.consecutive_errors := by
  simp only [pushAssistant]
  split_ifs
  · rfl
  · cases insert <;> rfl

/-- The loop and its batch after an item: it is done if there is no batch left. -/
def Settled (r : Loop × Thread × Option Batch) : Prop := r.2.2 = none → r.1.phase ≠ .call

/-- A call is counted by the outcome, unless the assistant message cannot be stored. -/
lemma errorRule_callItem (env : ToolEnv) (b : Batch) (id called : String) (arguments : Json)
    (d : ItemInput) :
    ErrorRule l (l.callItem t b id called d).1
      (if b.assistant_pushed = false ∧ d.push = .aborted then none
        else some (l.callOutcome env (l.itemInvocation called arguments))) ∧
    Settled (l.callItem t b id called d) := by
  obtain ⟨push, output, new_tool, insert⟩ := d
  have hsame := sameCalls_pushAssistant (l := l) (t := t) { b with has_tool_call := true } push
  have herrors := errors_pushAssistant (l := l) (t := t) { b with has_tool_call := true } push
  have hnone := pushAssistant_eq_none l t { b with has_tool_call := true } push
  simp only [callItem, itemInvocation]
  generalize l.pushAssistant t { b with has_tool_call := true } push = pushed
    at hsame herrors hnone ⊢
  obtain ⟨l', t', pushed⟩ := pushed
  replace hsame : l.SameCalls l' := hsame
  replace herrors : l'.consecutive_errors = l.consecutive_errors := herrors
  cases pushed with
  | none =>
    rw [if_pos (hnone.mp rfl)]
    exact ⟨.other herrors, fun _ => by rintro ⟨⟩⟩
  | some b' =>
    rw [if_neg (fun h => by cases hnone.mpr h)]
    have hchecks : l'.itemChecks called = l.itemChecks called := by
      simp only [itemChecks, hsame.cfg, hsame.counts, hsame.tools]
    simp only [hchecks]
    generalize l.itemChecks called = checks
    obtain ⟨result, counts⟩ := checks
    cases result with
    | error e =>
      refine ⟨.rejected ?_, by rintro ⟨⟩⟩
      show l'.consecutive_errors + 1 = _
      rw [herrors]
    | ok =>
      have hreset := errors_dispatch (l := l') (t := t') (fixupToolName called l'.cfg.specs)
        ⟨id, called, ""⟩ [] counts output new_tool insert
      cases insert with
      | aborted => exact ⟨.dispatched _ hreset, fun _ => by rintro ⟨⟩⟩
      | stored | failed => exact ⟨.dispatched _ hreset, by rintro ⟨⟩⟩

lemma errors_textItem (b : Batch) (text : String) (d : ItemInput) :
    (l.textItem t b text d).1.consecutive_errors = l.consecutive_errors ∧
      Settled (l.textItem t b text d) := by
  simp only [textItem]
  split
  · exact ⟨rfl, by rintro ⟨⟩⟩
  · exact ⟨rfl, fun _ => by rintro ⟨⟩⟩

lemma keepsErrors_finish (b : Batch) : KeepsErrors l (l.finish b) := by
  simp only [finish]
  split_ifs <;> exact keepsErrors_of_phase rfl (by rintro ⟨⟩)

lemma errors_complete (account : Option UsageDaily) (cwc : Option (List ChatMessage))
    (dbFails : Bool) (uuid : String) (result : Except LlmError CompletionResponse) :
    (l.complete account cwc dbFails uuid result).1.consecutive_errors = l.consecutive_errors ∧
      ((l.complete account cwc dbFails uuid result).2.2 = none →
        (l.complete account cwc dbFails uuid result).1.phase ≠ .call) := by
  simp only [complete]
  split
  · exact ⟨rfl, fun _ => by rintro ⟨⟩⟩
  · cases result with
    | error e => exact ⟨errors_preflight cwc, fun _ => by rintro ⟨⟩⟩
    | ok response => exact ⟨errors_preflight cwc, by rintro ⟨⟩⟩

end Loop

def SendToolAct.isStart : SendToolAct → Bool
  | .other a => a.isStart
  | _ => false

def SendToolAct.requests : SendToolAct → Bool
  | .other (.complete ..) => true
  | _ => false

/-- The loop is about to call its model. -/
def SendSystem.Asks (s : SendSystem) : Prop := s.batch = none ∧ s.sys.Asks

/-- A step that leaves no batch leaves a loop that does not call its model. -/
lemma SendSystem.not_asks_next {s : SendSystem} {r : Loop × Thread × Option Batch}
    (h : Loop.Settled r) : ¬ (s.next r).Asks := by
  rintro ⟨hbatch, hasks⟩
  exact h hbatch (System.phase_of_asks rfl hasks)

lemma isToolCall_of_isShared {a : Act} (h : a.isShared = true) : a.isToolCall = false := by
  cases a with
  | loop a =>
    cases a with
    | toolCall => cases h
    | _ => rfl
  | _ => rfl

lemma SendSystem.errorStep_item {s s' : SendSystem} {env : ToolEnv} {push insert : Loop.Insert}
    (h : s.toolStep (.item env push insert) = some s') :
    ErrorStep s.sys.loop s'.sys.loop s.Asks s'.Asks false
      (s.callOutcome (.item env push insert)) := by
  simp only [toolStep, step] at h
  split at h
  · next l b hl hb =>
    simp only [itemStep] at h
    split at h
    · cases h
    · next id called arguments items hitems =>
      obtain rfl := Option.some.inj h
      have houtcome : s.callOutcome (.item env push insert) =
          if b.assistant_pushed = false ∧ push = .aborted then none
          else some (l.callOutcome env (l.itemInvocation called arguments)) := by
        simp only [callOutcome, nextToolCall, hl, hb, hitems]
        split_ifs <;> rfl
      rw [houtcome, hl]
      obtain ⟨hrule, hsettled⟩ := Loop.errorRule_callItem (l := l) (t := s.sys.thread) env
        { b with items := items } id called arguments (s.itemInput env push insert)
      exact hrule.errorStep (not_asks_next hsettled)
    · next text items hitems =>
      obtain rfl := Option.some.inj h
      have houtcome : s.callOutcome (.item env push insert) = none := by
        simp only [callOutcome, nextToolCall, hl, hb, hitems, Option.map_none]
      rw [houtcome, hl]
      obtain ⟨herrors, hsettled⟩ := Loop.errors_textItem (l := l) (t := s.sys.thread)
        { b with items := items } text (s.itemInput env push insert)
      exact (ErrorRule.other herrors).errorStep (not_asks_next hsettled)
  · cases h

lemma SendSystem.errorStep_toolStep {s s' : SendSystem} {a : SendToolAct}
    (h : s.toolStep a = some s') :
    ErrorStep s.sys.loop s'.sys.loop s.Asks s'.Asks a.isStart (s.callOutcome a) := by
  cases a with
  | item env push insert => exact errorStep_item h
  | other a =>
    simp only [toolStep] at h
    split_ifs at h with hitem
    cases a with
    | shared a =>
      simp only [step] at h
      split_ifs at h with hshared
      obtain ⟨sys, hsys, rfl⟩ := Option.map_eq_some_iff.mp h
      obtain ⟨hrule, hasks⟩ := System.errorStep_step (isToolCall_of_isShared hshared) hsys
      refine ⟨hrule, ?_⟩
      rintro ⟨hbatch, hafter⟩
      rcases hasks hafter with ⟨hbefore, hsame⟩ | hfew
      · exact .inl ⟨⟨hbatch, hbefore⟩, hsame⟩
      · exact .inr hfew
    | complete cwc dbFails uuid result =>
      simp only [step] at h
      split at h
      · next l hl _ =>
        split at h
        · obtain rfl := Option.some.inj h
          rw [hl]
          obtain ⟨herrors, hsettled⟩ :=
            Loop.errors_complete (l := l) s.sys.account cwc dbFails uuid result
          refine (ErrorRule.other herrors).errorStep ?_
          rintro ⟨hbatch, hasks⟩
          exact hsettled hbatch (System.phase_of_asks rfl hasks)
        · cases h
      · cases h
    | item d => exact absurd rfl hitem
    | finish =>
      simp only [step] at h
      split at h
      · next l b hl _ =>
        split_ifs at h
        obtain rfl := Option.some.inj h
        rw [hl]
        apply (Loop.keepsErrors_finish b).errorStep
        rintro ⟨-, hasks⟩
        exact System.phase_of_asks rfl hasks
      · cases h

lemma SendSystem.asks_of_requests {s s' : SendSystem} {a : SendToolAct}
    (h : s.toolStep a = some s') (ha : a.requests = true) :
    s.Asks ∧ s.sys.loop.isSome = true := by
  cases a with
  | item env push insert => cases ha
  | other a =>
    cases a with
    | complete cwc dbFails uuid result =>
      replace h : s.step (.complete cwc dbFails uuid result) = some s' := h
      simp only [step] at h
      split at h
      · next l hl hbatch =>
        split at h
        · next hphase => exact ⟨⟨hbatch, l, hl, hphase⟩, by rw [hl]; rfl⟩
        · cases h
      · cases h
    | _ => cases ha

/-- The loop without streaming as a system that counts its errors. -/
abbrev sendMessageErrors : ErrorSystem where
  State := SendSystem
  Action := SendToolAct
  step := SendSystem.toolStep
  loop s := s.sys.loop
  starts := SendToolAct.isStart
  outcome := SendSystem.callOutcome
  requests := SendToolAct.requests
  asks := SendSystem.Asks
  errorStep := SendSystem.errorStep_toolStep
  asks_of_requests := SendSystem.asks_of_requests

/-! ### The stop -/

/-- In every run of either loop in which dispatched calls succeed, and none is dispatched after too
many errors, the model is not called any more after more than `maxConsecutiveErrors` tool calls in
a row have failed. -/
theorem noRequest_tooManyFailed {account account' : Option UsageDaily} {acts : List ToolAct}
    {sends : List SendToolAct} {s : System × List CallOutcome}
    {s' : SendSystem × List CallOutcome}
    (hsteady : Along streamingErrors.recordedStep streamingErrors.Steady (.init account, []) acts)
    (hsteady' : Along sendMessageErrors.recordedStep sendMessageErrors.Steady
      (.init account', []) sends)
    (h : exec streamingErrors.recordedStep (.init account, []) acts = some s)
    (h' : exec sendMessageErrors.recordedStep (.init account', []) sends = some s') :
    (∀ a t, a.requests = true → s.1.toolStep a = some t → ¬ TooManyFailed s.2) ∧
    (∀ a t, a.requests = true → s'.1.toolStep a = some t → ¬ TooManyFailed s'.2) := by
  constructor
  · intro a t ha ht
    exact streamingErrors.not_tooManyFailed rfl hsteady h ha ht
  · intro a t ha ht
    exact sendMessageErrors.not_tooManyFailed rfl hsteady' h' ha ht

/-! ### A tool that is called again and again -/

/-- Tools that are enabled, or not. -/
def sampleTools (enabled : Bool) : ToolEnv where
  input_schema _ := .obj []
  description _ := ""
  is_enabled _ := .ok enabled
  fixupArguments arguments _ := arguments
  translateArtifactIndices _ arguments _ := arguments
  validate _ _ := .ok ()
  correctArtifactIds _ arguments := arguments
  target_artifact_id := none
  best_artifact := none
  artifact_index := []
  invoke _ _ := .ok ⟨.obj [], []⟩
  toStringPretty _ := "\x7b\x7d"
  uuidText _ := ""

/-- The model calls the same tool in every response. -/
def repeatedStreamed (env : ToolEnv) (turns : ℕ) : List ToolAct :=
  [.other (.send "q"), .other (.start (fileInfoConfig false) ["file.info"] "" [] []),
    .other (.loop (.startCheck .within)), .other (.loop (.poll false))] ++
  (List.replicate turns
    [.other (.loop (.callLlm none false (oneToolCall "{}") .stored)), .tool env .stored,
      .other (.loop (.afterTools none false)), .other (.loop (.check false false)),
      .other (.loop (.poll false))]).flatten

def streamedRequest : ToolAct :=
  .other (.loop (.callLlm none false (oneToolCall "{}") .stored))

def completeRequest : SendToolAct :=
  .other (.complete none false "" (.ok
    { content := ""
      tool_calls := [⟨"c1", "file.info", .obj []⟩]
      finish_reason := .toolUse
      usage := none }))

def repeatedComplete (env : ToolEnv) (turns : ℕ) : List SendToolAct :=
  [.other (.shared (.send "q")),
    .other (.shared (.start (fileInfoConfig false) ["file.info"] "" [] [])),
    .other (.shared (.loop (.startCheck .within))), .other (.shared (.loop (.poll false)))] ++
  (List.replicate turns
    [completeRequest, .item env .stored .stored, .other .finish,
      .other (.shared (.loop (.afterTools none false))),
      .other (.shared (.loop (.check false false))),
      .other (.shared (.loop (.poll false)))]).flatten

theorem noRequest_tooManyFailed_enabled : ∃ s s',
    exec streamingErrors.recordedStep (.init none, []) (repeatedStreamed (sampleTools true) 4) =
      some s ∧
    exec sendMessageErrors.recordedStep (.init none, []) (repeatedComplete (sampleTools true) 4) =
      some s' ∧
    (∀ a t, a.requests = true → System.toolStep s.1 a = some t → ¬ TooManyFailed s.2) ∧
    (∀ a t, a.requests = true → SendSystem.toolStep s'.1 a = some t → ¬ TooManyFailed s'.2) := by
  obtain ⟨s, h⟩ : ∃ s, exec streamingErrors.recordedStep (.init none, [])
      (repeatedStreamed (sampleTools true) 4) = some s := ⟨_, rfl⟩
  obtain ⟨s', h'⟩ : ∃ s, exec sendMessageErrors.recordedStep (.init none, [])
      (repeatedComplete (sampleTools true) 4) = some s := ⟨_, rfl⟩
  exact ⟨s, s', h, h',
    noRequest_tooManyFailed (by decide +kernel) (by decide +kernel) h h'⟩

/-- Four calls of a disabled tool have failed, and either loop calls the model again, with its
tools. -/
theorem not_noRequest_disabled : (∃ s l t,
    exec streamingErrors.recordedStep (.init none, [])
      (repeatedStreamed (sampleTools false) 4) = some s ∧
    System.loop s.1 = some l ∧ l.tools = ["file.info"] ∧ streamedRequest.requests = true ∧
    System.toolStep s.1 streamedRequest = some t ∧ TooManyFailed s.2) ∧
    (∃ s l t,
    exec sendMessageErrors.recordedStep (.init none, [])
      (repeatedComplete (sampleTools false) 4) = some s ∧
    System.loop (SendSystem.sys s.1) = some l ∧ l.tools = ["file.info"] ∧
    completeRequest.requests = true ∧ SendSystem.toolStep s.1 completeRequest = some t ∧
    TooManyFailed s.2) := by
  constructor
  · refine ⟨_, _, _, rfl, rfl, rfl, rfl, rfl, ?_⟩
    simp only [TooManyFailed]
    decide +kernel
  · refine ⟨_, _, _, rfl, rfl, rfl, rfl, rfl, ?_⟩
    simp only [TooManyFailed]
    decide +kernel

end Arbeiterfarm.Agents
