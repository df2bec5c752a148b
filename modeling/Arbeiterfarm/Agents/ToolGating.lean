import Arbeiterfarm.Agents.ToolDispatch

/-!
# Tool gating

In every run of either loop, whatever the model sends, a dispatched tool has passed the checks
under its repaired name: the configuration allows it, it is native if the model is local, the
user may use it, and it has not been dispatched too often.
-/

namespace Arbeiterfarm.Agents

open Foundation Llm

namespace Loop

variable {l : Loop} {t : Thread}

/-! ### Steps without tool calls -/

/-- The configuration and the counters are as before. -/
structure SameCalls (l l' : Loop) : Prop where
  cfg : l'.cfg = l.cfg
  counts : l'.per_tool_counts = l.per_tool_counts
  count : l'.tool_call_count = l.tool_call_count
  tools : l'.tools = l.tools

lemma SameCalls.rule {l' : Loop} (h : SameCalls l l') : CallRule l l' none :=
  .other h.cfg h.counts h.count

lemma SameCalls.trans {l' l'' : Loop} (h : SameCalls l l') (h' : SameCalls l' l'') :
    SameCalls l l'' where
  cfg := h'.cfg.trans h.cfg
  counts := h'.counts.trans h.counts
  count := h'.count.trans h.count
  tools := h'.tools.trans h.tools

lemma sameCalls_keep (phase : Phase) (r : Thread × Option (List Held)) :
    SameCalls l (l.keep phase r).1 := by
  obtain ⟨t, kept⟩ := r
  cases kept <;> exact ⟨rfl, rfl, rfl, rfl⟩

lemma sameCalls_startCheck (history : List MessageRow) (c : StartCheck) :
    SameCalls l (l.startCheck t history c).1 := by
  cases c with
  | within => exact ⟨rfl, rfl, rfl, rfl⟩
  | cwc msgs => exact ⟨rfl, rfl, rfl, rfl⟩
  | legacy d => exact sameCalls_keep .poll _

lemma sameCalls_poll (dbFails : Bool) : SameCalls l (l.poll t dbFails) := by
  cases dbFails <;> exact ⟨rfl, rfl, rfl, rfl⟩

lemma sameCalls_preflight (cwc : Option (List ChatMessage)) : SameCalls l (l.preflight cwc) := by
  simp only [preflight]
  split_ifs
  · cases cwc <;> exact ⟨rfl, rfl, rfl, rfl⟩
  · exact ⟨rfl, rfl, rfl, rfl⟩
  · exact ⟨rfl, rfl, rfl, rfl⟩

lemma sameCalls_onResponse (c : Collected) (insert : Insert) :
    SameCalls l (l.onResponse t c insert).1 := by
  simp only [onResponse]
  split
  · cases insert <;> exact ⟨rfl, rfl, rfl, rfl⟩
  · split_ifs <;> exact ⟨rfl, rfl, rfl, rfl⟩

lemma sameCalls_callLlm (account : Option UsageDaily) (cwc : Option (List ChatMessage))
    (dbFails : Bool) (s : Llm.Stream) (insert : Insert) :
    SameCalls l (l.callLlm t account cwc dbFails s insert).1 := by
  simp only [callLlm]
  split
  · exact (sameCalls_preflight cwc).trans (sameCalls_onResponse _ insert)
  · exact ⟨rfl, rfl, rfl, rfl⟩

lemma sameCalls_afterTools (cwc : Option (List ChatMessage)) (dbFails : Bool) :
    SameCalls l (l.afterTools t cwc dbFails) := by
  have hreinforce (goal : String) : SameCalls l (l.reinforce goal) := by
    simp only [reinforce]
    split_ifs <;> exact ⟨rfl, rfl, rfl, rfl⟩
  simp only [afterTools]
  split_ifs
  · cases cwc with
    | some msgs => exact ⟨rfl, rfl, rfl, rfl⟩
    | none => exact (hreinforce "").trans ⟨rfl, rfl, rfl, rfl⟩
  · exact ⟨rfl, rfl, rfl, rfl⟩
  · exact (hreinforce l.goalReminder).trans ⟨rfl, rfl, rfl, rfl⟩
  · exact (hreinforce "").trans ⟨rfl, rfl, rfl, rfl⟩

lemma sameCalls_check (shouldCompact dbFails : Bool) :
    SameCalls l (l.check t shouldCompact dbFails) := by
  simp only [check]
  split_ifs <;> exact ⟨rfl, rfl, rfl, rfl⟩

/-! ### Tool calls -/

/-- A call that is answered by an error is counted. -/
lemma rule_reject {counts : ToolCounts} (name : String) (call : StreamedCall)
    (pending : List StreamedCall) (error : String)
    (hcounts : counts = l.per_tool_counts ∨ counts = l.per_tool_counts.bump name) :
    CallRule l (l.reject name call pending counts error) none :=
  .rejected name rfl hcounts rfl

lemma discover_eq (l : Loop) (new_tool : Option String) :
    (l.discover new_tool).cfg = l.cfg ∧
    (l.discover new_tool).per_tool_counts = l.per_tool_counts ∧
    (l.discover new_tool).tool_call_count = l.tool_call_count := by
  cases new_tool with
  | none => exact ⟨rfl, rfl, rfl⟩
  | some name =>
    simp only [discover]
    split_ifs <;> exact ⟨rfl, rfl, rfl⟩

/-- A dispatch is counted under its name, whether the result can be stored or not. -/
lemma dispatch_eq (name : String) (call : StreamedCall) (pending : List StreamedCall)
    (counts : ToolCounts) (output : String) (new_tool : Option String) (insert : Insert) :
    (l.dispatch t name call pending counts output new_tool insert).1.cfg = l.cfg ∧
    (l.dispatch t name call pending counts output new_tool insert).1.per_tool_counts = counts ∧
    (l.dispatch t name call pending counts output new_tool insert).1.tool_call_count =
      l.tool_call_count + 1 := by
  have hdiscover := discover_eq { l with
    tool_call_count := l.tool_call_count + 1
    per_tool_counts := counts
    consecutive_errors := 0 } new_tool
  cases insert <;> exact hdiscover

/-- The dispatch of a streamed call, if it passes the checks. -/
def dispatchOf (l : Loop) (call : StreamedCall) : Option Dispatch :=
  match (l.checks call).1 with
  | .ok _ => some ⟨call.name, l.toolName call, l.tools⟩
  | .error _ => none

lemma rule_toolCall (call : StreamedCall) (pending : List StreamedCall) (output : String)
    (new_tool : Option String) (insert : Insert) :
    CallRule l (l.toolCall t call pending output new_tool insert).1 (l.dispatchOf call) := by
  have hcounts := checkGates_counts l.cfg l.tools l.per_tool_counts (l.toolName call)
  have hok (counts : ToolCounts)
      (h : checkGates l.cfg l.tools l.per_tool_counts (l.toolName call) = (.ok (), counts)) :=
    checkGates_ok h
  simp only [toolCall, dispatchOf, checks, checkCall_eq]
  generalize checkGates l.cfg l.tools l.per_tool_counts (l.toolName call) = gates at hcounts hok ⊢
  obtain ⟨result, counts⟩ := gates
  cases result with
  | error e => exact rule_reject _ _ _ _ hcounts
  | ok =>
    obtain ⟨hgates, hbump, hbudget⟩ := hok counts rfl
    cases l.cfg.parseJson call.args with
    | error e => exact rule_reject _ _ _ _ hcounts
    | ok arguments =>
      obtain ⟨hcfg, hcounts', hcount⟩ :=
        dispatch_eq (l := l) (t := t) (l.toolName call) call pending counts output new_tool insert
      exact .dispatched call.name _ rfl hgates hbudget hcfg (hcounts'.trans hbump) hcount

end Loop

/-! ### The streaming loop -/

/-- The tool that a step of the streaming loop dispatches. -/
def System.dispatched (s : System) : Act → Option Dispatch
  | .loop (.toolCall ..) => s.loop.bind fun l =>
    match l.phase with
    | .calls call _ => l.dispatchOf call
    | _ => none
  | _ => none

def Act.isStart : Act → Bool
  | .start .. => true
  | _ => false

lemma System.rule_of_loopStep {s s' : System} {l : Loop} {a : LoopAct}
    (hl : s.loop = some l) (h : s.loopStep l a = some s') :
    RunRule (some l) s'.loop false (s.dispatched (.loop a)) := by
  cases System.LoopRule.of_loopStep h with
  | startCheck => exact .call (Loop.sameCalls_startCheck _ _).rule
  | poll => exact .call (Loop.sameCalls_poll _).rule
  | callLlm => exact .call (Loop.sameCalls_callLlm _ _ _ _ _).rule
  | toolCall hphase =>
    simp only [dispatched, hl, Option.bind_some, hphase]
    exact .call (Loop.rule_toolCall _ _ _ _ _)
  | afterTools => exact .call (Loop.sameCalls_afterTools _ _).rule
  | trim => exact .call (Loop.sameCalls_keep .check _).rule
  | check => exact .call (Loop.sameCalls_check _ _).rule
  | compact => exact .call (Loop.sameCalls_keep .poll _).rule

lemma System.rule_of_step {s s' : System} {a : Act} (h : s.step a = some s') :
    RunRule s.loop s'.loop a.isStart (s.dispatched a) := by
  cases a with
  | queueInsert content =>
    cases h
    exact .idle _
  | queueCommit seq =>
    obtain ⟨t, -, rfl⟩ := Option.map_eq_some_iff.mp h
    exact .idle _
  | otherThread =>
    cases h
    exact .idle _
  | send content =>
    simp only [step] at h
    split_ifs at h
    cases h
    exact .idle _
  | start cfg tools hint memory memory_pairs =>
    simp only [step] at h
    split_ifs at h
    cases h
    exact .start _ rfl rfl
  | loop a =>
    simp only [step] at h
    split at h
    · next l hl =>
      have hrule := rule_of_loopStep hl h
      rwa [hl]
    · cases h

/-- The streaming loop as a system that calls tools. -/
abbrev streamingSystem : CallingSystem where
  State := System
  Action := Act
  step := System.step
  loop := System.loop
  starts := Act.isStart
  dispatched := System.dispatched
  rule_of_step := System.rule_of_step

/-! ### The loop without streaming -/

namespace Loop

variable {l : Loop} {t : Thread}

lemma sameCalls_complete (account : Option UsageDaily) (cwc : Option (List ChatMessage))
    (dbFails : Bool) (uuid : String) (result : Except LlmError CompletionResponse) :
    SameCalls l (l.complete account cwc dbFails uuid result).1 := by
  simp only [complete]
  split
  · exact ⟨rfl, rfl, rfl, rfl⟩
  · cases result with
    | error e => exact (sameCalls_preflight cwc).trans ⟨rfl, rfl, rfl, rfl⟩
    | ok response => exact sameCalls_preflight cwc

lemma sameCalls_pushAssistant (b : Batch) (insert : Insert) :
    SameCalls l (l.pushAssistant t b insert).1 := by
  simp only [pushAssistant]
  split_ifs
  · exact ⟨rfl, rfl, rfl, rfl⟩
  · cases insert <;> exact ⟨rfl, rfl, rfl, rfl⟩

/-- The dispatch of a tool call of a batch, unless the assistant message cannot be stored. -/
def dispatchItem (l : Loop) (b : Batch) (called : String) (d : ItemInput) : Option Dispatch :=
  if b.assistant_pushed = false ∧ d.push = .aborted then none
  else
    match (l.itemChecks called).1 with
    | .ok _ => some ⟨called, fixupToolName called l.cfg.specs, l.tools⟩
    | .error _ => none

lemma pushAssistant_eq_none (l : Loop) (t : Thread) (b : Batch) (insert : Insert) :
    (l.pushAssistant t b insert).2.2 = none ↔ b.assistant_pushed = false ∧ insert = .aborted := by
  simp only [pushAssistant]
  cases b.assistant_pushed <;> cases insert <;> simp

lemma rule_callItem (b : Batch) (id called : String) (d : ItemInput) :
    CallRule l (l.callItem t b id called d).1 (l.dispatchItem b called d) := by
  obtain ⟨push, output, new_tool, insert⟩ := d
  have hsame := sameCalls_pushAssistant (l := l) (t := t) { b with has_tool_call := true } push
  have hnone := pushAssistant_eq_none l t { b with has_tool_call := true } push
  simp only [callItem, dispatchItem]
  generalize l.pushAssistant t { b with has_tool_call := true } push = pushed at hsame hnone ⊢
  obtain ⟨l', t', pushed⟩ := pushed
  replace hsame : l.SameCalls l' := hsame
  cases pushed with
  | none =>
    rw [if_pos (hnone.mp rfl)]
    refine .rejected called hsame.cfg (.inl hsame.counts) ?_
    show l'.tool_call_count + 1 = _
    rw [hsame.count]
  | some b' =>
    rw [if_neg (fun h => by cases hnone.mpr h)]
    have hcounts := checkGates_counts l.cfg l.tools l.per_tool_counts
      (fixupToolName called l.cfg.specs)
    simp only [itemChecks, hsame.cfg, hsame.counts, hsame.tools]
    rcases hgates : checkGates l.cfg l.tools l.per_tool_counts (fixupToolName called l.cfg.specs)
      with ⟨result, counts⟩
    rw [hgates] at hcounts
    cases result with
    | error e =>
      refine .rejected (fixupToolName called l.cfg.specs) hsame.cfg hcounts ?_
      show l'.tool_call_count + 1 = _
      rw [hsame.count]
    | ok =>
      obtain ⟨hpasses, hbump, hbudget⟩ := checkGates_ok hgates
      obtain ⟨hcfg, hcounts', hcount⟩ := dispatch_eq (l := l') (t := t')
        (fixupToolName called l.cfg.specs) ⟨id, called, ""⟩ [] counts output new_tool insert
      rw [hsame.count] at hcount
      have hdispatched (l'' : Loop) (hcfg'' : l''.cfg = l.cfg)
          (hcounts'' : l''.per_tool_counts = counts)
          (hcount'' : l''.tool_call_count = l.tool_call_count + 1) :=
        CallRule.dispatched called _ rfl hpasses hbudget hcfg'' (hcounts''.trans hbump) hcount''
      cases insert with
      | aborted | stored | failed => exact hdispatched _ (hcfg.trans hsame.cfg) hcounts' hcount

lemma sameCalls_textItem (b : Batch) (text : String) (d : ItemInput) :
    SameCalls l (l.textItem t b text d).1 := by
  simp only [textItem]
  split <;> exact ⟨rfl, rfl, rfl, rfl⟩

lemma sameCalls_finish (b : Batch) : SameCalls l (l.finish b) := by
  simp only [finish]
  split_ifs <;> exact ⟨rfl, rfl, rfl, rfl⟩

end Loop

/-- The tool that a step of the loop dispatches. -/
def SendSystem.dispatched (s : SendSystem) : SendAct → Option Dispatch
  | .item d =>
    match s.sys.loop, s.batch with
    | some l, some b =>
      match b.items with
      | .toolCall _ called _ :: _ => l.dispatchItem b called d
      | _ => none
    | _, _ => none
  | _ => none

def SendAct.isStart : SendAct → Bool
  | .shared a => a.isStart
  | _ => false

/-- A shared step dispatches nothing. -/
lemma System.dispatched_of_isShared {s : System} {a : Act} (h : a.isShared = true) :
    s.dispatched a = none := by
  cases a with
  | loop a =>
    cases a with
    | toolCall => cases h
    | _ => rfl
  | _ => rfl

lemma SendSystem.rule_of_step {s s' : SendSystem} {a : SendAct} (h : s.step a = some s') :
    RunRule s.sys.loop s'.sys.loop a.isStart (s.dispatched a) := by
  cases a with
  | shared a =>
    simp only [step] at h
    split_ifs at h with hshared
    obtain ⟨sys, hsys, rfl⟩ := Option.map_eq_some_iff.mp h
    have hrule := System.rule_of_step hsys
    rwa [System.dispatched_of_isShared hshared] at hrule
  | complete cwc dbFails uuid result =>
    simp only [step] at h
    split at h
    · next l hl _ =>
      split at h
      · obtain rfl := Option.some.inj h
        rw [hl]
        exact .call (Loop.sameCalls_complete _ _ _ _ _).rule
      · cases h
    · cases h
  | item d =>
    simp only [step] at h
    split at h
    · next l b hl hb =>
      simp only [dispatched, hl, hb]
      simp only [itemStep] at h
      split at h
      · cases h
      · next id called arguments items hitems =>
        obtain rfl := Option.some.inj h
        rw [hitems]
        exact .call (Loop.rule_callItem { b with items := items } id called d)
      · next text items hitems =>
        obtain rfl := Option.some.inj h
        rw [hitems]
        exact .call (Loop.sameCalls_textItem _ _ _).rule
    · cases h
  | finish =>
    simp only [step] at h
    split at h
    · next l b hl _ =>
      split_ifs at h
      obtain rfl := Option.some.inj h
      rw [hl]
      exact .call (Loop.sameCalls_finish b).rule
    · cases h

/-- The loop without streaming as a system that calls tools. -/
abbrev sendMessageSystem : CallingSystem where
  State := SendSystem
  Action := SendAct
  step := SendSystem.step
  loop s := s.sys.loop
  starts := SendAct.isStart
  dispatched := SendSystem.dispatched
  rule_of_step := SendSystem.rule_of_step

/-! ### Gating -/

/-- The dispatches of a run under their repaired names: what reaches the invoker is allowed by
the configuration; a local model has only called its native tools; a restricted tool is granted
to the user; and no tool has been dispatched more often than its specification allows. -/
structure Gated (l : Loop) (history : List Dispatch) : Prop where
  fixedUp : ∀ d ∈ history, d.name = fixupToolName d.called l.cfg.specs
  configured : ∀ d ∈ history, d.invoked = true →
    isToolAllowedByConfig d.name l.cfg.allowed_tools = true
  native : ∀ d ∈ history, l.cfg.is_local = true → d.name ∈ d.native
  granted : ∀ d ∈ history, ∀ uid restricted grants,
    l.cfg.restriction_cache = loadRestrictions (some uid) restricted grants →
    (restricted.any fun pattern => patternMatches pattern d.name) = true →
    ((grants uid).any fun pattern => patternMatches pattern d.name) = true
  counted : ∀ name, ∀ spec ∈ l.cfg.specs.getLatest name,
    dispatchCount history name ≤ spec.max_calls_per_run

lemma Recorded.gated {l : Loop} {history : List Dispatch} (h : Recorded l history) :
    Gated l history where
  fixedUp := h.fixedUp
  configured d hd hinvoked := by
    have hallowed := (h.gates d hd).allowed
    rw [Dispatch.invoked, decide_eq_true_eq] at hinvoked
    simpa [LoopConfig.allows, hinvoked] using hallowed
  native d hd := (h.gates d hd).native
  granted d hd uid restricted grants hcache hrestricted := by
    have hgranted := (h.gates d hd).granted
    rw [hcache] at hgranted
    exact granted_of_isAllowed hgranted hrestricted
  counted := h.budget

/-- In every run of either loop, every dispatch of the current run is gated. -/
theorem dispatches_gated {account account' : Option UsageDaily} {acts : List Act}
    {sends : List SendAct} {s : System × List Dispatch} {s' : SendSystem × List Dispatch}
    (h : exec streamingSystem.recordedStep (.init account, []) acts = some s)
    (h' : exec sendMessageSystem.recordedStep (.init account', []) sends = some s') :
    (∀ l ∈ s.1.loop, Gated l s.2) ∧ (∀ l ∈ s'.1.sys.loop, Gated l s'.2) := by
  constructor
  · intro l hl
    exact (streamingSystem.recorded rfl h l hl).gated
  · intro l hl
    exact (sendMessageSystem.recorded rfl h' l hl).gated

/-! ### A tool that is discovered -/

/-- A local model whose only native tool is discovery. -/
def localConfig : LoopConfig where
  specs := [⟨"file.info", 1⟩, ⟨"tools.discover", 5⟩]
  allowed_tools := ["file.*"]
  restriction_cache := loadRestrictions (some 3) ["web.*"] fun _ => []
  is_local := true
  system_prompt := "p"
  max_output := 4096
  parseJson _ := .ok (.obj [])

def startLocal : Act := .start localConfig ["tools.discover"] "" [] []

/-- It calls discovery by the last segment of its name, and then the tool that it discovered
once too often. -/
def discoverStreamed : List Act :=
  [.send "q", startLocal, .loop (.startCheck .within), .loop (.poll false),
    .loop (.callLlm none false
      { chunks := [.ok (.toolCallStart "c1" "discover"), .ok (.toolCallStart "c2" "file.info"),
          .ok (.toolCallStart "c3" "file.info")] } .stored),
    .loop (.toolCall "## file.info" (some "file.info") .stored),
    .loop (.toolCall "ok" none .stored), .loop (.toolCall "ok" none .stored)]

/-- The same response, complete. -/
def discoverComplete : List SendAct :=
  [.shared (.send "q"), .shared startLocal, .shared (.loop (.startCheck .within)),
    .shared (.loop (.poll false)),
    .complete none false "" (.ok
      { content := ""
        tool_calls := [⟨"c1", "discover", .obj []⟩, ⟨"c2", "file.info", .obj []⟩,
          ⟨"c3", "file.info", .obj []⟩]
        finish_reason := .toolUse
        usage := none }),
    .item { output := "## file.info", new_tool := some "file.info" }, .item {}, .item {}]

def discovered : List Dispatch :=
  [⟨"discover", "tools.discover", ["tools.discover"]⟩,
    ⟨"file.info", "file.info", ["tools.discover", "file.info"]⟩]

lemma exec_discoverStreamed : ∃ s : System × List Dispatch,
    exec streamingSystem.recordedStep (.init none, []) discoverStreamed = some s ∧
      s.2 = discovered :=
  ⟨_, rfl, by decide +kernel⟩

lemma exec_discoverComplete : ∃ s : SendSystem × List Dispatch,
    exec sendMessageSystem.recordedStep (.init none, []) discoverComplete = some s ∧
      s.2 = discovered :=
  ⟨_, rfl, by decide +kernel⟩

theorem dispatches_gated_discover : ∃ s s',
    exec streamingSystem.recordedStep (.init none, []) discoverStreamed = some s ∧
    exec sendMessageSystem.recordedStep (.init none, []) discoverComplete = some s' ∧
    s.2 = discovered ∧ s'.2 = discovered ∧
    (∀ l ∈ System.loop s.1, Gated l s.2) ∧
      (∀ l ∈ System.loop (SendSystem.sys s'.1), Gated l s'.2) := by
  obtain ⟨s, h, hs⟩ := exec_discoverStreamed
  obtain ⟨s', h', hs'⟩ := exec_discoverComplete
  exact ⟨s, s', h, h', hs, hs', dispatches_gated h h'⟩

/-- No call reaches another tool than the one that its name means. -/
theorem dispatches_meant {account account' : Option UsageDaily} {acts : List Act}
    {sends : List SendAct} {s : System × List Dispatch} {s' : SendSystem × List Dispatch}
    (h : exec streamingSystem.recordedStep (.init account, []) acts = some s)
    (h' : exec sendMessageSystem.recordedStep (.init account', []) sends = some s') :
    (∀ l ∈ s.1.loop, ∀ d ∈ s.2, Meant l.cfg.specs d.called d.name) ∧
      (∀ l ∈ s'.1.sys.loop, ∀ d ∈ s'.2, Meant l.cfg.specs d.called d.name) := by
  constructor
  · intro l hl d hd
    rw [(streamingSystem.recorded rfl h l hl).fixedUp d hd]
    apply meant_fixupToolName
  · intro l hl d hd
    rw [(sendMessageSystem.recorded rfl h' l hl).fixedUp d hd]
    apply meant_fixupToolName

theorem dispatches_meant_discover : ∃ s s',
    exec streamingSystem.recordedStep (.init none, []) discoverStreamed = some s ∧
    exec sendMessageSystem.recordedStep (.init none, []) discoverComplete = some s' ∧
    s.2 = discovered ∧ s'.2 = discovered ∧
    (∀ l ∈ System.loop s.1, ∀ d ∈ s.2, Meant l.cfg.specs d.called d.name) ∧
      (∀ l ∈ System.loop (SendSystem.sys s'.1), ∀ d ∈ s'.2,
        Meant l.cfg.specs d.called d.name) := by
  obtain ⟨s, h, hs⟩ := exec_discoverStreamed
  obtain ⟨s', h', hs'⟩ := exec_discoverComplete
  exact ⟨s, s', h, h', hs, hs', dispatches_meant h h'⟩

end Arbeiterfarm.Agents
