import Arbeiterfarm.Agents.StreamingLoop
import Mathlib.Data.List.Count

/-!
# The persisted conversation

An assistant row records the tool calls of a response; the rows of their results follow one by
one. A call that fails a check is answered in the message list only, so the rows stay paired
along the runs in which every call is dispatched and its result is stored.
-/

namespace Arbeiterfarm.Agents

open Foundation Llm

/-! ### Pairing of rows -/

/-- The row is a result of the call. -/
def answersCall (id : String) (r : MessageRow) : Bool :=
  r.role = .tool && r.tool_call_id = some id

lemma answersCall_iff {id : String} {r : MessageRow} :
    answersCall id r = true ↔ r.role = .tool ∧ r.tool_call_id = some id := by
  simp [answersCall]

lemma answersCall_congr {id : String} {r q : MessageRow}
    (h : r.toNewMessage = q.toNewMessage) : answersCall id r = answersCall id q := by
  simp [answersCall, h]

lemma toolCalls_congr {r q : MessageRow} (h : r.toNewMessage = q.toNewMessage) :
    r.toolCalls = q.toolCalls := by
  simp [MessageRow.toolCalls, MessageRow.jsonField, h]

lemma role_of_mem_toolCalls {r : MessageRow} {tc : ToolCallInfo} (h : tc ∈ r.toolCalls) :
    r.role = .assistant := by
  simp only [MessageRow.toolCalls] at h
  split_ifs at h with hrole
  · exact hrole
  · cases h

/-- Every recorded call has exactly one result, but for the `pending` calls, which have none;
results come after their calls, and no call outlives its result. -/
structure Answered (t : Thread) (pending : List String) : Prop where
  nodup : pending.Nodup
  unanswered : ∀ id ∈ pending, t.rows.countP (answersCall id) = 0
  answered : ∀ a ∈ t.rows, ∀ tc ∈ a.toolCalls, tc.id ∉ pending →
    t.rows.countP (answersCall tc.id) = 1
  after : ∀ a ∈ t.rows, ∀ tc ∈ a.toolCalls, ∀ r ∈ t.rows, answersCall tc.id r = true →
    a.seq < r.seq
  marked : ∀ a ∈ t.rows, ∀ r ∈ t.rows, a.role = .assistant → r.role = .tool → a.seq < r.seq →
    r.compacted = true → a.compacted = true
  queued : ∀ r ∈ t.inflight, r.role = .user

/-- What the rows of a thread have to be, and what a reload makes of them. -/
structure WellPaired (t : Thread) : Prop where
  persisted : ∀ a ∈ t.rows, ∀ tc ∈ a.toolCalls, ∃! r, r ∈ t.rows ∧ answersCall tc.id r = true
  rebuilt : ∀ system_prompt pre m post,
    buildMessagesFromHistory system_prompt t.getThreadMessagesCompacted = pre ++ m :: post →
      m.role = .assistant → ∀ tc ∈ m.tool_calls,
        ∃ r ∈ post, r.role = .tool ∧ r.tool_call_id = some tc.id

namespace Answered

variable {t : Thread} {pending : List String}

lemma new : Answered .new [] where
  nodup := .nil
  unanswered := by simp
  answered _ h := by cases h
  after _ h := by cases h
  marked _ h := by cases h
  queued _ h := by cases h

/-! ### Inserts -/

lemma countP_insert (m : NewMessage) (id : String) :
    (t.insert m).rows.countP (answersCall id) =
      t.rows.countP (answersCall id) +
        if m.role = .tool ∧ m.tool_call_id = some id then 1 else 0 := by
  rw [Thread.rows_insert, List.countP_append, List.countP_singleton]
  exact congrArg _ (if_congr answersCall_iff rfl rfl)

lemma mem_insert {m : NewMessage} {r : MessageRow} :
    r ∈ (t.insert m).rows ↔ r ∈ t.rows ∨ r = t.newRow m := by simp

/-- A row that is no tool result; its calls, if any, are pending. -/
lemma insert (h : Answered t pending) {m : NewMessage} (hrole : m.role ≠ .tool)
    (hcalls : ∀ tc ∈ (t.newRow m).toolCalls, tc.id ∈ pending) : Answered (t.insert m) pending := by
  have hcount (id : String) : (t.insert m).rows.countP (answersCall id) =
      t.rows.countP (answersCall id) := by
    rw [countP_insert]
    simp [hrole]
  have hnew {r : MessageRow} (hr : r = t.newRow m) : r.role ≠ .tool := by rwa [hr]
  refine ⟨h.nodup, ?_, ?_, ?_, ?_, h.queued⟩
  · intro id hid
    rw [hcount]
    exact h.unanswered id hid
  · intro a ha tc htc hid
    rw [hcount]
    obtain ha | rfl := mem_insert.mp ha
    · exact h.answered a ha tc htc hid
    · exact absurd (hcalls tc htc) hid
  · intro a ha tc htc r hr hans
    obtain hr | hr := mem_insert.mp hr
    · obtain ha | rfl := mem_insert.mp ha
      · exact h.after a ha tc htc r hr hans
      · -- the new calls are pending, so no row answers them
        have := List.countP_eq_zero.mp (h.unanswered _ (hcalls tc htc)) r hr
        exact absurd hans this
    · exact absurd (answersCall_iff.mp hans).1 (hnew hr)
  · intro a ha r hr harole hrrole hlt hc
    obtain hr | hr := mem_insert.mp hr
    · obtain ha | rfl := mem_insert.mp ha
      · exact h.marked a ha r hr harole hrrole hlt hc
      · exact absurd hlt (Nat.not_lt_of_le (t.lt_nextSeq r (by simp [hr])).le)
    · exact absurd hrrole (hnew hr)

/-- The result of the first pending call. -/
lemma insert_result {id : String} (h : Answered t (id :: pending)) {m : NewMessage}
    (hrole : m.role = .tool) (hid : m.tool_call_id = some id) :
    Answered (t.insert m) pending := by
  obtain ⟨hfirst, hnodup⟩ := List.nodup_cons.mp h.nodup
  have hcount {id' : String} (hne : id' ≠ id) : (t.insert m).rows.countP (answersCall id') =
      t.rows.countP (answersCall id') := by
    rw [countP_insert]
    simp [hid, hne.symm]
  have hnocalls {a : MessageRow} (ha : a = t.newRow m) {tc : ToolCallInfo}
      (htc : tc ∈ a.toolCalls) : False := by
    have := role_of_mem_toolCalls htc
    rw [ha, Thread.newRow_toNewMessage, hrole] at this
    cases this
  refine ⟨hnodup, ?_, ?_, ?_, ?_, h.queued⟩
  · intro id' hid'
    rw [hcount fun heq => hfirst (heq ▸ hid')]
    exact h.unanswered id' (List.mem_cons_of_mem _ hid')
  · intro a ha tc htc hnot
    obtain ha | ha := mem_insert.mp ha
    · by_cases heq : tc.id = id
      · rw [countP_insert, heq, h.unanswered id List.mem_cons_self]
        simp [hrole, hid]
      · rw [hcount heq]
        exact h.answered a ha tc htc fun hmem => (List.mem_cons.mp hmem).elim heq hnot
    · exact (hnocalls ha htc).elim
  · intro a ha tc htc r hr hans
    obtain ha | ha := mem_insert.mp ha
    · obtain hr | rfl := mem_insert.mp hr
      · exact h.after a ha tc htc r hr hans
      · exact t.lt_nextSeq a (by simp [ha])
    · exact (hnocalls ha htc).elim
  · intro a ha r hr harole hrrole hlt hc
    obtain hr | rfl := mem_insert.mp hr
    · obtain ha | rfl := mem_insert.mp ha
      · exact h.marked a ha r hr harole hrrole hlt hc
      · rw [Thread.newRow_toNewMessage, hrole] at harole
        cases harole
    · cases hc

/-- The calls of a response become pending. -/
lemma open_calls (h : Answered t []) {ids : List String} (hnodup : ids.Nodup)
    (hfresh : ∀ id ∈ ids, t.rows.countP (answersCall id) = 0) : Answered t ids where
  nodup := hnodup
  unanswered := hfresh
  answered a ha tc htc _ := h.answered a ha tc htc List.not_mem_nil
  after := h.after
  marked := h.marked
  queued := h.queued

/-! ### Other steps of the thread -/

lemma begin (h : Answered t pending) {m : NewMessage} (hrole : m.role = .user) :
    Answered (t.begin m) pending where
  nodup := h.nodup
  unanswered := h.unanswered
  answered := h.answered
  after := h.after
  marked := h.marked
  queued r hr := by
    rw [Thread.inflight_begin, List.mem_append, List.mem_singleton] at hr
    obtain hr | rfl := hr
    · exact h.queued r hr
    · exact hrole

lemma bump (h : Answered t pending) : Answered t.bump pending :=
  ⟨h.nodup, h.unanswered, h.answered, h.after, h.marked, h.queued⟩

lemma commit (h : Answered t pending) {r : MessageRow} (hr : r ∈ t.inflight) :
    Answered (t.commit r hr) pending := by
  have huser := h.queued r hr
  have hcount (id : String) : (t.commit r hr).rows.countP (answersCall id) =
      t.rows.countP (answersCall id) := by
    refine ((List.perm_orderedInsert SeqLe r t.rows).countP_eq _).trans ?_
    simp [answersCall, huser]
  have hold {q : MessageRow} (hq : q ∈ (t.commit r hr).rows) (hrole : q.role ≠ .user) :
      q ∈ t.rows := by
    obtain rfl | hq := (Thread.mem_commit hr).mp hq
    · exact absurd huser hrole
    · exact hq
  have hcaller {a : MessageRow} (ha : a ∈ (t.commit r hr).rows) {tc : ToolCallInfo}
      (htc : tc ∈ a.toolCalls) : a ∈ t.rows :=
    hold ha (by simp [role_of_mem_toolCalls htc])
  refine ⟨h.nodup, ?_, ?_, ?_, ?_, ?_⟩
  · intro id hid
    rw [hcount]
    exact h.unanswered id hid
  · intro a ha tc htc hnot
    rw [hcount]
    exact h.answered a (hcaller ha htc) tc htc hnot
  · intro a ha tc htc q hq hans
    exact h.after a (hcaller ha htc) tc htc q
      (hold hq (by simp [(answersCall_iff.mp hans).1])) hans
  · intro a ha q hq harole hqrole
    exact h.marked a (hold ha (by simp [harole])) q (hold hq (by simp [hqrole])) harole hqrole
  · intro q hq
    exact h.queued q (Thread.mem_inflight_commit hr hq)

/-- A mark covers every call before a result that it covers. -/
lemma mark (h : Answered t pending) (n : ℕ) : Answered (t.markMessagesCompacted n) pending := by
  have hcount (id : String) : (t.markMessagesCompacted n).rows.countP (answersCall id) =
      t.rows.countP (answersCall id) := by
    rw [Thread.rows_mark, List.countP_map]
    apply List.countP_congr
    intro r _
    rw [Function.comp_apply, answersCall_congr (Thread.markRow_toNewMessage n r)]
  refine ⟨h.nodup, ?_, ?_, ?_, ?_, h.queued⟩
  · intro id hid
    rw [hcount]
    exact h.unanswered id hid
  · intro a ha tc htc hnot
    rw [hcount]
    obtain ⟨b, hb, rfl⟩ := List.mem_map.mp ha
    rw [toolCalls_congr (Thread.markRow_toNewMessage n b)] at htc
    exact h.answered b hb tc htc hnot
  · intro a ha tc htc r hr hans
    obtain ⟨b, hb, rfl⟩ := List.mem_map.mp ha
    obtain ⟨q, hq, rfl⟩ := List.mem_map.mp hr
    rw [toolCalls_congr (Thread.markRow_toNewMessage n b)] at htc
    rw [answersCall_congr (Thread.markRow_toNewMessage n q)] at hans
    simpa using h.after b hb tc htc q hq hans
  · intro a ha r hr harole hrrole hlt hc
    obtain ⟨b, hb, rfl⟩ := List.mem_map.mp ha
    obtain ⟨q, hq, rfl⟩ := List.mem_map.mp hr
    simp only [Thread.markRow_toNewMessage, Thread.markRow_seq] at harole hrrole hlt
    rw [Thread.markRow_compacted] at hc ⊢
    rcases hc with hc | ⟨hle, -⟩
    · exact .inl (h.marked b hb q hq harole hrrole hlt hc)
    · exact .inr ⟨hlt.le.trans hle, by simp [harole]⟩

lemma trimmed (h : Answered t pending) {history : List MessageRow} {t' : Thread}
    (htrim : Trimmed history t t') : Answered t' pending := by
  induction htrim with
  | refl => exact h
  | mark _ _ ih => exact ih.mark _
  | summary _ _ _ _ _ ih =>
    exact ih.insert (by simp [Thread.summaryMessage]) (by
      intro tc htc
      have := role_of_mem_toolCalls htc
      cases this)

/-! ### Reload -/

lemma existsUnique_result (h : Answered t []) {a : MessageRow} (ha : a ∈ t.rows)
    {tc : ToolCallInfo} (htc : tc ∈ a.toolCalls) :
    ∃! r, r ∈ t.rows ∧ answersCall tc.id r = true := by
  have hone := h.answered a ha tc htc List.not_mem_nil
  rw [List.countP_eq_length_filter, List.length_eq_one_iff] at hone
  obtain ⟨r, hr⟩ := hone
  have hmem (q : MessageRow) : q ∈ t.rows ∧ answersCall tc.id q = true ↔ q = r := by
    rw [← List.mem_filter, hr, List.mem_singleton]
  exact ⟨r, (hmem r).mpr rfl, fun q hq => (hmem q).mp hq⟩

/-- A call that is visible has a visible result, which is rendered after it. -/
lemma rebuilt (h : Answered t []) {system_prompt : String} {pre post : List ChatMessage}
    {m : ChatMessage}
    (hbuild : buildMessagesFromHistory system_prompt t.getThreadMessagesCompacted =
      pre ++ m :: post)
    (hrole : m.role = .assistant) {tc : ToolCallInfo} (htc : tc ∈ m.tool_calls) :
    ∃ r ∈ post, r.role = .tool ∧ r.tool_call_id = some tc.id := by
  cases pre with
  | nil =>
    obtain ⟨rfl, -⟩ := List.cons.inj hbuild
    cases hrole
  | cons head pre =>
    obtain ⟨-, hrows⟩ := List.cons.inj hbuild
    obtain ⟨before, rest, hsplit, -, hrest⟩ := List.filterMap_eq_append_iff.mp hrows
    obtain ⟨skipped, a, after, rfl, -, ham, hafter⟩ := List.filterMap_eq_cons_iff.mp hrest
    obtain ⟨-, hcalls⟩ := MessageRow.toMessage_assistant ham hrole
    rw [hcalls] at htc
    obtain ⟨ha, havisible⟩ := Thread.mem_getThreadMessagesCompacted.mp
      (show a ∈ t.getThreadMessagesCompacted by simp [hsplit])
    obtain ⟨r, ⟨hr, hans⟩, -⟩ := h.existsUnique_result ha htc
    have hlt := h.after a ha tc htc r hr hans
    obtain ⟨hrrole, hid⟩ := answersCall_iff.mp hans
    have hrvisible : r ∈ t.getThreadMessagesCompacted := by
      refine Thread.mem_getThreadMessagesCompacted.mpr ⟨hr, ?_⟩
      by_contra hc
      have := h.marked a ha r hr (role_of_mem_toolCalls htc) hrrole hlt (by simpa using hc)
      rw [havisible] at this
      cases this
    have hsorted := t.rows_lt.sublist (List.filter_sublist (p := fun r => !r.compacted))
    change t.getThreadMessagesCompacted.Pairwise _ at hsorted
    rw [hsplit, ← List.append_assoc] at hsorted hrvisible
    obtain hr' | hr' := List.mem_append.mp hrvisible
    · exact absurd ((List.pairwise_append.mp hsorted).2.2 r hr' a List.mem_cons_self)
        (Nat.not_lt_of_lt hlt)
    · obtain rfl | hr' := List.mem_cons.mp hr'
      · exact absurd hlt (lt_irrefl _)
      · obtain ⟨rm, hrm, hrmrole, hrmid⟩ := MessageRow.toMessage_tool hrrole
        refine ⟨rm, ?_, hrmrole, hrmid.trans hid⟩
        rw [← hafter]
        exact List.mem_filterMap.mpr ⟨r, hr', hrm⟩

lemma wellPaired (h : Answered t []) : WellPaired t where
  persisted _ ha _ htc := h.existsUnique_result ha htc
  rebuilt _ _ _ _ hbuild hrole _ htc := h.rebuilt hbuild hrole htc

end Answered

/-! ### Steps of the loop -/

/-- The calls of the response that have not been processed. -/
def Phase.pendingIds : Phase → List String
  | .calls head rest => (head :: rest).map (·.id)
  | _ => []

/-- The call that is processed next passes the checks. -/
def Loop.headPasses (l : Loop) : Bool :=
  match l.phase with
  | .calls call _ => (l.checks call).1.isOk
  | _ => true

/-- The calls of a response. -/
def CallResult.toolCalls : CallResult → List StreamedCall
  | .response c => c.tool_calls
  | _ => []

/-- The ids are distinct, and no row answers one of them. -/
def FreshIds (t : Thread) (ids : List String) : Prop :=
  ids.Nodup ∧ ∀ id ∈ ids, t.rows.countP (answersCall id) = 0

/-- The calls of a response have fresh ids; every call passes its checks, and its result is
stored. -/
def LoopDispatches (s : System) (l : Loop) : LoopAct → Prop
  | .callLlm _ dbFails stream _ =>
    FreshIds s.thread ((llmCall l.callConfig dbFails stream s.account).2.toolCalls.map (·.id))
  | .toolCall _ _ insert => l.headPasses = true ∧ insert = .stored
  | _ => True

def Dispatches (s : System) : Act → Prop
  | .loop a => ∀ l ∈ s.loop, LoopDispatches s l a
  | _ => True

namespace Loop

variable {t : Thread} {l : Loop}

lemma toolCalls_assistantRow (t : Thread) (l : Loop) (c : Collected) :
    (t.newRow (l.assistantRow c)).toolCalls = c.tool_calls.map l.toolCallInfo := by
  cases hcalls : c.tool_calls with
  | nil => simp [MessageRow.toolCalls, MessageRow.jsonField, assistantRow, hcalls]
  | cons call pending => exact toolCalls_eq rfl (by simp [assistantRow, hcalls])

lemma answered_onResponse (h : Answered t []) {c : Collected}
    (hfresh : FreshIds t (c.tool_calls.map (·.id))) (insert : Insert) :
    Answered (l.onResponse t c insert).2 (l.onResponse t c insert).1.phase.pendingIds := by
  have hrole : (l.assistantRow c).role ≠ .tool := by simp [assistantRow]
  have hids (tc : ToolCallInfo) (htc : tc ∈ (t.newRow (l.assistantRow c)).toolCalls) :
      tc.id ∈ c.tool_calls.map (·.id) := by
    rw [toolCalls_assistantRow] at htc
    obtain ⟨call, hcall, rfl⟩ := List.mem_map.mp htc
    exact List.mem_map_of_mem (f := (·.id)) hcall
  simp only [onResponse]
  split
  · rename_i call pending hcalls
    have hopen := h.open_calls hfresh.1 hfresh.2
    simp only [onToolCalls]
    cases insert with
    | stored => exact hcalls ▸ hopen.insert hrole hids
    | failed => exact hcalls ▸ hopen
    | aborted => exact h
  · rename_i hcalls
    rw [hcalls] at hids
    split_ifs
    · cases insert with
      | stored => exact h.insert hrole hids
      | _ => exact h
    · exact h
    · exact h

lemma answered_callLlm (h : Answered t []) (account : Option UsageDaily)
    (cwc : Option (List ChatMessage)) (dbFails : Bool) (s : Stream) (insert : Insert)
    (hfresh : FreshIds t ((llmCall l.callConfig dbFails s account).2.toolCalls.map (·.id))) :
    Answered (l.callLlm t account cwc dbFails s insert).2.1
      (l.callLlm t account cwc dbFails s insert).1.phase.pendingIds := by
  unfold callLlm
  simp only
  split
  · rename_i c hresult
    rw [hresult] at hfresh
    exact answered_onResponse h hfresh insert
  · exact h

lemma pendingIds_nextCall (pending : List StreamedCall) :
    (nextCall pending).pendingIds = pending.map (·.id) := by
  cases pending <;> rfl

lemma answered_toolCall {call : StreamedCall} {pending : List StreamedCall}
    (h : Answered t ((call :: pending).map (·.id))) (hpasses : (l.checks call).1.isOk = true)
    (output : String) (new_tool : Option String) :
    Answered (l.toolCall t call pending output new_tool .stored).2
      (l.toolCall t call pending output new_tool .stored).1.phase.pendingIds := by
  simp only [toolCall]
  split
  · rename_i error counts hchecks
    rw [hchecks] at hpasses
    cases hpasses
  · have hresult : Answered (t.insert (l.toolRow call.id (l.toolName call) output))
        (pending.map (·.id)) := h.insert_result rfl rfl
    rw [← pendingIds_nextCall] at hresult
    exact hresult

lemma answered_keep (h : Answered t []) {history : List MessageRow}
    {r : Thread × Option (List Held)} (htrim : Trimmed history t r.1) {phase : Phase}
    (hphase : phase.pendingIds = []) :
    Answered (l.keep phase r).2 (l.keep phase r).1.phase.pendingIds := by
  obtain ⟨t, _ | kept⟩ := r <;> exact hphase.symm ▸ h.trimmed htrim

lemma answered_compact (h : Answered t []) (history : List MessageRow) (d : TrimInput) :
    Answered (l.compact t history d).2 (l.compact t history d).1.phase.pendingIds :=
  answered_keep h (trimmed_legacyCompact history d) rfl

lemma answered_startCheck (h : Answered t []) (history : List MessageRow) (c : StartCheck) :
    Answered (l.startCheck t history c).2 (l.startCheck t history c).1.phase.pendingIds := by
  cases c with
  | legacy d => exact answered_compact h history d
  | _ => exact h

lemma pendingIds_afterPoll (l : Loop) : l.afterPoll.phase.pendingIds = [] := by
  unfold afterPoll
  simp only
  split_ifs <;> rfl

lemma pendingIds_poll (dbFails : Bool) : (l.poll t dbFails).phase.pendingIds = [] := by
  simp only [poll]
  split_ifs <;> exact pendingIds_afterPoll _

lemma pendingIds_afterTools (cwc : Option (List ChatMessage)) (dbFails : Bool) :
    (l.afterTools t cwc dbFails).phase.pendingIds = [] := by
  simp only [afterTools]
  split_ifs
  · cases cwc <;> rfl
  all_goals rfl

lemma pendingIds_check (shouldCompact dbFails : Bool) :
    (l.check t shouldCompact dbFails).phase.pendingIds = [] := by
  simp only [check]
  split_ifs <;> rfl

end Loop

/-! ### Runs -/

/-- The calls that are being processed. -/
def System.pendingIds (s : System) : List String :=
  match s.loop with
  | some l => l.phase.pendingIds
  | none => []

lemma System.pendingIds_of_idle {s : System} (h : s.idle = true) : s.pendingIds = [] := by
  simp only [System.idle] at h
  simp only [System.pendingIds]
  cases hloop : s.loop with
  | none => rfl
  | some l =>
    rw [hloop] at h
    simp only at h ⊢
    split at h
    · rename_i hphase
      rw [hphase]
      rfl
    · cases h

/-- A step of the loop that leaves the rows alone, between two responses. -/
lemma answered_next {s : System} (h : Answered s.thread []) {l : Loop}
    (hphase : l.phase.pendingIds = []) :
    Answered (s.next (l, s.thread)).thread (s.next (l, s.thread)).pendingIds := by
  change Answered s.thread l.phase.pendingIds
  rwa [hphase]

lemma answered_loopStep {s s' : System} {l : Loop} {a : LoopAct}
    (h : Answered s.thread l.phase.pendingIds) (hd : LoopDispatches s l a)
    (hstep : s.loopStep l a = some s') : Answered s'.thread s'.pendingIds := by
  cases System.LoopRule.of_loopStep hstep with
  | startCheck hphase =>
    rw [hphase] at h
    exact Loop.answered_startCheck h _ _
  | poll hphase =>
    rw [hphase] at h
    exact answered_next h (Loop.pendingIds_poll _)
  | callLlm hphase =>
    rw [hphase] at h
    exact Loop.answered_callLlm h _ _ _ _ _ hd
  | toolCall hphase =>
    rw [hphase] at h
    obtain ⟨hpasses, rfl⟩ := hd
    simp only [Loop.headPasses, hphase] at hpasses
    exact Loop.answered_toolCall h hpasses _ _
  | afterTools hphase =>
    rw [hphase] at h
    exact answered_next h (Loop.pendingIds_afterTools _ _)
  | trim hphase =>
    rw [hphase] at h
    exact Loop.answered_keep h ((Trimmed.refl _).slidingWindowTrim _ _ _ _ _ _) rfl
  | check hphase =>
    rw [hphase] at h
    exact answered_next h (Loop.pendingIds_check _ _)
  | compact hphase =>
    rw [hphase] at h
    exact Loop.answered_compact h _ _

lemma answered_step (s : System) (a : Act) (s' : System) (h : Answered s.thread s.pendingIds)
    (hd : Dispatches s a) (hstep : s.step a = some s') : Answered s'.thread s'.pendingIds := by
  cases a with
  | queueInsert content =>
    cases hstep
    exact h.begin rfl
  | queueCommit seq =>
    obtain ⟨t, ht, rfl⟩ := Option.map_eq_some_iff.mp hstep
    obtain ⟨r, hr, rfl⟩ := Thread.commitSeq_of_eq_some ht
    exact h.commit hr
  | otherThread =>
    cases hstep
    exact h.bump
  | send content =>
    simp only [System.step] at hstep
    split_ifs at hstep with hidle
    cases hstep
    exact h.insert (by simp [userMessage]) fun tc htc => by cases role_of_mem_toolCalls htc
  | start cfg tools hint memory memory_pairs =>
    simp only [System.step] at hstep
    split_ifs at hstep with hidle
    cases hstep
    rw [System.pendingIds_of_idle hidle] at h
    exact h
  | loop a =>
    simp only [System.step] at hstep
    cases hloop : s.loop with
    | none =>
      rw [hloop] at hstep
      cases hstep
    | some l =>
      rw [hloop] at hstep
      simp only [System.pendingIds] at h
      rw [hloop] at h
      exact answered_loopStep h (hd l hloop) hstep

/-- In every run in which every tool call is dispatched and its result stored, the rows are well
paired whenever no response is being processed. -/
theorem wellPaired_of_exec (account : Option UsageDaily) (acts : List Act) (s : System)
    (hrun : exec System.step (System.init account) acts = some s)
    (hdispatches : Along System.step Dispatches (System.init account) acts)
    (hpending : s.pendingIds = []) : WellPaired s.thread := by
  have h := exec_invariant (I := fun s => Answered s.thread s.pendingIds) answered_step
    Answered.new hdispatches hrun
  simp only [hpending] at h
  exact h.wellPaired

/-! ### A call with malformed arguments -/

instance (t : Thread) (ids : List String) : Decidable (FreshIds t ids) :=
  inferInstanceAs (Decidable (_ ∧ _))

instance (s : System) (l : Loop) : DecidablePred (LoopDispatches s l)
  | .callLlm _ dbFails stream _ => inferInstanceAs (Decidable (FreshIds s.thread
      ((llmCall l.callConfig dbFails stream s.account).2.toolCalls.map (·.id))))
  | .toolCall _ _ insert => inferInstanceAs (Decidable (l.headPasses = true ∧ insert = .stored))
  | .startCheck _ | .poll _ | .afterTools _ _ | .trim _ | .check _ _ | .compact _ =>
    isTrue trivial

instance (s : System) : DecidablePred (Dispatches s)
  | .loop a => inferInstanceAs (Decidable (∀ l ∈ s.loop, LoopDispatches s l a))
  | .queueInsert _ | .queueCommit _ | .otherThread | .send _ | .start _ _ _ _ _ => isTrue trivial

/-- One tool call, and a final answer. -/
def oneTurn (args : String) : List Act :=
  [.send "q1", .start (fileInfoConfig false) ["file.info"] "" [] [], .loop (.startCheck .within),
    .loop (.poll false), .loop (.callLlm none false (oneToolCall args) .stored),
    .loop (.toolCall "ok" none .stored), .loop (.afterTools none false), .loop (.check false false),
    .loop (.poll false),
    .loop (.callLlm none false { chunks := [.ok (.token "done"), .ok (.done .stop)] } .stored)]

theorem wellPaired_oneTurn :
    ∃ s, exec System.step (System.init none) (oneTurn "{}") = some s ∧
      s.thread.rows.map (·.role) = [.user, .assistant, .tool, .assistant] ∧
      WellPaired s.thread := by
  obtain ⟨s, hrun, hroles, hpending⟩ : ∃ s, exec System.step (System.init none) (oneTurn "{}") =
      some s ∧ s.thread.rows.map (·.role) = [.user, .assistant, .tool, .assistant] ∧
      s.pendingIds = [] := ⟨_, rfl, by decide +kernel, by decide +kernel⟩
  exact ⟨s, hrun, hroles, wellPaired_of_exec none _ s hrun (by decide +kernel) hpending⟩

lemma WellPaired.exists_result {t : Thread} (h : WellPaired t) :
    ∀ a ∈ t.rows, ∀ tc ∈ a.toolCalls, ∃ r ∈ t.rows, answersCall tc.id r = true :=
  fun a ha tc htc => (h.persisted a ha tc htc).exists

/-- The arguments are cut off: the error is shown to the model, but no row answers the call. -/
theorem not_wellPaired_oneTurn :
    ∃ s, exec System.step (System.init none) (oneTurn "\x7b") = some s ∧ s.pendingIds = [] ∧
      s.thread.rows.map (·.role) = [.user, .assistant, .assistant] ∧ ¬ WellPaired s.thread := by
  refine ⟨_, rfl, by decide +kernel, by decide +kernel, fun h => absurd h.exists_result ?_⟩
  decide +kernel

end Arbeiterfarm.Agents
