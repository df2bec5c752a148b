import Arbeiterfarm.Llm.Assembly

/-!
# Tool calls of OpenAI-compatible servers, streamed and complete

An entry of a stream belongs to the latest call with its index. Arguments that are missing or do
not parse are an empty object in a complete response, and no call at all in a stream.
-/

namespace Arbeiterfarm.Llm

/-! ### Streams of calls -/

/-- A call of a response; the id and the arguments may be missing. -/
structure OpenAiCall where
  id : Option String
  name : String
  arguments : Option String

/-- A call that has started in a stream: the index of its entries, and the text of its arguments
so far. -/
structure OpenAiProgress where
  index : ℕ
  call : OpenAiCall
  text : String

def OpenAiProgress.push (text : String) (p : OpenAiProgress) : OpenAiProgress :=
  { p with text := p.text ++ text }

/-- The entries of a stream: the first one of a call has its id and name, the others continue the
arguments of the latest call with their index. The fragments of the calls come in any order. -/
inductive OpenAiStream : List OpenAiProgress → List Json → Prop
  | nil : OpenAiStream [] []
  | start {acc entries} (c : OpenAiCall) (tc function : Json) (h : OpenAiStream acc entries)
    (hid : tc.strField "id" = c.id) (hfunction : tc.get "function" = some function)
    (hname : function.strField "name" = some c.name) :
    OpenAiStream
      (acc ++ [⟨(tc.u64Field "index").getD 0, c, (function.strField "arguments").getD ""⟩])
      (entries ++ [tc])
  | fragment {acc entries} (i : ℕ) (p : OpenAiProgress) (tc function : Json)
    (h : OpenAiStream acc entries) (hi : acc[i]? = some p)
    (hlatest : ∀ (j : ℕ) (q : OpenAiProgress), i < j → acc[j]? = some q → q.index ≠ p.index)
    (hindex : (tc.u64Field "index").getD 0 = p.index)
    (hfunction : tc.get "function" = some function) (hname : function.strField "name" = none) :
    OpenAiStream (acc.modify i (.push ((function.strField "arguments").getD ""))) (entries ++ [tc])

/-- The tool call entries of an event. -/
def toolCallEntries (event : Json) : List Json :=
  match (event.get "choices").bind (·.index 0) with
  | some choice =>
    ((((choice.get "delta").getD choice).get "tool_calls").bind Json.asArray).getD []
  | none => []

section OpenAi

variable (name_map : NameMap)

lemma onToolCallEntries_append (active : List (ℕ × String)) (as bs : List Json) :
    onToolCallEntries name_map active (as ++ bs) =
      ((onToolCallEntries name_map active as).1 ++
        (onToolCallEntries name_map (onToolCallEntries name_map active as).2 bs).1,
        (onToolCallEntries name_map (onToolCallEntries name_map active as).2 bs).2) := by
  induction as generalizing active with
  | nil => rfl
  | cons a as ih => simp [onToolCallEntries, ih]

/-- The call that a stream collects. -/
def OpenAiProgress.streamed (p : OpenAiProgress) : StreamedCall :=
  ⟨p.call.id.getD "", unsanitizeToolName p.call.name name_map, p.text⟩

lemma deltaChunk_eq {active : List (ℕ × String)} {index : ℕ} {id : String}
    (h : active.lookup index = some id) (function : Json) :
    deltaChunk active index function =
      if (function.strField "arguments").getD "" = "" then []
      else [.toolCallDelta id ((function.strField "arguments").getD "")] := by
  simp only [deltaChunk]
  cases function.strField "arguments" with
  | none => rfl
  | some text => simp only [h, Option.getD_some]

lemma onToolCallEntry_start (active : List (ℕ × String)) {c : OpenAiCall} {tc function : Json}
    (hid : tc.strField "id" = c.id) (hfunction : tc.get "function" = some function)
    (hname : function.strField "name" = some c.name) :
    onToolCallEntry name_map active tc =
      (.toolCallStart (c.id.getD "") (unsanitizeToolName c.name name_map) ::
        (if (function.strField "arguments").getD "" = "" then []
          else [.toolCallDelta (c.id.getD "") ((function.strField "arguments").getD "")]),
        ((tc.u64Field "index").getD 0, c.id.getD "") :: active) := by
  simp only [onToolCallEntry, hfunction, hid, startChunk, hname, Option.isSome_some, if_true]
  rw [deltaChunk_eq List.lookup_cons_self]
  rfl

lemma onToolCallEntry_fragment {active : List (ℕ × String)} {id : String} {tc function : Json}
    (h : active.lookup ((tc.u64Field "index").getD 0) = some id)
    (hfunction : tc.get "function" = some function) (hname : function.strField "name" = none) :
    onToolCallEntry name_map active tc =
      (if (function.strField "arguments").getD "" = "" then []
        else [.toolCallDelta id ((function.strField "arguments").getD "")], active) := by
  simp only [onToolCallEntry, hfunction, startChunk, hname, Option.isSome_none,
    Bool.false_eq_true, if_false]
  rw [deltaChunk_eq h]
  rfl

/-- The latest call with an index is known by the index. -/
def ActiveFor (acc : List OpenAiProgress) (active : List (ℕ × String)) : Prop :=
  ∀ (i : ℕ) (p : OpenAiProgress), acc[i]? = some p →
    (∀ (j : ℕ) (q : OpenAiProgress), i < j → acc[j]? = some q → q.index ≠ p.index) →
    active.lookup p.index = some (p.call.id.getD "")

lemma ActiveFor.start {acc : List OpenAiProgress} {active : List (ℕ × String)}
    (h : ActiveFor acc active) (p : OpenAiProgress) :
    ActiveFor (acc ++ [p]) ((p.index, p.call.id.getD "") :: active) := by
  intro i q hi hlatest
  by_cases hlast : i = acc.length
  · rw [hlast, List.getElem?_concat_length] at hi
    obtain rfl := Option.some.inj hi
    exact List.lookup_cons_self
  · have hi' : i < acc.length := by
      have := (List.getElem?_eq_some_iff.mp hi).1
      rw [List.length_append, List.length_singleton] at this
      omega
    have hne : (q.index == p.index) = false := by
      have := hlatest acc.length p hi' List.getElem?_concat_length
      simpa using Ne.symm this
    rw [List.lookup_cons, hne]
    apply h i q
    · rwa [List.getElem?_append_left hi'] at hi
    · intro j r hij hj
      apply hlatest j r hij
      rwa [List.getElem?_append_left (List.getElem?_eq_some_iff.mp hj).1]

lemma ActiveFor.push {acc : List OpenAiProgress} {active : List (ℕ × String)}
    (h : ActiveFor acc active) (i : ℕ) (text : String) :
    ActiveFor (acc.modify i (.push text)) active := by
  have hsame (j : ℕ) (q : OpenAiProgress) (hq : (acc.modify i (.push text))[j]? = some q) :
      ∃ p, acc[j]? = some p ∧ p.index = q.index ∧ p.call = q.call := by
    rw [List.getElem?_modify] at hq
    obtain ⟨p, hp, rfl⟩ := Option.map_eq_some_iff.mp hq
    refine ⟨p, hp, ?_, ?_⟩ <;> split_ifs <;> rfl
  intro j q hj hlatest
  obtain ⟨p, hp, hindex, hcall⟩ := hsame j q hj
  rw [← hindex, ← hcall]
  apply h j p hp
  intro k r hjk hk
  have hpushed : (acc.modify i (.push text))[k]? =
      some (if i = k then r.push text else r) := by
    rw [List.getElem?_modify, hk]
    rfl
  have := hlatest k _ hjk hpushed
  rw [hindex]
  split_ifs at this <;> exact this

/-- The entries of a stream emit chunks that carry its calls. -/
lemma OpenAiStream.streams {acc : List OpenAiProgress} {entries : List Json}
    (h : OpenAiStream acc entries) :
    Streams (acc.map (·.streamed name_map)) (onToolCallEntries name_map [] entries).1 ∧
      ActiveFor acc (onToolCallEntries name_map [] entries).2 := by
  induction h with
  | nil =>
    refine ⟨.nil, ?_⟩
    intro i p hi
    simp at hi
  | start c tc function h hid hfunction hname ih =>
    rw [List.map_append, List.map_singleton, onToolCallEntries_append]
    simp only [onToolCallEntries, List.append_nil, onToolCallEntry_start _ _ hid hfunction hname]
    constructor
    · exact ih.1.startFragment _ _ _
    · exact ih.2.start _
  | fragment i p tc function h hi hlatest hindex hfunction hname ih =>
    have hid := ih.2 i p hi hlatest
    rw [← hindex] at hid
    rw [onToolCallEntries_append]
    simp only [onToolCallEntries, List.append_nil, onToolCallEntry_fragment _ hid hfunction hname]
    constructor
    · have hpush (q : OpenAiProgress) (text : String) :
          (q.push text).streamed name_map = (q.streamed name_map).pushArgs text := rfl
      rw [map_modify (hpush · _)]
      exact ih.1.fragment i (p.streamed name_map) (by simp [hi]) _
    · exact ih.2.push i _

/-- The content of a response is text and reasoning only. -/
lemma filter_classifyThinkContent (in_think : Bool) (content : List Char) :
    (classifyThinkContent in_think content).1.filter isCallChunk = [] := by
  fun_induction classifyThinkContent in_think content with
  | case1 => rfl
  | case2 _ _ _ _ _ _ ih =>
    rw [List.filter_append, filter_textChunk _ fun _ => rfl, ih]
    rfl
  | case3 => exact filter_textChunk _ (fun _ => rfl) _
  | case4 _ _ _ _ _ _ _ _ ih =>
    rw [List.filter_append, filter_textChunk _ fun _ => rfl, ih]
    rfl
  | case5 => exact filter_textChunk _ (fun _ => rfl) _

lemma filter_onToolCallEntries (active : List (ℕ × String)) (entries : List Json) :
    (onToolCallEntries name_map active entries).1.filter isCallChunk =
      (onToolCallEntries name_map active entries).1 := by
  induction entries generalizing active with
  | nil => rfl
  | cons tc entries ih =>
    have hstart (function : Json) : (startChunk name_map tc function).filter isCallChunk =
        startChunk name_map tc function := by
      simp only [startChunk]
      split <;> rfl
    have hdelta (active : List (ℕ × String)) (index : ℕ) (function : Json) :
        (deltaChunk active index function).filter isCallChunk =
          deltaChunk active index function := by
      simp only [deltaChunk]
      repeat' split
      all_goals rfl
    have hentry : (onToolCallEntry name_map active tc).1.filter isCallChunk =
        (onToolCallEntry name_map active tc).1 := by
      simp only [onToolCallEntry]
      split
      · rw [List.filter_append, hstart, hdelta]
      · rfl
    simp only [onToolCallEntries]
    rw [List.filter_append, hentry, ih]

/-- An event emits the chunks of its tool call entries, among others. -/
lemma parseSseEvent_calls (s : OpenAiState) (event : Json) :
    (parseSseEvent name_map s event).1.filter isCallChunk =
        (onToolCallEntries name_map s.active_tool_calls (toolCallEntries event)).1 ∧
      (parseSseEvent name_map s event).2.active_tool_calls =
        (onToolCallEntries name_map s.active_tool_calls (toolCallEntries event)).2 := by
  cases hchoice : (event.get "choices").bind (·.index 0) with
  | none =>
    simp only [parseSseEvent, toolCallEntries, hchoice]
    split <;> exact ⟨rfl, rfl⟩
  | some choice =>
    have hdone : (doneChunk choice).filter isCallChunk = [] := by
      simp only [doneChunk]
      split <;> rfl
    have husage : (usageChunk event).filter isCallChunk = [] := by
      simp only [usageChunk]
      repeat' split
      all_goals rfl
    simp only [parseSseEvent, toolCallEntries, hchoice]
    refine ⟨?_, trivial⟩
    simp only [List.filter_append, filter_classifyThinkContent, hdone, husage,
      filter_textChunk StreamChunk.reasoning fun _ => rfl, filter_onToolCallEntries,
      List.nil_append, List.append_nil]

lemma runEvents_calls (s : OpenAiState) (events : List Json) :
    (runEvents (parseSseEvent name_map) s events).filter isCallChunk =
      (onToolCallEntries name_map s.active_tool_calls (events.flatMap toolCallEntries)).1 := by
  induction events generalizing s with
  | nil => rfl
  | cons event events ih =>
    rw [runEvents, List.filter_append, ih, List.flatMap_cons, onToolCallEntries_append,
      (parseSseEvent_calls name_map s event).1, (parseSseEvent_calls name_map s event).2]

/-! ### Complete responses -/

/-- The calls of a complete response. -/
def messageCalls (resp : Json) : List Json :=
  (((((resp.get "choices").bind (·.index 0)).bind (·.get "message")).bind
    (·.get "tool_calls")).bind Json.asArray).getD []

/-- A call as a complete response has it. -/
def OpenAiCall.In (c : OpenAiCall) (tc : Json) : Prop :=
  tc.strField "id" = c.id ∧ ∃ function, tc.get "function" = some function ∧
    function.strField "name" = some c.name ∧ function.strField "arguments" = c.arguments

variable (parseJson : String → Option Json)

/-- The call that a complete response decodes to. -/
def OpenAiCall.decoded (c : OpenAiCall) : ToolCallResponse where
  id := c.id.getD ""
  name := unsanitizeToolName c.name name_map
  arguments := (parseJson (c.arguments.getD "\x7b\x7d")).getD emptyObject

lemma parseToolCall_eq {c : OpenAiCall} {tc : Json} (h : c.In tc) :
    parseToolCall parseJson name_map tc = c.decoded name_map parseJson := by
  obtain ⟨hid, function, hfunction, hname, harguments⟩ := h
  simp only [parseToolCall, hfunction, hid, hname, harguments, Option.getD_some,
    OpenAiCall.decoded]

lemma map_parseToolCall {calls : List OpenAiCall} {tcs : List Json}
    (h : List.Forall₂ OpenAiCall.In calls tcs) :
    tcs.map (parseToolCall parseJson name_map) = calls.map (·.decoded name_map parseJson) := by
  induction h with
  | nil => rfl
  | cons hcall _ ih => rw [List.map_cons, List.map_cons, parseToolCall_eq _ _ hcall, ih]

lemma parseResponse_tool_calls {resp : Json} {r : CompletionResponse}
    (h : parseResponse parseJson name_map resp = .ok r) :
    r.tool_calls = (messageCalls resp).map (parseToolCall parseJson name_map) := by
  simp only [parseResponse] at h
  split at h
  · cases h
  · next choice hchoice =>
    split at h
    · cases h
    · next message hmessage =>
      obtain rfl := Except.ok.inj h
      simp only [messageCalls, hchoice, hmessage, Option.bind_some]

variable {name_map parseJson}

/-- A streamed call and the same call in a complete response are equal exactly when there are
arguments that parse. -/
lemma decodeCall_streamed_iff (hempty : parseJson "" = none) {p : OpenAiProgress}
    (htext : p.text = p.call.arguments.getD "") :
    decodeCall parseJson (p.streamed name_map) = some (p.call.decoded name_map parseJson) ↔
      ∃ text, p.call.arguments = some text ∧ (parseJson text).isSome := by
  simp only [decodeCall, OpenAiProgress.streamed, htext, OpenAiCall.decoded]
  cases p.call.arguments with
  | none => simp [hempty]
  | some text => cases htext : parseJson text <;> simp [htext]

/-- A response, streamed and complete, with the same calls. -/
structure OpenAiExchange (name_map : NameMap) (parseJson : String → Option Json) where
  calls : List OpenAiProgress
  events : List Json
  resp : Json
  response : CompletionResponse
  stream : OpenAiStream calls (events.flatMap toolCallEntries)
  /-- The fragments of a call make up its arguments. -/
  texts : ∀ p ∈ calls, p.text = p.call.arguments.getD ""
  complete : List.Forall₂ OpenAiCall.In (calls.map (·.call)) (messageCalls resp)
  decoded : parseResponse parseJson name_map resp = .ok response

/-- The calls of the stream are those of the complete response. -/
def OpenAiExchange.SameCalls (x : OpenAiExchange name_map parseJson) : Prop :=
  streamedCalls parseJson (runEvents (parseSseEvent name_map) {} x.events) =
    x.response.tool_calls.map some

/-- No two calls share an id, and every call has arguments that parse. -/
def OpenAiExchange.Distinguished (x : OpenAiExchange name_map parseJson) : Prop :=
  (x.calls.map (·.call.id.getD "")).Nodup ∧
    ∀ p ∈ x.calls, ∃ text, p.call.arguments = some text ∧ (parseJson text).isSome

theorem OpenAiExchange.sameCalls_iff (hempty : parseJson "" = none)
    (x : OpenAiExchange name_map parseJson) : x.SameCalls ↔ x.Distinguished := by
  have hchunks := runEvents_calls name_map {} x.events
  have hstreams := (x.stream.streams name_map).1
  rw [← hchunks] at hstreams
  rw [SameCalls, streamedCalls_eq_iff hempty hstreams,
    parseResponse_tool_calls name_map parseJson x.decoded,
    map_parseToolCall name_map parseJson x.complete]
  simp only [List.map_map]
  refine and_congr Iff.rfl ?_
  rw [List.map_inj_left]
  refine forall₂_congr ?_
  intro p hp
  exact decodeCall_streamed_iff hempty (x.texts p hp)

end OpenAi

end Arbeiterfarm.Llm
