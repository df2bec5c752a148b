import Arbeiterfarm.Llm.AnthropicStream
import Arbeiterfarm.Llm.Assembly

/-!
# Tool calls of the Anthropic API, streamed and complete

The fragments of an input follow the block that they belong to. A call without arguments has no
fragments, or empty ones; in a stream nothing is called then, while the complete response has an
empty object.
-/

namespace Arbeiterfarm.Llm

/-! ### Streams of calls -/

/-- A `tool_use` block. -/
structure AnthropicCall where
  id : Option String
  name : Option String
  input : Option Json

/-- A call that has started in a stream, with the text of its input so far. -/
structure AnthropicProgress where
  call : AnthropicCall
  text : String

def AnthropicProgress.push (text : String) (p : AnthropicProgress) : AnthropicProgress :=
  { p with text := p.text ++ text }

/-- The block that an event starts. -/
def startedBlock (event : Json) : Option Json :=
  if event.strField "type" = some "content_block_start" then event.get "content_block" else none

/-- The delta of an event. -/
def blockDelta (event : Json) : Option Json :=
  if event.strField "type" = some "content_block_delta" then event.get "delta" else none

/-- The events of a stream: a call starts with its block, and the fragments of its input come
before the next call starts; the other events have nothing to do with calls. -/
inductive AnthropicStream : List AnthropicProgress → List Json → Prop
  | nil : AnthropicStream [] []
  | start {acc events} (c : AnthropicCall) (event block : Json) (h : AnthropicStream acc events)
    (hblock : startedBlock event = some block) (htype : block.strField "type" = some "tool_use")
    (hid : block.strField "id" = c.id) (hname : block.strField "name" = c.name) :
    AnthropicStream (acc ++ [⟨c, ""⟩]) (events ++ [event])
  | fragment {acc events p} (event delta : Json) (h : AnthropicStream (acc ++ [p]) events)
    (hdelta : blockDelta event = some delta)
    (htype : delta.strField "type" = some "input_json_delta") :
    AnthropicStream (acc ++ [p.push ((delta.strField "partial_json").getD "")])
      (events ++ [event])
  | other {acc events} (event : Json) (h : AnthropicStream acc events)
    (hblock : ∀ block, startedBlock event = some block → block.strField "type" ≠ some "tool_use")
    (hdelta : ∀ delta, blockDelta event = some delta →
      delta.strField "type" ≠ some "input_json_delta") :
    AnthropicStream acc (events ++ [event])

section Anthropic

variable (name_map : NameMap)

/-- The call that a stream collects. -/
def AnthropicProgress.streamed (p : AnthropicProgress) : StreamedCall :=
  ⟨p.call.id.getD "", unsanitizeToolName (p.call.name.getD "") name_map, p.text⟩

lemma strField_eq_of_getD {v : Json} {key s : String} (hs : s ≠ "") :
    (v.strField key).getD "" = s ↔ v.strField key = some s := by
  cases v.strField key with
  | none => simpa using Ne.symm hs
  | some t => simp

lemma onAnthropicEvent_start {event block : Json} (hblock : startedBlock event = some block)
    (htype : block.strField "type" = some "tool_use") (id : String) :
    onAnthropicEvent name_map id event =
      ([.toolCallStart ((block.strField "id").getD "") (toolUseName name_map block)],
        (block.strField "id").getD "") := by
  simp only [startedBlock] at hblock
  split_ifs at hblock with hevent
  simp only [onAnthropicEvent, hevent, onContentBlockStart, hblock, htype, Option.getD_some,
    if_true]

lemma onAnthropicEvent_fragment {event delta : Json} (hdelta : blockDelta event = some delta)
    (htype : delta.strField "type" = some "input_json_delta") (id : String) :
    onAnthropicEvent name_map id event =
      (if (delta.strField "partial_json").getD "" = "" then []
        else [.toolCallDelta id ((delta.strField "partial_json").getD "")], id) := by
  simp only [blockDelta] at hdelta
  split_ifs at hdelta with hevent
  simp only [onAnthropicEvent, hevent, onContentBlockDelta, hdelta, htype, Option.getD_some]
  simp

/-- The other events emit no chunk of a call and leave the latest id. -/
lemma onAnthropicEvent_other {event : Json}
    (hblock : ∀ block, startedBlock event = some block → block.strField "type" ≠ some "tool_use")
    (hdelta : ∀ delta, blockDelta event = some delta →
      delta.strField "type" ≠ some "input_json_delta") (id : String) :
    (onAnthropicEvent name_map id event).1.filter isCallChunk = [] ∧
      (onAnthropicEvent name_map id event).2 = id := by
  simp only [onAnthropicEvent, strField_eq_of_getD (s := "content_block_start") (by decide),
    strField_eq_of_getD (s := "content_block_delta") (by decide)]
  split_ifs with hstart hcont hmessage hmstart
  · simp only [startedBlock, hstart, if_true] at hblock
    simp only [onContentBlockStart]
    split
    · next block hget =>
      rw [if_neg]
      · exact ⟨rfl, rfl⟩
      · rw [strField_eq_of_getD (by decide)]
        exact hblock block hget
    · exact ⟨rfl, rfl⟩
  · simp only [blockDelta, hcont, if_true] at hdelta
    refine ⟨?_, rfl⟩
    simp only [onContentBlockDelta]
    split
    · next delta hget =>
      simp only [strField_eq_of_getD (s := "input_json_delta") (by decide),
        if_neg (hdelta delta hget)]
      split_ifs
      · exact filter_textChunk _ (fun _ => rfl) _
      · rfl
    · rfl
  · refine ⟨?_, rfl⟩
    simp only [onMessageDelta]
    repeat' split
    all_goals rfl
  · refine ⟨?_, rfl⟩
    simp only [onMessageStart]
    repeat' split
    all_goals rfl
  · exact ⟨rfl, rfl⟩

/-- The events of a stream emit chunks that carry its calls, and the reader keeps the id of the
latest one. -/
lemma AnthropicStream.streams {acc : List AnthropicProgress} {events : List Json}
    (h : AnthropicStream acc events) :
    Streams (acc.map (·.streamed name_map))
        ((runEvents (onAnthropicEvent name_map) "" events).filter isCallChunk) ∧
      ∀ p ∈ acc.getLast?,
        stateAfter (onAnthropicEvent name_map) "" events = p.call.id.getD "" := by
  induction h with
  | nil => exact ⟨.nil, by simp⟩
  | start c event block h hblock htype hid hname ih =>
    rw [List.map_append, List.map_singleton, runEvents_concat, List.filter_append,
      onAnthropicEvent_start name_map hblock htype, toolUseName, hid, hname]
    constructor
    · exact ih.1.start _ _
    · intro p hp
      rw [List.getLast?_concat, Option.mem_some] at hp
      simp [stateAfter, onAnthropicEvent_start name_map hblock htype, hid, ← hp]
  | @fragment acc events p event delta h hdelta htype ih =>
    have hid := ih.2 p (by simp)
    rw [runEvents_concat, List.filter_append, onAnthropicEvent_fragment name_map hdelta htype, hid]
    constructor
    · have hfrag := ih.1.fragment acc.length (p.streamed name_map) (by simp)
        ((delta.strField "partial_json").getD "")
      have hmodify := modify_length_append (acc.map (·.streamed name_map)) (p.streamed name_map)
        (.pushArgs ((delta.strField "partial_json").getD ""))
      rw [List.length_map] at hmodify
      rw [List.map_append, List.map_singleton, hmodify] at hfrag
      have hcall (text : String) :
          (if text = "" then [] else [.toolCallDelta (p.call.id.getD "") text]).filter isCallChunk =
            if text = "" then [] else [.toolCallDelta (p.call.id.getD "") text] := by
        split_ifs <;> rfl
      rw [List.map_append, List.map_singleton, hcall]
      exact hfrag
    · intro q hq
      rw [List.getLast?_concat, Option.mem_some] at hq
      simp only [stateAfter, List.foldl_append, List.foldl_cons, List.foldl_nil,
        onAnthropicEvent_fragment name_map hdelta htype]
      rw [← hq]
      exact hid
  | @other acc events event h hblock hdelta ih =>
    have hevent := onAnthropicEvent_other name_map hblock hdelta
    rw [runEvents_concat, List.filter_append, (hevent _).1, List.append_nil]
    refine ⟨ih.1, ?_⟩
    intro p hp
    rw [← ih.2 p hp]
    simp [stateAfter, (hevent _).2]

/-! ### Complete responses -/

/-- The `tool_use` blocks of a complete response. -/
def toolUseBlocks (resp : Json) : List Json :=
  (((resp.get "content").bind Json.asArray).getD []).filter
    fun block => block.strField "type" = some "tool_use"

/-- A call as a complete response has it. -/
def AnthropicCall.In (c : AnthropicCall) (block : Json) : Prop :=
  block.strField "id" = c.id ∧ block.strField "name" = c.name ∧ block.get "input" = c.input

/-- The arguments of a call. -/
def AnthropicCall.arguments (c : AnthropicCall) : Json := c.input.getD emptyObject

/-- The call that a complete response decodes to. -/
def AnthropicCall.decoded (c : AnthropicCall) : ToolCallResponse where
  id := c.id.getD ""
  name := unsanitizeToolName (c.name.getD "") name_map
  arguments := c.arguments

lemma filterMap_blockToolCall {calls : List AnthropicCall} {blocks : List Json}
    (h : List.Forall₂ AnthropicCall.In calls
      (blocks.filter fun block => block.strField "type" = some "tool_use")) :
    blocks.filterMap (blockToolCall name_map) = calls.map (·.decoded name_map) := by
  induction blocks generalizing calls with
  | nil =>
    cases h
    rfl
  | cons block blocks ih =>
    by_cases htype : block.strField "type" = some "tool_use"
    · rw [List.filter_cons_of_pos (by simpa using htype)] at h
      cases h with
      | cons hcall hrest =>
        obtain ⟨hid, hname, hinput⟩ := hcall
        rw [List.filterMap_cons_some (b := _) (by rw [blockToolCall, if_pos htype]), ih hrest,
          toolUseName, hid, hname, hinput]
        rfl
    · rw [List.filter_cons_of_neg (by simpa using htype)] at h
      rw [List.filterMap_cons_none (by rw [blockToolCall, if_neg htype]), ih h]

lemma parseAnthropicResponse_tool_calls {resp : Json} {r : CompletionResponse}
    (h : parseAnthropicResponse name_map resp = .ok r) {calls : List AnthropicCall}
    (hcalls : List.Forall₂ AnthropicCall.In calls (toolUseBlocks resp)) :
    r.tool_calls = calls.map (·.decoded name_map) := by
  simp only [parseAnthropicResponse] at h
  split at h
  · cases h
  · next blocks hblocks =>
    obtain rfl := Except.ok.inj h
    rw [toolUseBlocks, hblocks] at hcalls
    exact filterMap_blockToolCall name_map hcalls

/-! ### Both decoders -/

/-- A response, streamed and complete, with the same calls. -/
structure AnthropicExchange (parseJson : String → Option Json) where
  calls : List AnthropicProgress
  events : List Json
  resp : Json
  response : CompletionResponse
  stream : AnthropicStream calls events
  /-- The text of a call's input is JSON text of it; an empty object may also have no text. -/
  texts : ∀ p ∈ calls, parseJson p.text = some p.call.arguments ∨
    p.text = "" ∧ p.call.arguments = emptyObject
  complete : List.Forall₂ AnthropicCall.In (calls.map (·.call)) (toolUseBlocks resp)
  decoded : parseAnthropicResponse name_map resp = .ok response

variable {name_map} {parseJson : String → Option Json}

/-- The calls of the stream are those of the complete response. -/
def AnthropicExchange.SameCalls (x : AnthropicExchange name_map parseJson) : Prop :=
  streamedCalls parseJson (runEvents (onAnthropicEvent name_map) "" x.events) =
    x.response.tool_calls.map some

/-- No two calls share an id, and every call has some text for its input. -/
def AnthropicExchange.Distinguished (x : AnthropicExchange name_map parseJson) : Prop :=
  (x.calls.map (·.call.id.getD "")).Nodup ∧ ∀ p ∈ x.calls, p.text ≠ ""

theorem AnthropicExchange.sameCalls_iff (hempty : parseJson "" = none)
    (x : AnthropicExchange name_map parseJson) : x.SameCalls ↔ x.Distinguished := by
  have hstreams := (x.stream.streams name_map).1
  rw [SameCalls, streamedCalls_eq_iff hempty hstreams,
    parseAnthropicResponse_tool_calls name_map x.decoded x.complete]
  simp only [List.map_map]
  refine and_congr Iff.rfl ?_
  rw [List.map_inj_left]
  refine forall₂_congr ?_
  intro p hp
  show decodeCall parseJson (p.streamed name_map) = some (p.call.decoded name_map) ↔ _
  simp only [decodeCall, AnthropicProgress.streamed, AnthropicCall.decoded]
  constructor
  · intro heq htext
    rw [htext, hempty] at heq
    cases heq
  · intro htext
    rcases x.texts p hp with hparse | ⟨hnone, _⟩
    · rw [hparse]
      rfl
    · exact absurd hnone htext

end Anthropic

end Arbeiterfarm.Llm
