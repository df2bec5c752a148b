import Arbeiterfarm.Core.Json
import Arbeiterfarm.Llm.Sse

/-!
# Responses of OpenAI-compatible servers

`parseSseEvent` turns one event of a stream into chunks, `parseResponse` decodes a complete
response. The tool names of a request are sanitized for the cloud API; `name_map` takes them back.
-/

namespace Arbeiterfarm.Llm

/-- A hash map from sanitized tool names to the names they stand for. -/
abbrev NameMap := String → Option String

def unsanitizeToolName (raw_name : String) (name_map : NameMap) : String :=
  (name_map raw_name).getD raw_name

structure ToolCallResponse where
  id : String
  name : String
  arguments : Json
  deriving DecidableEq, Repr

structure CompletionResponse where
  content : String
  tool_calls : List ToolCallResponse
  finish_reason : FinishReason
  usage : Option UsageInfo
  deriving DecidableEq, Repr

/-- `as u32`. -/
def asU32 (n : ℕ) : ℕ := n % 4294967296

def emptyObject : Json := .obj []

/-! ### Usage and reasoning -/

def parseUsage (usage : Json) : UsageInfo where
  prompt_tokens := asU32 ((usage.u64Field "prompt_tokens").getD 0)
  completion_tokens := asU32 ((usage.u64Field "completion_tokens").getD 0)
  cached_read_tokens := asU32 <|
    ((usage.get "prompt_tokens_details").bind (·.u64Field "cached_tokens")).getD 0
  cache_creation_tokens := 0

/-- The chunk for a piece of text, unless it is empty. -/
def textChunk (chunk : String → StreamChunk) (text : List Char) : List StreamChunk :=
  if text.isEmpty then [] else [chunk (String.ofList text)]

def thinkStart : List Char := "<think>".toList

def thinkEnd : List Char := "</think>".toList

lemma length_thinkStart : thinkStart.length = 7 := by decide

lemma length_thinkEnd : thinkEnd.length = 8 := by decide

/-- Tell inline reasoning between `<think>` and `</think>` from text; the state says whether the
content starts inside a reasoning block. -/
def classifyThinkContent (in_think : Bool) (remaining : List Char) : List StreamChunk × Bool :=
  if remaining.isEmpty then ([], in_think)
  else if in_think then
    match h : splitAround thinkEnd remaining with
    | some (reasoning, rest) =>
      have := length_of_splitAround h
      ((textChunk .reasoning reasoning) ++ (classifyThinkContent false rest).1,
        (classifyThinkContent false rest).2)
    | none => (textChunk .reasoning remaining, true)
  else
    match h : splitAround thinkStart remaining with
    | some (text, rest) =>
      have := length_of_splitAround h
      ((textChunk .token text) ++ (classifyThinkContent true rest).1,
        (classifyThinkContent true rest).2)
    | none => (textChunk .token remaining, false)
termination_by remaining.length
decreasing_by
  · rw [length_thinkEnd] at this
    omega
  · rw [length_thinkStart] at this
    omega

/-! ### Streams -/

/-- The ids of the calls that have started, by their index, the latest first; and whether the
text is inside a reasoning block. -/
structure OpenAiState where
  active_tool_calls : List (ℕ × String) := []
  in_think : Bool := false
  deriving DecidableEq, Repr

/-- The chunk that starts a call, when the entry names its function. -/
def startChunk (name_map : NameMap) (tc function : Json) : List StreamChunk :=
  match function.strField "name" with
  | some raw_name =>
    [.toolCallStart ((tc.strField "id").getD "") (unsanitizeToolName raw_name name_map)]
  | none => []

/-- The chunk for a fragment of the arguments, when it is not empty and its call has started. -/
def deltaChunk (active : List (ℕ × String)) (index : ℕ) (function : Json) : List StreamChunk :=
  match function.strField "arguments" with
  | some args_frag =>
    if args_frag = "" then []
    else
      match active.lookup index with
      | some id => [.toolCallDelta id args_frag]
      | none => []
  | none => []

/-- An entry of `delta.tool_calls`. -/
def onToolCallEntry (name_map : NameMap) (active : List (ℕ × String)) (tc : Json) :
    List StreamChunk × List (ℕ × String) :=
  let index := (tc.u64Field "index").getD 0
  match tc.get "function" with
  | some function =>
    let active :=
      if (function.strField "name").isSome then (index, (tc.strField "id").getD "") :: active
      else active
    (startChunk name_map tc function ++ deltaChunk active index function, active)
  | none => ([], active)

def onToolCallEntries (name_map : NameMap) (active : List (ℕ × String)) :
    List Json → List StreamChunk × List (ℕ × String)
  | [] => ([], active)
  | tc :: tcs =>
    let (chunks, active) := onToolCallEntry name_map active tc
    let (chunks', active) := onToolCallEntries name_map active tcs
    (chunks ++ chunks', active)

def finishReason (finish : String) : FinishReason :=
  if finish = "stop" then .stop
  else if finish = "tool_calls" then .toolUse
  else if finish = "length" then .length
  else .unknown finish

def doneChunk (choice : Json) : List StreamChunk :=
  match choice.strField "finish_reason" with
  | some finish => [.done (finishReason finish)]
  | none => []

/-- The usage of an event, unless it counts nothing. -/
def usageChunk (event : Json) : List StreamChunk :=
  match event.get "usage" with
  | some usage =>
    let info := parseUsage usage
    if info.prompt_tokens > 0 ∨ info.completion_tokens > 0 then [.usage info] else []
  | none => []

/-- One event of an OpenAI-compatible stream. -/
def parseSseEvent (name_map : NameMap) (s : OpenAiState) (event : Json) :
    List StreamChunk × OpenAiState :=
  match (event.get "choices").bind (·.index 0) with
  | none =>
    match event.get "usage" with
    | some usage => ([.usage (parseUsage usage)], s)
    | none => ([], s)
  | some choice =>
    let delta := (choice.get "delta").getD choice
    let (content, in_think) :=
      classifyThinkContent s.in_think ((delta.strField "content").getD "").toList
    let reasoning := textChunk .reasoning ((delta.strField "reasoning").getD "").toList
    let (calls, active) :=
      onToolCallEntries name_map s.active_tool_calls
        (((delta.get "tool_calls").bind Json.asArray).getD [])
    (content ++ reasoning ++ calls ++ doneChunk choice ++ usageChunk event, ⟨active, in_think⟩)

/-- The payload of a `data: ` line; `[DONE]` ends the response, what does not parse is skipped. -/
def openAiHandler (parseJson : String → Option Json) (name_map : NameMap) : SseHandler where
  State := OpenAiState
  init := {}
  onData s data :=
    if data = "[DONE]".toList then ([], none)
    else
      match parseJson (String.ofList data) with
      | some event => ((parseSseEvent name_map s event).1, some (parseSseEvent name_map s event).2)
      | none => ([], some s)

/-! ### Complete responses -/

/-- A call of a complete response; arguments that do not parse become an empty object. -/
def parseToolCall (parseJson : String → Option Json) (name_map : NameMap) (tc : Json) :
    ToolCallResponse :=
  let function := (tc.get "function").getD tc
  { id := (tc.strField "id").getD ""
    name := unsanitizeToolName ((function.strField "name").getD "") name_map
    arguments := (parseJson ((function.strField "arguments").getD "\x7b\x7d")).getD emptyObject }

def parseResponse (parseJson : String → Option Json) (name_map : NameMap) (resp : Json) :
    Except LlmError CompletionResponse :=
  match (resp.get "choices").bind (·.index 0) with
  | none => .error (.jsonParse "no choices in response")
  | some choice =>
    match choice.get "message" with
    | none => .error (.jsonParse "no message in choice")
    | some message =>
      let content_field := (message.strField "content").getD ""
      let reasoning_field := (message.strField "reasoning").getD ""
      .ok
        { content :=
            if content_field = "" ∧ reasoning_field ≠ "" then reasoning_field else content_field
          tool_calls :=
            (((message.get "tool_calls").bind Json.asArray).getD []).map
              (parseToolCall parseJson name_map)
          finish_reason := ((choice.strField "finish_reason").map finishReason).getD .stop
          usage := (resp.get "usage").map parseUsage }

/-- Local servers get the tool names as they are. -/
def parseLocalResponse (parseJson : String → Option Json) (resp : Json) :
    Except LlmError CompletionResponse := parseResponse parseJson (fun _ => none) resp

end Arbeiterfarm.Llm
