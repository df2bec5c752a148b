import Arbeiterfarm.Llm.OpenAi

/-!
# Responses of the Vertex API

A function call arrives whole, in one part of one event. Vertex gives calls no id; both decoders
make one up, so that here they take their ids from a supply `freshId` and the state of the reader
is the number of ids that it has used.
-/

namespace Arbeiterfarm.Llm

section

variable (printJson : Json → String) (freshId : ℕ → String)

/-! ### Streams -/

/-- The chunks of a function call; a call without `args` has empty argument text. -/
def functionCallChunks (id : String) (fc : Json) : List StreamChunk :=
  let args := ((fc.get "args").map printJson).getD ""
  .toolCallStart id ((fc.strField "name").getD "") ::
    if args = "" then [] else [.toolCallDelta id args]

/-- A part of a candidate's content; the state counts the ids in use. -/
def onPart (used : ℕ) (part : Json) : List StreamChunk × ℕ :=
  let text := textChunk .token ((part.strField "text").getD "").toList
  match part.get "functionCall" with
  | some fc => (text ++ functionCallChunks printJson (freshId used) fc, used + 1)
  | none => (text, used)

def onParts (used : ℕ) : List Json → List StreamChunk × ℕ
  | [] => ([], used)
  | part :: parts =>
    let (chunks, used) := onPart printJson freshId used part
    let (chunks', used) := onParts used parts
    (chunks ++ chunks', used)

def partsOf (candidate : Json) : List Json :=
  (((candidate.get "content").bind (·.get "parts")).bind Json.asArray).getD []

def vertexFinishReason (reason : String) : FinishReason :=
  if reason = "STOP" then .stop
  else if reason = "MAX_TOKENS" then .length
  else .unknown reason

/-- The finish reason of a candidate, which is `toolUse` once the event has had a call. -/
def candidateDone (has_tool_calls : Bool) (candidate : Json) : List StreamChunk :=
  match candidate.strField "finishReason" with
  | some reason => [.done (if has_tool_calls then .toolUse else vertexFinishReason reason)]
  | none => []

def onCandidates (has_tool_calls : Bool) (used : ℕ) : List Json → List StreamChunk × ℕ
  | [] => ([], used)
  | candidate :: candidates =>
    let parts := partsOf candidate
    let (chunks, used) := onParts printJson freshId used parts
    let has_tool_calls := has_tool_calls || parts.any fun part => (part.get "functionCall").isSome
    let (chunks', used) := onCandidates has_tool_calls used candidates
    (chunks ++ candidateDone has_tool_calls candidate ++ chunks', used)

def vertexUsage (u : Json) : UsageInfo where
  prompt_tokens := asU32 ((u.u64Field "promptTokenCount").getD 0)
  completion_tokens := asU32 ((u.u64Field "candidatesTokenCount").getD 0)
  cached_read_tokens := asU32 ((u.u64Field "cachedContentTokenCount").getD 0)
  cache_creation_tokens := 0

def vertexUsageChunk (event : Json) : List StreamChunk :=
  match event.get "usageMetadata" with
  | some usage =>
    if (usage.u64Field "promptTokenCount").getD 0 > 0 ∨
        (usage.u64Field "candidatesTokenCount").getD 0 > 0 then [.usage (vertexUsage usage)]
    else []
  | none => []

def parseVertexSseEvent (used : ℕ) (event : Json) : List StreamChunk × ℕ :=
  let candidates := ((event.get "candidates").bind Json.asArray).getD []
  let (chunks, used) := onCandidates printJson freshId false used candidates
  (chunks ++ vertexUsageChunk event, used)

def vertexHandler (parseJson : String → Option Json) : SseHandler where
  State := ℕ
  init := 0
  onData used data :=
    match parseJson (String.ofList data) with
    | some event =>
      ((parseVertexSseEvent printJson freshId used event).1,
        some (parseVertexSseEvent printJson freshId used event).2)
    | none => ([], some used)

/-! ### Complete responses -/

/-- The calls of the parts; a call without `args` calls with an empty object. -/
def partToolCalls (used : ℕ) : List Json → List ToolCallResponse
  | [] => []
  | part :: parts =>
    match part.get "functionCall" with
    | some fc =>
      { id := freshId used, name := (fc.strField "name").getD "",
        arguments := (fc.get "args").getD emptyObject } :: partToolCalls (used + 1) parts
    | none => partToolCalls used parts

def parseVertexResponse (resp : Json) : Except LlmError CompletionResponse :=
  match (resp.get "candidates").bind (·.index 0) with
  | none => .error (.jsonParse "no candidates in response")
  | some candidate =>
    let parts := partsOf candidate
    let tool_calls := partToolCalls freshId 0 parts
    .ok
      { content := String.join (parts.filterMap (·.strField "text"))
        tool_calls := tool_calls
        finish_reason :=
          if tool_calls.isEmpty then
            ((candidate.strField "finishReason").map vertexFinishReason).getD .stop
          else .toolUse
        usage := (resp.get "usageMetadata").map vertexUsage }

end

end Arbeiterfarm.Llm
