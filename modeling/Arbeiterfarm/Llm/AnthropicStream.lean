import Arbeiterfarm.Llm.OpenAi

/-!
# Responses of the Anthropic API

The events of a stream follow the content blocks one by one: a `tool_use` block starts with its id
and name, and its input arrives as fragments of JSON text.
-/

namespace Arbeiterfarm.Llm

/-- `name_map.get(&name)`, as the two decoders apply it to the name of a block. -/
def toolUseName (name_map : NameMap) (block : Json) : String :=
  unsanitizeToolName ((block.strField "name").getD "") name_map

def stopReason (stop : String) : FinishReason :=
  if stop = "end_turn" then .stop
  else if stop = "tool_use" then .toolUse
  else if stop = "max_tokens" then .length
  else .unknown stop

/-! ### Streams -/

def onContentBlockStart (name_map : NameMap) (current_tool_id : String) (event : Json) :
    List StreamChunk × String :=
  match event.get "content_block" with
  | some block =>
    if (block.strField "type").getD "" = "tool_use" then
      let id := (block.strField "id").getD ""
      ([.toolCallStart id (toolUseName name_map block)], id)
    else ([], current_tool_id)
  | none => ([], current_tool_id)

def onContentBlockDelta (current_tool_id : String) (event : Json) : List StreamChunk :=
  match event.get "delta" with
  | some delta =>
    let delta_type := (delta.strField "type").getD ""
    if delta_type = "text_delta" then
      textChunk .token ((delta.strField "text").getD "").toList
    else if delta_type = "input_json_delta" then
      let json_frag := (delta.strField "partial_json").getD ""
      if json_frag = "" then [] else [.toolCallDelta current_tool_id json_frag]
    else []
  | none => []

def onMessageDelta (event : Json) : List StreamChunk :=
  let done :=
    match (event.get "delta").bind (·.strField "stop_reason") with
    | some stop => [StreamChunk.done (stopReason stop)]
    | none => []
  let usage :=
    match event.get "usage" with
    | some usage =>
      let out := (usage.u64Field "output_tokens").getD 0
      if out > 0 then [StreamChunk.usage { completion_tokens := asU32 out }] else []
    | none => []
  done ++ usage

def onMessageStart (event : Json) : List StreamChunk :=
  match (event.get "message").bind (·.get "usage") with
  | some usage =>
    let input := (usage.u64Field "input_tokens").getD 0
    let cache_read := (usage.u64Field "cache_read_input_tokens").getD 0
    let cache_creation := (usage.u64Field "cache_creation_input_tokens").getD 0
    if input > 0 ∨ cache_read > 0 ∨ cache_creation > 0 then
      [.usage
        { prompt_tokens := asU32 input, cached_read_tokens := asU32 cache_read,
          cache_creation_tokens := asU32 cache_creation }]
    else []
  | none => []

/-- One event of the stream; the state is the id of the latest `tool_use` block. -/
def onAnthropicEvent (name_map : NameMap) (current_tool_id : String) (event : Json) :
    List StreamChunk × String :=
  let event_type := (event.strField "type").getD ""
  if event_type = "content_block_start" then onContentBlockStart name_map current_tool_id event
  else if event_type = "content_block_delta" then
    (onContentBlockDelta current_tool_id event, current_tool_id)
  else if event_type = "message_delta" then (onMessageDelta event, current_tool_id)
  else if event_type = "message_start" then (onMessageStart event, current_tool_id)
  else ([], current_tool_id)

def anthropicHandler (parseJson : String → Option Json) (name_map : NameMap) : SseHandler where
  State := String
  init := ""
  onData current_tool_id data :=
    match parseJson (String.ofList data) with
    | some event =>
      ((onAnthropicEvent name_map current_tool_id event).1,
        some (onAnthropicEvent name_map current_tool_id event).2)
    | none => ([], some current_tool_id)

/-! ### Complete responses -/

def blockText (block : Json) : Option String :=
  if block.strField "type" = some "text" then block.strField "text" else none

/-- The call of a `tool_use` block; a block without input calls with an empty object. -/
def blockToolCall (name_map : NameMap) (block : Json) : Option ToolCallResponse :=
  if block.strField "type" = some "tool_use" then
    some
      { id := (block.strField "id").getD ""
        name := toolUseName name_map block
        arguments := (block.get "input").getD emptyObject }
  else none

def anthropicUsage (u : Json) : UsageInfo where
  prompt_tokens := asU32 ((u.u64Field "input_tokens").getD 0)
  completion_tokens := asU32 ((u.u64Field "output_tokens").getD 0)
  cached_read_tokens := asU32 ((u.u64Field "cache_read_input_tokens").getD 0)
  cache_creation_tokens := asU32 ((u.u64Field "cache_creation_input_tokens").getD 0)

/-- A complete response, with the tool names that `complete` has mapped back. -/
def parseAnthropicResponse (name_map : NameMap) (resp : Json) :
    Except LlmError CompletionResponse :=
  match (resp.get "content").bind Json.asArray with
  | none => .error (.jsonParse "no content array in response")
  | some content_blocks =>
    .ok
      { content := String.join (content_blocks.filterMap blockText)
        tool_calls := content_blocks.filterMap (blockToolCall name_map)
        finish_reason := ((resp.strField "stop_reason").map stopReason).getD .stop
        usage := (resp.get "usage").map anthropicUsage }

end Arbeiterfarm.Llm
