import Arbeiterfarm.Core.Chat
import Arbeiterfarm.Foundation.Linked

/-!
# The message list of an Anthropic request

`buildMessages` turns the conversation of an agent into the `messages` array of a request. The
last pass, `fixOrphanedToolUse`, repairs the pairing of tool calls and tool results, which
breaks when several agents share a thread.

The passes over the vector look at the last message that they have pushed; here it is their
first argument.
-/

namespace Arbeiterfarm.Llm

open Foundation

inductive ApiRole where
  | user | assistant
  deriving DecidableEq, Repr

/-- A content block, by its `type`. -/
inductive Block where
  | text (text : String)
  | image (media_type data : String)
  | tool_use (id name : String) (input : Json)
  | tool_result (tool_use_id content : String)
  deriving DecidableEq, Repr

inductive Content where
  | string (s : String)
  | array (blocks : List Block)
  deriving DecidableEq, Repr

structure ApiMessage where
  role : ApiRole
  content : Content
  deriving DecidableEq, Repr

/-! ### Content blocks -/

def Block.isToolResult : Block → Bool
  | .tool_result .. => true
  | _ => false

def Block.toolUseId? : Block → Option String
  | .tool_use id _ _ => some id
  | _ => none

def Block.toolResultId? : Block → Option String
  | .tool_result id _ => some id
  | _ => none

/-- The content as the array it is merged as. -/
def Content.blocks : Content → List Block
  | .string s  => [.text s]
  | .array arr => arr

@[simp] lemma Content.blocks_string (s : String) : (Content.string s).blocks = [.text s] := rfl

@[simp] lemma Content.blocks_array (arr : List Block) : (Content.array arr).blocks = arr := rfl

/-- Append the content of `msg` to that of `last`. -/
def ApiMessage.merge (last msg : ApiMessage) : ApiMessage :=
  { last with content := .array (last.content.blocks ++ msg.content.blocks) }

def extractToolUseIds (msg : ApiMessage) : List String :=
  match msg.content with
  | .array content => content.filterMap Block.toolUseId?
  | .string _ => []

def extractToolResultIds (msg : ApiMessage) : List String :=
  if msg.role = .user then
    match msg.content with
    | .array content => content.filterMap Block.toolResultId?
    | .string _ => []
  else []

/-! ### Building the list -/

def sanitizeToolName (name : String) : String :=
  String.ofList (name.toList.flatMap fun c => if c = '.' then "___".toList else [c])

def partBlock : ContentPart → Block
  | .text text => .text text
  | .image data media_type => .image media_type data

def toolUseBlock (tc : ToolCallInfo) : Block :=
  .tool_use tc.id (sanitizeToolName tc.name) tc.arguments

/-- The message of the request; system messages are not part of the list. -/
def apiMessage (msg : ChatMessage) : Option ApiMessage :=
  match msg.role with
  | .system => none
  | .user =>
    if msg.hasParts then some ⟨.user, .array ((msg.content_parts.getD []).map partBlock)⟩
    else some ⟨.user, .string msg.content⟩
  | .assistant =>
    if msg.tool_calls.isEmpty then some ⟨.assistant, .string msg.content⟩
    else
      let text := if msg.content.isEmpty then [] else [.text msg.content]
      some ⟨.assistant, .array (text ++ msg.tool_calls.map toolUseBlock)⟩
  | .tool => some ⟨.user, .array [.tool_result (msg.tool_call_id.getD "") msg.content]⟩

def bothUsers (last msg : ApiMessage) : Bool := msg.role = .user ∧ last.role = .user

def sameRole (last msg : ApiMessage) : Bool := last.role = msg.role

/-- The list before the repair, with consecutive user messages merged. -/
def mergedMessages (msgs : List ChatMessage) : List ApiMessage :=
  mergeAdjacent bothUsers ApiMessage.merge (msgs.filterMap apiMessage)

/-! ### The repair passes -/

/-- The tool calls of the last message, if it is an assistant message. -/
def pendingIds : Option ApiMessage → List String
  | some prev => if prev.role = .assistant then extractToolUseIds prev else []
  | none => []

def unavailable (id : String) : Block :=
  .tool_result id "[result unavailable — concurrent agent execution]"

/-- Pass 1: inject a synthetic result for every call that the next message does not answer. -/
def injectMissing : Option ApiMessage → List ApiMessage → List ApiMessage
  | last, [] =>
    if pendingIds last = [] then [] else [⟨.user, .array ((pendingIds last).map unavailable)⟩]
  | prev, msg :: msgs =>
    let missing := (pendingIds prev).filter fun id => id ∉ extractToolResultIds msg
    let synthetic := missing.map unavailable
    if missing = [] then
      msg :: injectMissing (some msg) msgs
    else if msg.role = .user then
      let merged := ⟨.user, .array (synthetic ++ msg.content.blocks)⟩
      merged :: injectMissing (some merged) msgs
    else
      ⟨.user, .array synthetic⟩ :: msg :: injectMissing (some msg) msgs

/-- The blocks of a user message that pass 2 keeps. -/
def keepBlock (prevToolUseIds : List String) (block : Block) : Bool :=
  match block with
  | .tool_result id _ => id ∈ prevToolUseIds
  | _ => true

/-- Pass 2: strip the results that do not belong to the assistant message before them. -/
def stripOrphaned : Option ApiMessage → List ApiMessage → List ApiMessage
  | _, [] => []
  | prev, msg :: msgs =>
    match msg.role, msg.content with
    | .user, .array content =>
      let prevToolUseIds := pendingIds prev
      if content.any Block.isToolResult then
        let filtered :=
          if prevToolUseIds ≠ [] then content.filter (keepBlock prevToolUseIds)
          else content.filter fun block => !block.isToolResult
        if filtered = [] then stripOrphaned prev msgs
        else ⟨.user, .array filtered⟩ :: stripOrphaned (some ⟨.user, .array filtered⟩) msgs
      else msg :: stripOrphaned (some msg) msgs
    | _, _ => msg :: stripOrphaned (some msg) msgs

/-- Pass 3 merges consecutive messages of the same role. -/
def fixOrphanedToolUse (messages : List ApiMessage) : List ApiMessage :=
  mergeAdjacent sameRole ApiMessage.merge (stripOrphaned none (injectMissing none messages))

/-- The system prompt is the last system message. -/
def systemPrompt (msgs : List ChatMessage) : Option String :=
  ((msgs.filter fun msg => msg.role = .system).getLast?).map (·.content)

def buildMessages (msgs : List ChatMessage) : Option String × List ApiMessage :=
  (systemPrompt msgs, fixOrphanedToolUse (mergedMessages msgs))

end Arbeiterfarm.Llm
