import Arbeiterfarm.Core.Json

/-!
# Chat messages

The conversation types shared by the agent loop and the provider adapters.
-/

namespace Arbeiterfarm

inductive ChatRole where
  | system | user | assistant | tool
  deriving DecidableEq, Repr

/-- A tool call made by the assistant. -/
structure ToolCallInfo where
  id : String
  name : String
  arguments : Json
  deriving DecidableEq, Repr

/-- A part of multi-modal message content; image data is base64 text. -/
inductive ContentPart where
  | text (text : String)
  | image (data media_type : String)
  deriving DecidableEq, Repr

structure ChatMessage where
  role : ChatRole
  content : String
  /-- The call that a tool message answers. -/
  tool_call_id : Option String := none
  name : Option String := none
  tool_calls : List ToolCallInfo := []
  /-- Used by the adapters instead of `content` when present. -/
  content_parts : Option (List ContentPart) := none
  deriving DecidableEq, Repr

namespace ChatMessage

def hasParts (m : ChatMessage) : Bool :=
  match m.content_parts with
  | some parts => !parts.isEmpty
  | none => false

end ChatMessage

end Arbeiterfarm
