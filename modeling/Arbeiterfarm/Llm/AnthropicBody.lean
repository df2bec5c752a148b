import Arbeiterfarm.Agents.SlidingWindow
import Arbeiterfarm.Core.Bytes
import Arbeiterfarm.Llm.Anthropic

/-!
# The body of an Anthropic request

While the body is built, the structure of the messages is written to the log, with the beginning of
every content that is a plain string.
-/

namespace Arbeiterfarm.Llm

open Agents (ToolDescription)

/-- A request to a backend; `F` holds the floating point numbers. -/
structure CompletionRequest (F : Type) where
  messages : List ChatMessage
  tools : List ToolDescription
  max_tokens : Option ℕ
  temperature : Option F

structure ApiTool where
  name : String
  description : String
  input_schema : Json

/-- The members of the body; `none` stands for a member that is not set. -/
structure Body (F : Type) where
  model : String
  messages : List ApiMessage
  max_tokens : ℕ
  stream : Option Bool
  system : Option String
  tools : Option (List ApiTool)
  temperature : Option F

section

variable {F : Type}

def buildTools (request : CompletionRequest F) : Option (List ApiTool) :=
  if request.tools.isEmpty then none
  else some (request.tools.map fun t => ⟨sanitizeToolName t.name, t.description, t.parameters⟩)

/-! ### The log -/

def ApiRole.text : ApiRole → String
  | .user => "user"
  | .assistant => "assistant"

/-- The `type` of a block. -/
def Block.type : Block → String
  | .text _ => "text"
  | .image .. => "image"
  | .tool_use .. => "tool_use"
  | .tool_result .. => "tool_result"

/-- The list as it is printed for debugging. -/
def debugList (types : List String) : String :=
  "[" ++ ", ".intercalate (types.map fun type => "\"" ++ type ++ "\"") ++ "]"

def Block.log : Block → List String
  | .tool_result tool_use_id _ => [s!"[anthropic]   tool_result -> tool_use_id={tool_use_id}"]
  | .tool_use id name _ => [s!"[anthropic]   tool_use -> id={id} name={name}"]
  | _ => []

def preview (s : String) : Option String := if utf8Len s > 80 then firstBytes s 80 else some s

/-- The lines about the message `i`. -/
def logMessage (i : ℕ) (msg : ApiMessage) : Option (List String) :=
  let role := msg.role.text
  match msg.content with
  | .array arr =>
    let types := debugList (arr.map Block.type)
    some (s!"[anthropic] msg[{i}] role={role} blocks={types}" :: arr.flatMap Block.log)
  | .string s =>
    (preview s).map fun preview => [s!"[anthropic] msg[{i}] role={role} content={preview}"]

/-- The lines about the messages from `i` on. -/
def logMessages : ℕ → List ApiMessage → Option (List String)
  | _, [] => some []
  | i, msg :: msgs =>
    (logMessage i msg).bind fun lines => (logMessages (i + 1) msgs).map (lines ++ ·)

/-- The log and the body; `none` stands for a panic. -/
def buildBody (model : String) (request : CompletionRequest F) (stream : Bool) :
    Option (List String × Body F) :=
  let (system_prompt, messages) := buildMessages request.messages
  (logMessages 0 messages).map fun log =>
    (log,
      { model := model
        messages := messages
        max_tokens := request.max_tokens.getD 4096
        stream := if stream then some true else none
        system := system_prompt
        tools := buildTools request
        temperature := request.temperature })

/-! ### Previews -/

lemma isSome_preview (s : String) :
    (preview s).isSome ↔ (utf8Len s > 80 → IsCharBoundary s 80) := by
  rw [preview]
  by_cases h : utf8Len s > 80
  · rw [if_pos h, isSome_firstBytes]
    exact ⟨fun hs _ => hs, fun hs => hs h⟩
  · rw [if_neg h]
    exact ⟨fun _ hs => absurd hs h, fun _ => rfl⟩

/-- The contents of a message that are logged by their beginning. -/
def Content.plain : Content → Option String
  | .string s => some s
  | .array _ => none

lemma isSome_logMessage (i : ℕ) (msg : ApiMessage) : (logMessage i msg).isSome ↔
    ∀ s ∈ msg.content.plain, utf8Len s > 80 → IsCharBoundary s 80 := by
  rw [logMessage]
  cases msg.content with
  | array arr => simp [Content.plain]
  | string s => simp [Content.plain, isSome_preview]

lemma isSome_logMessages (i : ℕ) (msgs : List ApiMessage) : (logMessages i msgs).isSome ↔
    ∀ msg ∈ msgs, ∀ s ∈ msg.content.plain, utf8Len s > 80 → IsCharBoundary s 80 := by
  induction msgs generalizing i with
  | nil => simp [logMessages]
  | cons msg msgs ih =>
    rw [logMessages, List.forall_mem_cons, ← ih (i + 1), ← isSome_logMessage i msg]
    cases logMessage i msg with
    | none => simp
    | some lines => simp

/-- The plain strings of the messages of a request. -/
def plainContents (request : CompletionRequest F) : List String :=
  (buildMessages request.messages).2.filterMap (·.content.plain)

lemma isSome_buildBody (model : String) (request : CompletionRequest F) (stream : Bool) :
    (buildBody model request stream).isSome ↔
      ∀ s ∈ plainContents request, utf8Len s > 80 → IsCharBoundary s 80 := by
  rw [buildBody, Option.isSome_map, isSome_logMessages, plainContents]
  simp only [List.mem_filterMap, Option.mem_def]
  exact ⟨fun h s ⟨msg, hmsg, hs⟩ => h msg hmsg s hs, fun h msg hmsg s hs => h s ⟨msg, hmsg, hs⟩⟩

end

end Arbeiterfarm.Llm
