import Arbeiterfarm.Agents.Messages
import Mathlib.Algebra.GroupWithZero.Nat
import Mathlib.Data.List.Lex
import Mathlib.Data.Char

/-!
# From rows to messages

`buildMessagesFromHistory` renders the visible rows of a thread as the message list of the model.
Tool calls and content parts travel through the JSON column of their row.
-/

namespace Arbeiterfarm

/-! ### JSON columns -/

/-- The list of all results, if there are no failures. -/
def decodeAll {α : Type*} (decode : Json → Option α) : Json → Option (List α)
  | .arr vs => vs.mapM decode
  | _ => none

namespace ToolCallInfo

def toJson (tc : ToolCallInfo) : Json :=
  .obj [("id", .str tc.id), ("name", .str tc.name), ("arguments", tc.arguments)]

def ofJson (v : Json) : Option ToolCallInfo := do
  let id ← (← v.get "id").asStr
  let name ← (← v.get "name").asStr
  let arguments ← v.get "arguments"
  return ⟨id, name, arguments⟩

@[simp] lemma ofJson_toJson (tc : ToolCallInfo) : ofJson tc.toJson = some tc := by
  simp [ofJson, toJson, Json.get, Json.asStr, List.lookup_cons]

end ToolCallInfo

/-- The variant is named by the field `type`. -/
def ContentPart.ofJson (v : Json) : Option ContentPart := do
  let tag ← (← v.get "type").asStr
  if tag = "text" then
    let text ← (← v.get "text").asStr
    return .text text
  else if tag = "image" then
    let data ← (← v.get "data").asStr
    let media_type ← (← v.get "media_type").asStr
    return .image data media_type
  else none

namespace Agents

def startsWith (s pat : String) : Bool := pat.toList.isPrefixOf s.toList

/-! ### Rows -/

namespace MessageRow

def jsonField (row : MessageRow) (key : String) : Option Json := do (← row.content_json).get key

def isCompactionSummary (row : MessageRow) : Bool :=
  row.role = .system && ((row.jsonField "compaction_summary").bind Json.asBool).getD false

/-- The calls that an assistant row has recorded. -/
def toolCalls (row : MessageRow) : List ToolCallInfo :=
  if row.role = .assistant then
    ((row.jsonField "tool_calls").bind (decodeAll ToolCallInfo.ofJson)).getD []
  else []

/-- The agent's name goes before what it said. -/
def renderedContent (row : MessageRow) : String :=
  let content := row.content.getD ""
  match row.role, row.agent_name with
  | .assistant, some agent => "[" ++ agent ++ "]: " ++ content
  | _, _ => content

/-- The message of a row. Summaries are stored as system messages and rendered as user messages;
other system messages are skipped. -/
def toMessage (row : MessageRow) : Option ChatMessage :=
  if row.role = .system ∧ row.isCompactionSummary = false then none
  else some {
    role := if row.role = .system then .user else row.role
    content := row.renderedContent
    tool_call_id := row.tool_call_id
    name := row.tool_name
    tool_calls := row.toolCalls
    content_parts := (row.jsonField "content_parts").bind (decodeAll ContentPart.ofJson) }

lemma toMessage_assistant {row : MessageRow} {m : ChatMessage} (h : row.toMessage = some m)
    (hrole : m.role = .assistant) : row.role = .assistant ∧ m.tool_calls = row.toolCalls := by
  simp only [toMessage] at h
  split_ifs at h with hskip hsystem
  · cases h
    simp at hrole
  · cases h
    exact ⟨hrole, rfl⟩

lemma toMessage_tool {row : MessageRow} (hrole : row.role = .tool) :
    ∃ m, row.toMessage = some m ∧ m.role = .tool ∧ m.tool_call_id = row.tool_call_id := by
  refine ⟨_, if_neg (by simp [hrole]), ?_, rfl⟩
  simp [hrole]

end MessageRow

def systemMessage (system_prompt : String) : ChatMessage where
  role := .system
  content := system_prompt

def buildMessagesFromHistory (system_prompt : String) (history : List MessageRow) :
    List ChatMessage :=
  systemMessage system_prompt :: history.filterMap MessageRow.toMessage

/-! ### Assistant rows -/

/-- The JSON column of an assistant row with tool calls. -/
def toolCallsJson (calls : List ToolCallInfo) : Json :=
  .obj [("tool_calls", .arr (calls.map ToolCallInfo.toJson))]

lemma mapM_ofJson (calls : List ToolCallInfo) :
    calls.mapM (ToolCallInfo.ofJson ∘ ToolCallInfo.toJson) = some calls := by
  induction calls with
  | nil => rfl
  | cons tc calls ih => simp [ih]

/-- The tool calls of a row are read back as they were stored. -/
lemma toolCalls_eq {row : MessageRow} {calls : List ToolCallInfo} (hrole : row.role = .assistant)
    (hjson : row.content_json = some (toolCallsJson calls)) : row.toolCalls = calls := by
  simp [MessageRow.toolCalls, hrole, MessageRow.jsonField, hjson, toolCallsJson, Json.get,
    decodeAll, mapM_ofJson]

/-! ### Thread memory -/

def maxMemorySize : ℕ := 2048

/-- The finding of an entry, without the prefix of its key. -/
def finding? (entry : String × String) : Option (String × String) :=
  if startsWith entry.1 "finding:" then
    some (String.ofList (entry.1.toList.drop "finding:".length), entry.2)
  else none

/-- The order of the findings. -/
def KeyLe (a b : String × String) : Prop := a.1.toList ≤ b.1.toList

instance : DecidableRel KeyLe := fun a b =>
  inferInstanceAs (Decidable (a.1.toList ≤ b.1.toList))

/-- Add lines while they fit. -/
def appendFindings (result : String) : List (String × String) → String
  | [] => result
  | (k, v) :: findings =>
    let line := "- " ++ k ++ ": " ++ v ++ "\n"
    if result.utf8ByteSize + line.utf8ByteSize > maxMemorySize then result
    else appendFindings (result ++ line) findings

def renderMemory (entries : List (String × String)) : String :=
  if entries.isEmpty then ""
  else
    let line (label : String) : Option String → String
      | some v => label ++ v ++ "\n"
      | none   => ""
    let findings := (entries.filterMap finding?).insertionSort KeyLe
    let result := "[Thread Memory]\n" ++ line "TASK: " (entries.lookup "goal")
      ++ line "CURRENT: " (entries.lookup "latest_request")
    let result :=
      if findings.isEmpty then result else appendFindings (result ++ "\nFINDINGS:\n") findings
    result ++ line "\nCONCLUSION: " (entries.lookup "conclusion")
      ++ "\nUse these findings. Do not repeat completed work."

def buildMemoryMessage (memory_entries : List (String × String)) : Option ChatMessage :=
  let rendered := renderMemory memory_entries
  if memory_entries.isEmpty ∨ rendered.isEmpty then none
  else some { role := .user, content := rendered }

end Agents

end Arbeiterfarm
