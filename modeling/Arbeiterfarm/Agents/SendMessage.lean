import Arbeiterfarm.Agents.StreamingLoop
import Arbeiterfarm.Core.Text
import Arbeiterfarm.Llm.OpenAi

/-!
# The loop without streaming

`send_message` answers in a thread as the streaming loop does, but it waits for complete
responses. A complete response carries its tool calls, or else a JSON block in its text that asks
for one; without either it is the final text. The items of a response are processed one by one; the
assistant message is stored when the first tool call comes up. The steps that both loops share are
taken from the streaming loop.
-/

namespace Arbeiterfarm.Agents

open Foundation Llm

/-! ### Tool calls in a complete response -/

inductive ParsedResponse where
  | toolCall (id name : String) (arguments : Json)
  | finalText (text : String)
  deriving DecidableEq, Repr

section

variable (parseJson : String → Except String Json) (uuid : String)

def tryParseToolCallJson (json_str : List Char) : Option ParsedResponse :=
  match parseJson (String.ofList json_str) with
  | .error _ => none
  | .ok val => do
    let tool_call ← val.get "tool_call"
    let name ← tool_call.strField "name"
    let arguments := (tool_call.get "arguments").getD emptyObject
    return .toolCall ("json-block-" ++ uuid) name arguments

/-- The text of the first block between ```` ```json ```` and the fence that closes it. -/
def fencedBlock (content : List Char) : Option (List Char) := do
  let (_, rest) ← splitAround "```json".toList content
  let (json_str, _) ← splitAround "```".toList rest
  return trim json_str

/-- The text from the first opening brace to the last closing one. -/
def bracedText (content : List Char) : Option (List Char) :=
  let text := trimEndMatches (· ≠ '\x7d') (content.dropWhile (· ≠ '\x7b'))
  if text.isEmpty then none else some text

/-- A fenced block first, then the whole content, then whatever stands between braces. -/
def tryParseJsonBlock (content : List Char) : Option ParsedResponse :=
  let parse := tryParseToolCallJson parseJson uuid
  ((fencedBlock content).bind parse <|> parse (trim content)) <|> (bracedText content).bind parse

/-- The items of a response: its tool calls, or the call of a JSON block, or its text. -/
def parseResponse (response : CompletionResponse) : List ParsedResponse :=
  if response.tool_calls.isEmpty = false then
    response.tool_calls.map fun tc => .toolCall tc.id tc.name tc.arguments
  else
    match tryParseJsonBlock parseJson uuid response.content.toList with
    | some parsed => [parsed]
    | none => [.finalText response.content]

end

/-- The response that is being processed, with its remaining items. -/
structure Batch where
  content : String
  tool_call_infos : List ToolCallInfo
  items : List ParsedResponse
  has_tool_call : Bool := false
  assistant_pushed : Bool := false

def ParsedResponse.info? : ParsedResponse → Option ToolCallInfo
  | .toolCall id name arguments => some ⟨id, name, arguments⟩
  | .finalText _ => none

def Batch.ofResponse (parseJson : String → Except String Json) (uuid : String)
    (response : CompletionResponse) : Batch where
  content := response.content
  tool_call_infos := (parseResponse parseJson uuid response).filterMap (·.info?)
  items := parseResponse parseJson uuid response

namespace Loop

variable (l : Loop) (t : Thread)

/-! ### Model call -/

/-- The tokens that are reported replace the estimate; without a report it is released. -/
def adjustComplete (estimated_tokens : ℕ) (usage : Option UsageInfo) (row : UsageDaily) :
    UsageDaily :=
  match usage with
  | some usage => onUsage estimated_tokens row usage
  | none => adjustLlmTokens (-estimated_tokens) 0 row

/-- The account after the reservation, and whether the call goes on; a reservation that fails
(`dbFails`) is taken as granted. -/
def reserveComplete (account : Option UsageDaily) (dbFails : Bool) : Option UsageDaily × Bool :=
  match account with
  | none => (none, true)
  | some row =>
    if dbFails then (some row, true)
    else
      match reserveLlmTokens l.cfg.max_llm_tokens_per_day l.cfg.max_output row with
      | (row, granted) => (some row, granted)

/-- Call the model and wait for its response; without a response the loop ends. -/
def complete (account : Option UsageDaily) (cwc : Option (List ChatMessage)) (dbFails : Bool)
    (uuid : String) (result : Except LlmError CompletionResponse) :
    Loop × Option UsageDaily × Option Batch :=
  match l.reserveComplete account dbFails with
  | (account, false) => ({ l with phase := .done }, account, none)
  | (account, true) =>
    let l := l.preflight cwc
    match result with
    | .error _ =>
      ({ l with phase := .done }, account.map (adjustLlmTokens (-l.cfg.max_output) 0), none)
    | .ok response =>
      (l, account.map (adjustComplete l.cfg.max_output response.usage),
        some (.ofResponse l.cfg.parseJson uuid response))

/-! ### Items -/

def assistantItem (b : Batch) : NewMessage where
  role := .assistant
  content := some b.content
  content_json := some (toolCallsJson b.tool_call_infos)
  agent_name := l.cfg.agent_name

/-- Store the assistant message, unless it has been; there is no batch left if the transaction
fails, which ends the loop. -/
def pushAssistant (b : Batch) (insert : Insert) : Loop × Thread × Option Batch :=
  if b.assistant_pushed then (l, t, some b)
  else
    let (t, row) := insert.run t (l.assistantItem b)
    match insert with
    | .aborted => (l, t, none)
    | _ =>
      let msg : ChatMessage :=
        { role := .assistant, content := b.content, tool_calls := b.tool_call_infos }
      ({ l with messages := l.messages ++ [⟨msg, row⟩] }, t,
        some { b with assistant_pushed := true })

/-- The checks on a tool call; its arguments are JSON already. -/
def itemChecks (name : String) : Except String Unit × ToolCounts :=
  checkGates l.cfg l.tools l.per_tool_counts (fixupToolName name l.cfg.specs)

/-- What the environment returns for an item. -/
structure ItemInput where
  /-- How the insert of the assistant message ends. -/
  push : Insert := .stored
  output : String := ""
  new_tool : Option String := none
  /-- How the insert of the result, or of the final text, ends. -/
  insert : Insert := .stored

/-- A tool call: it is answered by an error, or it is dispatched. -/
def callItem (b : Batch) (id called : String) (d : ItemInput) : Loop × Thread × Option Batch :=
  match l.pushAssistant t { b with has_tool_call := true } d.push with
  | (l, t, none) => ({ l with tool_call_count := l.tool_call_count + 1, phase := .done }, t, none)
  | (l, t, some b) =>
    let name := fixupToolName called l.cfg.specs
    match l.itemChecks called with
    | (.error error, counts) =>
      ({ l.reject name ⟨id, called, ""⟩ [] counts error with phase := .call }, t, some b)
    | (.ok (), counts) =>
      let (l, t) := l.dispatch t name ⟨id, called, ""⟩ [] counts d.output d.new_tool d.insert
      match d.insert with
      | .aborted => (l, t, none)
      | _ => ({ l with phase := .call }, t, some b)

/-- The final text; a loop that cannot store it ends. -/
def textItem (b : Batch) (text : String) (d : ItemInput) : Loop × Thread × Option Batch :=
  let row : NewMessage :=
    { role := .assistant, content := some text, agent_name := l.cfg.agent_name }
  match d.insert with
  | .stored => (l, (d.insert.run t row).1, some b)
  | _ => ({ l with phase := .done }, (d.insert.run t row).1, none)

/-- After the last item: the context after tool calls, another try after an empty response, or
the end. -/
def finish (b : Batch) : Loop :=
  if b.has_tool_call then { l with phase := .afterTools }
  else if b.content.isEmpty ∧ l.empty_retries < 2 then
    { l with empty_retries := l.empty_retries + 1, phase := .poll }
  else { l with phase := .done }

end Loop

/-! ### The system -/

/-- The system of the streaming loop, and the response that is being processed. -/
structure SendSystem where
  sys : System
  batch : Option Batch := none

def SendSystem.init (account : Option UsageDaily) : SendSystem where
  sys := .init account

open Loop in
inductive SendAct where
  /-- A step of another party, or one that both loops have. -/
  | shared (a : Act)
  | complete (cwc : Option (List ChatMessage)) (dbFails : Bool) (uuid : String)
      (result : Except LlmError CompletionResponse)
  | item (d : ItemInput)
  | finish

/-- The steps of the streaming loop that receive a response are not shared, and its hint is not
given. -/
def Act.isShared : Act → Bool
  | .start _ _ hint _ _ => hint = ""
  | .loop (.callLlm ..) | .loop (.toolCall ..) => false
  | _ => true

namespace SendSystem

/-- The loop, its thread and its batch after a step. -/
def next (s : SendSystem) (r : Loop × Thread × Option Batch) : SendSystem where
  sys := s.sys.next (r.1, r.2.1)
  batch := r.2.2

def itemStep (s : SendSystem) (l : Loop) (b : Batch) (d : Loop.ItemInput) : Option SendSystem :=
  match b.items with
  | [] => none
  | .toolCall id name _ :: items =>
    some (s.next (l.callItem s.sys.thread { b with items := items } id name d))
  | .finalText text :: items =>
    some (s.next (l.textItem s.sys.thread { b with items := items } text d))

def step (s : SendSystem) : SendAct → Option SendSystem
  | .shared a =>
    if a.isShared then (s.sys.step a).map fun sys => { s with sys := sys } else none
  | .complete cwc dbFails uuid result =>
    match s.sys.loop, s.batch with
    | some l, none =>
      match l.phase with
      | .call =>
        let (l, account, batch) := l.complete s.sys.account cwc dbFails uuid result
        some ⟨⟨s.sys.thread, account, some l⟩, batch⟩
      | _ => none
    | _, _ => none
  | .item d =>
    match s.sys.loop, s.batch with
    | some l, some b => s.itemStep l b d
    | _, _ => none
  | .finish =>
    match s.sys.loop, s.batch with
    | some l, some b =>
      if b.items.isEmpty then some ⟨s.sys.next (l.finish b, s.sys.thread), none⟩ else none
    | _, _ => none

end SendSystem

end Arbeiterfarm.Agents
