import Arbeiterfarm.Agents.ToolGating
import Arbeiterfarm.Core.JsonMap
import Arbeiterfarm.Core.Resolver
import Arbeiterfarm.Core.Text

/-!
# What a dispatched tool returns

`invoke_tool` answers discovery itself; any other tool has to be enabled, its repaired arguments
have to match its schema, and the invoker has to return a result. Whatever happens, the loop is
given a text. Both loops are run here with an environment of tools, from which the texts are
computed, in place of arbitrary texts.
-/

namespace Arbeiterfarm.Agents

open Foundation Llm

/-! ### Tools -/

/-- The result of the invoker. -/
structure ToolResult where
  output_json : Json
  produced_artifacts : List Uuid

/-- What `invoke_tool` reads and calls. The schemas and descriptions are those of the registry;
the validator and the repairs of arguments are functions of a schema. -/
structure ToolEnv where
  input_schema : String → Json
  description : String → String
  is_enabled : String → Except String Bool
  fixupArguments : Json → Json → Json
  translateArtifactIndices : List Uuid → Json → Json → Json
  validate : Json → Json → Except (List String) Unit
  /-- The corrections of artifact ids at the given paths. -/
  correctArtifactIds : List String → Json → Json
  target_artifact_id : Option Uuid
  best_artifact : Option Uuid
  artifact_index : List Uuid
  invoke : String → Json → Except String ToolResult
  toStringPretty : Json → String
  uuidText : Uuid → String

/-- The text for the model, a tool that has been discovered, and whether the call succeeded. -/
structure InvokeResult where
  output : String
  new_tool : Option String := none
  success : Bool
  deriving DecidableEq, Repr

def InvokeResult.failed (output : String) : InvokeResult where
  output := output
  success := false

namespace ToolEnv

variable (env : ToolEnv) (specs : ToolSpecRegistry)

def handleToolsDiscover (arguments : Json) : InvokeResult :=
  let tool_name := (arguments.strField "tool_name").getD ""
  let names := String.intercalate ", " specs.names
  if tool_name.isEmpty then .failed ("Error: missing 'tool_name'. Available tools: " ++ names)
  else
    match specs.getLatest tool_name with
    | some spec =>
      { output := "## " ++ spec.name ++ "\n\n" ++ env.description spec.name ++
          "\n\nInput schema:\n```json\n" ++ env.toStringPretty (env.input_schema spec.name) ++
          "\n```"
        new_tool := some spec.name
        success := true }
    | none => .failed ("Error: tool '" ++ tool_name ++ "' not found. Available tools: " ++ names)

/-- An error that says that `artifact_id` is required. -/
def missingArtifactId (errors : List String) : Bool :=
  errors.any fun e =>
    contains e.toList "\"artifact_id\"".toList && contains e.toList "required".toList

def schemaError (name : String) (errors : List String) : String :=
  "Schema validation failed for " ++ name ++ ":\n" ++ String.intercalate "\n" errors

/-- Validate the arguments. If only the artifact is missing, the target or the best artifact of
the project is taken, and the arguments are validated again. -/
def checkSchema (name : String) (arguments : Json) : Except String Json :=
  let schema := env.input_schema name
  match env.validate schema arguments with
  | .ok () => .ok arguments
  | .error errors =>
    if missingArtifactId errors ∧ (Resolver.resolveSchemaPaths schema).isEmpty = false then
      match env.target_artifact_id.or env.best_artifact with
      | some id =>
        let arguments := arguments.insert "artifact_id" (.str (env.uuidText id))
        match env.validate schema arguments with
        | .ok () => .ok arguments
        | .error errors => .error (schemaError name errors)
      | none => .error (schemaError name errors)
    else .error (schemaError name errors)

/-- The arguments that the invoker is given; a tool without a specification takes any. -/
def prepare (name : String) (arguments : Json) : Except String Json :=
  if (specs.getLatest name).isSome then
    let schema := env.input_schema name
    let arguments := env.fixupArguments arguments schema
    let arguments := env.translateArtifactIndices env.artifact_index arguments schema
    let schema_paths := Resolver.resolveSchemaPaths schema
    (env.checkSchema name arguments).map fun arguments =>
      if schema_paths.isEmpty then arguments else env.correctArtifactIds schema_paths arguments
  else .ok arguments

/-- Where the output is, if it has been stored as an artifact. -/
def redirectHint (result : ToolResult) : String :=
  if ((result.output_json.get "_redirected").bind (·.asBool)).getD false then
    match result.produced_artifacts.head? with
    | some id =>
      let ref_str := match env.artifact_index.findIdx? (· = id) with
        | some pos => "#" ++ toString (pos + 1)
        | none => "artifact:" ++ env.uuidText id
      "\n\n[Output stored as " ++ ref_str ++ ". Use file.read_range or file.grep to inspect it.]"
    | none => ""
  else ""

/-- A tool whose configuration cannot be read counts as disabled. -/
def invokeTool (name : String) (arguments : Json) : InvokeResult :=
  if name = "tools.discover" then env.handleToolsDiscover specs arguments
  else
    match env.is_enabled name with
    | .ok false => .failed ("Tool '" ++ name ++ "' is currently disabled")
    | .error e => .failed ("Tool '" ++ name ++ "' config check failed: " ++ e)
    | .ok true =>
      match env.prepare specs name arguments with
      | .error msg => .failed msg
      | .ok arguments =>
        match env.invoke name arguments with
        | .ok result =>
          { output := env.toStringPretty result.output_json ++ env.redirectHint result
            success := true }
        | .error err => .failed ("Tool error: " ++ err)

variable {env specs}

end ToolEnv

/-! ### Runs with an environment of tools -/

/-- A call that is dispatched. -/
structure Invocation where
  name : String
  arguments : Json
  deriving DecidableEq

/-- How a call ends. -/
inductive CallOutcome where
  | rejected
  | dispatched (success : Bool)
  deriving DecidableEq, Repr

def CallOutcome.failed : CallOutcome → Bool
  | .rejected => true
  | .dispatched success => !success

namespace Loop

variable (l : Loop)

/-- What is dispatched for a streamed call, if it passes the checks. -/
def invocation (call : StreamedCall) : Option Invocation :=
  match (l.checks call).1 with
  | .ok arguments => some ⟨l.toolName call, arguments⟩
  | .error _ => none

/-- What is dispatched for a tool call of a batch, if it passes the checks. -/
def itemInvocation (called : String) (arguments : Json) : Option Invocation :=
  match (l.itemChecks called).1 with
  | .ok () => some ⟨fixupToolName called l.cfg.specs, arguments⟩
  | .error _ => none

/-- A call that is rejected reaches no tool. -/
def invokeResult (env : ToolEnv) : Option Invocation → InvokeResult
  | some inv => env.invokeTool l.cfg.specs inv.name inv.arguments
  | none => .failed ""

def callOutcome (env : ToolEnv) (inv : Option Invocation) : CallOutcome :=
  match inv with
  | some _ => .dispatched (l.invokeResult env inv).success
  | none => .rejected

end Loop

/-- An action of the streaming loop; a tool call is answered by the tools. -/
inductive ToolAct where
  | tool (env : ToolEnv) (insert : Loop.Insert)
  | other (a : Act)

def Act.isToolCall : Act → Bool
  | .loop (.toolCall ..) => true
  | _ => false

namespace System

variable (s : System)

/-- The loop and the call that is processed next. -/
def nextToolCall : Option (Loop × StreamedCall) :=
  s.loop.bind fun l => match l.phase with
    | .calls call _ => some (l, call)
    | _ => none

def toolResult (env : ToolEnv) : InvokeResult :=
  match s.nextToolCall with
  | some (l, call) => l.invokeResult env (l.invocation call)
  | none => .failed ""

/-- A step in which a tool call is answered by the tools. -/
def toolStep : ToolAct → Option System
  | .tool env insert =>
    s.step (.loop (.toolCall (s.toolResult env).output (s.toolResult env).new_tool insert))
  | .other a => if a.isToolCall then none else s.step a

/-- How the call of a step ends, if it processes one. -/
def callOutcome : ToolAct → Option CallOutcome
  | .tool env _ => s.nextToolCall.map fun (l, call) => l.callOutcome env (l.invocation call)
  | .other _ => none

end System

/-- An action of the loop without streaming; a tool call is answered by the tools. -/
inductive SendToolAct where
  | item (env : ToolEnv) (push insert : Loop.Insert)
  | other (a : SendAct)

def SendAct.isItem : SendAct → Bool
  | .item _ => true
  | _ => false

namespace SendSystem

variable (s : SendSystem)

/-- The loop, and the tool call that is processed next; there is none if the assistant message
cannot be stored. -/
def nextToolCall (push : Loop.Insert) : Option (Loop × String × Json) :=
  match s.sys.loop, s.batch with
  | some l, some b =>
    match b.items with
    | .toolCall _ called arguments :: _ =>
      if b.assistant_pushed = false ∧ push = .aborted then none else some (l, called, arguments)
    | _ => none
  | _, _ => none

def toolResult (env : ToolEnv) (push : Loop.Insert) : InvokeResult :=
  match s.nextToolCall push with
  | some (l, called, arguments) => l.invokeResult env (l.itemInvocation called arguments)
  | none => .failed ""

def itemInput (env : ToolEnv) (push insert : Loop.Insert) : Loop.ItemInput where
  push := push
  output := (s.toolResult env push).output
  new_tool := (s.toolResult env push).new_tool
  insert := insert

/-- A step in which a tool call is answered by the tools. -/
def toolStep : SendToolAct → Option SendSystem
  | .item env push insert => s.step (.item (s.itemInput env push insert))
  | .other a => if a.isItem then none else s.step a

def callOutcome : SendToolAct → Option CallOutcome
  | .item env push _ => (s.nextToolCall push).map fun (l, called, arguments) =>
    l.callOutcome env (l.itemInvocation called arguments)
  | .other _ => none

end SendSystem

end Arbeiterfarm.Agents
