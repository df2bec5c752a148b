import Arbeiterfarm.Core.Json
import Arbeiterfarm.Core.Text
import Arbeiterfarm.Foundation.Base64
import Arbeiterfarm.Jobs.Worker
import Mathlib.Data.List.Basic

/-!
# The sandbox gateway

Samples are run in one virtual machine. The tools send requests to the gateway, every connection is
a task of its own, and the tasks take turns: with the lock, a task restores the snapshot, sends the
sample to the agent in the machine and waits for the trace. The agent takes one connection at a
time. A task that does not wait any longer gives the lock away while its sample may still be
running.
-/

namespace Arbeiterfarm.Tools.Sandbox

open Foundation Jobs

/-! ### The guest -/

structure RunInput where
  sample : List UInt8
  hook_script : String
  timeout_secs : ℕ
  args : Option (List String)
  deriving DecidableEq, Repr

/-- What `run_with_frida` returns; the trace is what the script exports. -/
structure Run where
  trace : Json
  process_tree : List Json
  errors : List String
  deriving DecidableEq, Repr

/-- The virtual machine: a number stands for all that is not determined. -/
structure Guest (G : Type) where
  snapshot : G
  /-- What it does by itself. -/
  idle : G → ℕ → G
  /-- `write_sample` and `run_with_frida`, or the text of an exception. -/
  run : G → RunInput → ℕ → Except String Run × G
  screen : G → List UInt8

def encodeBase64 (bytes : List UInt8) : String := String.ofList (Base64.encode bytes)

structure SandboxLibs where
  /-- `base64.b64decode` in the guest, which is not strict, or the text of an exception. -/
  b64decode : String → Except String (List UInt8)
  /-- The script in `hooks.rs`. -/
  default_hook_script : String

/-- What the gateway sends to the agent. -/
structure AgentRequest where
  cmd : String
  sample_b64 : String
  hook_script : String
  timeout : ℕ
  args : Option (List String)
  deriving DecidableEq, Repr

structure AgentResponse where
  status : String
  trace : List Json
  process_tree : List Json
  errors : List String
  data : Json
  deriving DecidableEq, Repr

section

variable {G : Type} (libs : SandboxLibs) (guest : Guest G) (g : G) (req : AgentRequest)
  (choice : ℕ)

def agentError (msg : String) : Json :=
  .obj [("status", .str "error"), ("errors", .arr [.str msg])]

def handleTrace : Json × G :=
  if req.sample_b64 = "" then (agentError "missing sample_b64", g)
  else
    match libs.b64decode req.sample_b64 with
    | .error e => (agentError ("agent error: " ++ e), g)
    | .ok sample =>
      match guest.run g ⟨sample, req.hook_script, min req.timeout 120, req.args⟩ choice with
      | (.error e, g') => (agentError ("agent error: " ++ e), g')
      | (.ok run, g') =>
        (.obj [("status", .str (if run.errors = [] then "ok" else "partial")),
          ("trace", run.trace),
          ("process_tree", .arr run.process_tree),
          ("errors", .arr (run.errors.map .str))], g')

/-- What the agent does with a request, and what it answers. -/
def handleClient : Json × G :=
  if req.cmd = "trace" ∨ req.cmd = "hook" then handleTrace libs guest g req choice
  else (agentError ("unknown command: " ++ req.cmd), g)

end

def parseAgentResponse (v : Json) : Option AgentResponse := do
  let status ← v.strField "status"
  let trace ← v.fieldOr "trace" Json.asArray []
  let process_tree ← v.fieldOr "process_tree" Json.asArray []
  let errors ← v.fieldOr "errors" (Json.readList Json.asStr) []
  let data ← v.fieldOr "data" some .null
  some ⟨status, trace, process_tree, errors, data⟩

/-! ### The protocol -/

structure GatewayRequest where
  action : String
  sample_b64 : Option String
  hook_script : Option String
  timeout_secs : Option ℕ
  args : Option (List String)
  deriving DecidableEq, Repr

structure GatewayResponse where
  ok : Bool
  data : Option Json
  error : Option String
  message : Option String
  deriving DecidableEq, Repr

def errorResponse (code client_msg : String) : GatewayResponse :=
  ⟨false, none, some code, some client_msg⟩

def timeoutSecs (input : Json) : ℕ := (input.u64Field "timeout_secs").getD 30

def argsOf (input : Json) : Option (List String) :=
  ((input.get "args").bind Json.asArray).map fun arr => arr.filterMap Json.asStr

/-- The request of `sandbox.trace`. -/
def traceRequest (sample_bytes : List UInt8) (input : Json) : GatewayRequest :=
  ⟨"trace", some (encodeBase64 sample_bytes), none, some (timeoutSecs input), argsOf input⟩

/-- The request of `sandbox.hook`. -/
def hookRequest (sample_bytes : List UInt8) (hook_script : String) (input : Json) :
    GatewayRequest :=
  ⟨"hook", some (encodeBase64 sample_bytes), some hook_script, some (timeoutSecs input),
    argsOf input⟩

/-- What the tools make of an answer: the data, or an error. -/
def gatewayCall (resp : GatewayResponse) : Except ToolError Json :=
  if resp.ok then .ok (resp.data.getD .null)
  else
    let error := resp.error.getD "unknown"
    .error ⟨error, resp.message.getD "gateway error", error = "vm_error" || error = "agent_error",
      .null⟩

/-- The file that `sandbox.trace` stores. -/
def traceResult (data : Json) : Json :=
  .obj [("trace", (data.get "trace").getD (.arr [])),
    ("process_tree", (data.get "process_tree").getD (.arr [])),
    ("errors", (data.get "errors").getD (.arr []))]

/-- The file that `sandbox.hook` stores. -/
def hookResult (data : Json) : Json :=
  .obj [("trace", (data.get "trace").getD (.arr [])),
    ("process_tree", (data.get "process_tree").getD (.arr [])),
    ("errors", (data.get "errors").getD (.arr [])),
    ("data", (data.get "data").getD .null)]

/-! ### The machine and the gateway -/

inductive AgentState where
  | listening
  /-- It handles the connection of a task. -/
  | running (t : ℕ) (req : AgentRequest)
  deriving DecidableEq, Repr

structure Vm (G : Type) where
  state : G
  agent : AgentState
  /-- The connections that have not been accepted yet. -/
  queue : List (ℕ × AgentRequest)
  /-- What the agent has answered to the tasks. -/
  replies : List (ℕ × Json)

inductive TaskPhase where
  | received
  | waiting (req : AgentRequest)
  | locked (req : AgentRequest)
  | restored (req : AgentRequest)
  | sent (req : AgentRequest)
  | dumping
  | dumped
  | answered (resp : GatewayResponse)
  deriving DecidableEq, Repr

structure Task where
  request : GatewayRequest
  phase : TaskPhase
  deriving DecidableEq, Repr

structure SandboxGateway (G : Type) where
  vm : Vm G
  vm_lock : Option ℕ
  tasks : List Task
  /-- `/tmp/af_sandbox_screen.ppm` -/
  screen : Option (List UInt8)

inductive SandboxEvent where
  | arrive (request : GatewayRequest)
  /-- The request is checked, up to the lock. -/
  | check (t : ℕ)
  | lock (t : ℕ)
  /-- The monitor is told to load the snapshot; it may do so, and it may answer. -/
  | restore (t : ℕ) (loaded : Bool) (reply : Option Json)
  /-- The request is sent to the agent, if there is a connection. -/
  | send (t : ℕ) (connected : Bool)
  /-- The task reads what the agent has answered, if that can be parsed. -/
  | receive (t : ℕ) (garbled : Bool)
  /-- The task does not wait any longer, or the connection is lost. -/
  | timeout (t : ℕ)
  /-- The monitor writes the screen to the file. -/
  | screendump (t : ℕ) (written : Bool)
  | readScreen (t : ℕ)
  /-- The virtual machine does something by itself. -/
  | idle (choice : ℕ)
  /-- The agent accepts a connection. -/
  | accept
  | finish (choice : ℕ)
  deriving DecidableEq, Repr

/-- `check_hmp_response`: no error, and no text that says so. -/
def checkHmpResponse (resp : Json) : Bool :=
  (resp.get "error").isNone &&
    match (resp.get "return").bind Json.asStr with
    | some ret => ret.isEmpty || (splitAround "Error".toList ret.toList).isNone
    | none => true

/-- `handle_trace` and `handle_hook` up to the lock. -/
def prepare (libs : SandboxLibs) (request : GatewayRequest) :
    Except GatewayResponse AgentRequest :=
  let sample_b64 := request.sample_b64.getD ""
  let hook_script := if request.action = "hook" then request.hook_script.getD ""
    else libs.default_hook_script
  if sample_b64 = "" then .error (errorResponse "error" "missing sample_b64")
  else if request.action = "hook" ∧ hook_script = "" then
    .error (errorResponse "error" "missing hook_script")
  else
    match Base64.decode sample_b64.toList with
    | none => .error (errorResponse "error" "invalid sample data")
    | some sample_bytes =>
      .ok ⟨request.action, encodeBase64 sample_bytes, hook_script,
        min (request.timeout_secs.getD 30) 120, request.args⟩

/-- What a request needs of the machine: a run, or the screen. -/
def processRequest (libs : SandboxLibs) (request : GatewayRequest) :
    Except GatewayResponse (Option AgentRequest) :=
  if request.action = "trace" ∨ request.action = "hook" then (prepare libs request).map some
  else if request.action = "screenshot" then .ok none
  else .error (errorResponse "error" "invalid request")

/-- The answer to a task, from that of the agent. -/
def respond (action : String) (reply : Option AgentResponse) : GatewayResponse :=
  match reply with
  | none => errorResponse "agent_error" "failed to communicate with guest agent"
  | some resp =>
    if resp.status ≠ "ok" then errorResponse "agent_error" (action ++ " execution failed")
    else
      ⟨true, some (.obj ([("trace", .arr resp.trace), ("process_tree", .arr resp.process_tree),
        ("errors", .arr (resp.errors.map .str))] ++
          if action = "hook" then [("data", resp.data)] else [])), none, none⟩

variable {G : Type} (libs : SandboxLibs) (guest : Guest G)

namespace SandboxGateway

def new : SandboxGateway G := ⟨⟨guest.snapshot, .listening, [], []⟩, none, [], none⟩

variable (s : SandboxGateway G)

def setPhase (t : ℕ) (task : Task) (phase : TaskPhase) : SandboxGateway G :=
  { s with tasks := s.tasks.set t { task with phase } }

/-- The lock is given away with the answer. -/
def release (t : ℕ) (task : Task) (resp : GatewayResponse) : SandboxGateway G :=
  { s with vm_lock := none }.setPhase t task (.answered resp)

def load : SandboxGateway G :=
  { s with vm := { s.vm with state := guest.snapshot, agent := .listening, queue := [] } }

/-- A step of the task, if it is in the phase that the event is about. -/
def stepTask (t : ℕ) (task : Task) : SandboxEvent → Option (SandboxGateway G)
  | .check _ =>
    if task.phase = .received then
      some (match processRequest libs task.request with
        | .error resp => s.setPhase t task (.answered resp)
        | .ok (some req) => s.setPhase t task (.waiting req)
        | .ok none => s.setPhase t task .dumping)
    else none
  | .lock _ =>
    match task.phase, s.vm_lock with
    | .waiting req, none => some ({ s with vm_lock := some t }.setPhase t task (.locked req))
    | _, _ => none
  | .restore _ loaded reply =>
    match task.phase with
    | .locked req =>
      let s := if loaded then s.load guest else s
      some (if (reply.map checkHmpResponse).getD false then s.setPhase t task (.restored req)
        else s.release t task (errorResponse "vm_error" "failed to restore VM snapshot"))
    | _ => none
  | .send _ connected =>
    match task.phase with
    | .restored req =>
      some (if connected then
          { s with vm := { s.vm with queue := s.vm.queue ++ [(t, req)] } }.setPhase t task
            (.sent req)
        else s.release t task (respond task.request.action none))
    | _ => none
  | .receive _ garbled =>
    match task.phase, s.vm.replies.lookup t with
    | .sent _, some reply =>
      some (s.release t task
        (respond task.request.action (if garbled then none else parseAgentResponse reply)))
    | _, _ => none
  | .timeout _ =>
    match task.phase with
    | .sent _ => some (s.release t task (respond task.request.action none))
    | _ => none
  | .screendump _ written =>
    if task.phase = .dumping then
      some (if written then
          { s with screen := some (guest.screen s.vm.state) }.setPhase t task .dumped
        else s.setPhase t task (.answered (errorResponse "qmp_error" "screendump failed")))
    else none
  | .readScreen _ =>
    if task.phase = .dumped then
      some (match s.screen with
        | none =>
          s.setPhase t task (.answered (errorResponse "io_error" "failed to read screenshot"))
        | some data =>
          { s with screen := none }.setPhase t task (.answered ⟨true, some (.obj
            [("format", .str "ppm"), ("image_b64", .str (encodeBase64 data)),
              ("size_bytes", .num (.int data.length))]), none, none⟩))
    else none
  | _ => none

/-- A step of the virtual machine. -/
def stepVm (vm : Vm G) : SandboxEvent → Option (Vm G)
  | .idle choice => some { vm with state := guest.idle vm.state choice }
  | .accept =>
    match vm.agent, vm.queue with
    | .listening, (t, req) :: queue => some { vm with agent := .running t req, queue }
    | _, _ => none
  | .finish choice =>
    match vm.agent with
    | .running t req =>
      let (reply, state) := handleClient libs guest vm.state req choice
      some { vm with state, agent := .listening, replies := vm.replies ++ [(t, reply)] }
    | .listening => none
  | _ => none

end SandboxGateway

/-- The task that the event is a step of. -/
def SandboxEvent.task : SandboxEvent → Option ℕ
  | .check t | .lock t | .restore t _ _ | .send t _ | .receive t _ | .timeout t
  | .screendump t _ | .readScreen t => some t
  | .arrive _ | .idle _ | .accept | .finish _ => none

def SandboxGateway.step (s : SandboxGateway G) (e : SandboxEvent) :
    Option (SandboxGateway G) :=
  match e.task with
  | some t => s.tasks[t]?.bind fun task => s.stepTask libs guest t task e
  | none =>
    match e with
    | .arrive request => some { s with tasks := s.tasks ++ [⟨request, .received⟩] }
    | e => (stepVm libs guest s.vm e).map fun vm => { s with vm }

end Arbeiterfarm.Tools.Sandbox
