import Arbeiterfarm.Core.Bytes
import Arbeiterfarm.Core.JsonMap
import Arbeiterfarm.Foundation.FileTree
import Arbeiterfarm.Jobs.InputArtifacts
import Arbeiterfarm.Jobs.Worker
import Arbeiterfarm.Tools.FileStrings
import Arbeiterfarm.Tools.Unpack

/-!
# Tools in a process of their own

A tool may be another program. The worker sends it an envelope, and the program answers with a
result and with files in a directory, which the worker puts into the storage. The program is not
trusted: it may answer anything, and leave any files and links behind.
-/

namespace Arbeiterfarm.Jobs.Oop

open Foundation Tools.Unpack

/-! ### The protocol -/

structure OopArtifact where
  id : Uuid
  sha256 : String
  filename : String
  storage_path : String
  size_bytes : ℕ
  mime_type : Option String
  deriving DecidableEq, Repr

structure OopContext where
  project_id : Uuid
  tool_run_id : Uuid
  scratch_dir : String
  artifacts : List OopArtifact
  actor_user_id : Option Uuid
  extra : Json
  deriving DecidableEq, Repr

structure OopEnvelope where
  tool_name : String
  tool_version : ℕ
  input : Json
  context : OopContext
  deriving DecidableEq, Repr

structure TextLibs where
  showUuid : Uuid → String
  parseUuid : String → Option Uuid
  /-- `serde_json::to_string`. -/
  print : Json → String
  /-- `serde_json::from_slice`, or the text of the error. -/
  parse : List UInt8 → Except String Json
  /-- The text of the error when a value is not one of the type that is read. -/
  mismatch : Json → String
  /-- `String::from_utf8_lossy`. -/
  lossy : List UInt8 → String

section

variable (libs : TextLibs)

def OopArtifact.toJson (a : OopArtifact) : Json :=
  .obj [("id", .str (libs.showUuid a.id)), ("sha256", .str a.sha256),
    ("filename", .str a.filename), ("storage_path", .str a.storage_path),
    ("size_bytes", .num (.int a.size_bytes)), ("mime_type", optionalStr a.mime_type)]

def OopContext.toJson (c : OopContext) : Json :=
  .obj ([("project_id", .str (libs.showUuid c.project_id)),
      ("tool_run_id", .str (libs.showUuid c.tool_run_id)),
      ("scratch_dir", .str c.scratch_dir),
      ("artifacts", .arr (c.artifacts.map (OopArtifact.toJson libs)))] ++
    (c.actor_user_id.map fun id => ("actor_user_id", Json.str (libs.showUuid id))).toList ++
    [("extra", c.extra)])

def OopEnvelope.toJson (e : OopEnvelope) : Json :=
  .obj [("tool_name", .str e.tool_name), ("tool_version", .num (.int e.tool_version)),
    ("input", e.input), ("context", e.context.toJson libs)]

def readUuid (v : Json) : Option Uuid := v.asStr.bind libs.parseUuid

def readU32 (v : Json) : Option ℕ := v.asU64.filter (· < 4294967296)

def OopArtifact.ofJson (v : Json) : Option OopArtifact := do
  let v ← v.asRecord ["id", "sha256", "filename", "storage_path", "size_bytes", "mime_type"] 6
  let id ← (v.get "id").bind (readUuid libs)
  let sha256 ← v.strField "sha256"
  let filename ← v.strField "filename"
  let storage_path ← v.strField "storage_path"
  let size_bytes ← v.u64Field "size_bytes"
  let mime_type ← v.optionalField "mime_type" Json.asStr
  some ⟨id, sha256, filename, storage_path, size_bytes, mime_type⟩

def OopContext.ofJson (v : Json) : Option OopContext := do
  let v ← v.asRecord
    ["project_id", "tool_run_id", "scratch_dir", "artifacts", "actor_user_id", "extra"] 4
  let project_id ← (v.get "project_id").bind (readUuid libs)
  let tool_run_id ← (v.get "tool_run_id").bind (readUuid libs)
  let scratch_dir ← v.strField "scratch_dir"
  let artifacts ← (v.get "artifacts").bind (Json.readList (OopArtifact.ofJson libs))
  let actor_user_id ← v.optionalField "actor_user_id" (readUuid libs)
  let extra ← v.fieldOr "extra" some .null
  some ⟨project_id, tool_run_id, scratch_dir, artifacts, actor_user_id, extra⟩

def OopEnvelope.ofJson (v : Json) : Option OopEnvelope := do
  let v ← v.asRecord ["tool_name", "tool_version", "input", "context"] 4
  let tool_name ← v.strField "tool_name"
  let tool_version ← (v.get "tool_version").bind readU32
  let input ← v.get "input"
  let context ← (v.get "context").bind (OopContext.ofJson libs)
  some ⟨tool_name, tool_version, input, context⟩

end

/-! ### The program -/

/-- The tools of the program that comes with the worker, and what two of them find. -/
structure FileTools where
  info : OopArtifact → OopResult
  read_range : OopArtifact → Json → OopResult
  hexdump : OopArtifact → Json → OopResult
  /-- What reading a file gives. -/
  content : String → Except String (List UInt8)
  /-- Whether a file can be written into a directory. -/
  writable : String → String → Bool
  regexNew : String → Except String (String → Bool)

/-- `file_strings::execute` -/
def FileTools.strings (tools : FileTools) (artifact : OopArtifact) (input : Json)
    (scratch_dir : String) : OopResult :=
  (Tools.fileStrings (tools.content artifact.storage_path)
    (tools.writable scratch_dir "strings.json") artifact.filename input).1

/-- `file_grep::execute` -/
def FileTools.grep (tools : FileTools) (artifact : OopArtifact) (input : Json)
    (scratch_dir : String) : OopResult :=
  Tools.execute tools.regexNew (tools.content artifact.storage_path)
    (tools.writable scratch_dir "grep_results.json") artifact.filename input

def dispatch (tools : FileTools) (e : OopEnvelope) : OopResult :=
  match e.context.artifacts with
  | [] => .error "no_artifact" "no artifacts provided in context" false
  | artifact :: _ =>
    match e.tool_name with
    | "file.info" => tools.info artifact
    | "file.read_range" => tools.read_range artifact e.input
    | "file.strings" => tools.strings artifact e.input e.context.scratch_dir
    | "file.hexdump" => tools.hexdump artifact e.input
    | "file.grep" => tools.grep artifact e.input e.context.scratch_dir
    | other => .error "unknown_tool" ("unknown tool: " ++ other) false

/-- What the program writes, with what it reads. -/
def executorMain (libs : TextLibs) (tools : FileTools) (stdin : String) : String :=
  let refused (e : String) : OopResult :=
    .error "parse_error" ("failed to parse envelope: " ++ e) false
  let result := match libs.parse (utf8 stdin.toList) with
    | .error e => refused e
    | .ok v =>
      match OopEnvelope.ofJson libs v with
      | some envelope => dispatch tools envelope
      | none => refused (libs.mismatch v)
  libs.print (responseJson result) ++ "\n"

/-! ### Starting the program -/

/-- An artifact in the context of a run. -/
structure Artifact extends ArtifactRef where
  filename : String
  size_bytes : ℕ
  mime_type : Option String
  source_tool_run_id : Option Uuid
  deriving DecidableEq, Repr

structure ToolContext where
  project_id : Uuid
  tool_run_id : Uuid
  actor_user_id : Option Uuid
  artifacts : List Artifact
  scratch_dir : String
  tool_config : Json
  use_oaie : Bool
  deriving DecidableEq, Repr

inductive SandboxProfile where
  | NoNetReadOnly
  | NoNetReadOnlyTmpfs
  | PrivateLoopback
  | NetEgressAllowlist
  | Trusted
  deriving DecidableEq, Repr

def SandboxProfile.debug : SandboxProfile → String
  | .NoNetReadOnly => "NoNetReadOnly"
  | .NoNetReadOnlyTmpfs => "NoNetReadOnlyTmpfs"
  | .PrivateLoopback => "PrivateLoopback"
  | .NetEgressAllowlist => "NetEgressAllowlist"
  | .Trusted => "Trusted"

/-- What the execution reads of the policy of a tool. -/
structure OopPolicy where
  sandbox : SandboxProfile
  max_output_bytes : ℕ
  max_produced_artifacts : ℕ
  deriving DecidableEq, Repr

inductive Launcher where
  | direct
  | oaie
  | bwrap
  deriving DecidableEq, Repr

/-- What is there to start the program with. -/
structure Launchers where
  oaie_available : Bool
  bwrap_available : Bool
  /-- `AF_ALLOW_UNSANDBOXED` is set. -/
  allow_unsandboxed : Bool
  deriving DecidableEq, Repr

def toolError (code message : String) : ToolError := ⟨code, message, false, .null⟩

def chooseLauncher (l : Launchers) (tool_name : String) (sandbox : SandboxProfile)
    (use_oaie : Bool) : Except ToolError Launcher :=
  if sandbox = .Trusted then .ok .direct
  else if use_oaie && l.oaie_available then .ok .oaie
  else if l.bwrap_available then .ok .bwrap
  else if l.allow_unsandboxed then .ok .direct
  else .error (toolError "sandbox_unavailable" ("No sandbox available for tool '" ++ tool_name ++
    "' (sandbox: " ++ sandbox.debug ++
      "). Install bubblewrap, use --oaie, or set AF_ALLOW_UNSANDBOXED=1 to override."))

def isSimple (context_extra : Json) : Bool := context_extra.strField "protocol" = some "simple"

/-- The extra data of the program, with the data of the invocation. -/
def mergeExtra (context_extra tool_config : Json) : Json :=
  match context_extra, tool_config with
  | .obj fields, .obj config => .obj (Json.insertAll fields config)
  | extra, _ => extra

def envelopeOf (context_extra : Json) (tool_name : String) (tool_version : ℕ) (input : Json)
    (ctx : ToolContext) : OopEnvelope where
  tool_name
  tool_version
  input
  context := {
    project_id := ctx.project_id
    tool_run_id := ctx.tool_run_id
    scratch_dir := ctx.scratch_dir
    artifacts := ctx.artifacts.map fun a =>
      ⟨a.id, a.sha256, a.filename, a.storage_path, a.size_bytes, a.mime_type⟩
    actor_user_id := ctx.actor_user_id
    extra := mergeExtra context_extra ctx.tool_config }

/-- The input with the paths of the artifacts, for programs that read no envelope. -/
def simpleInput (libs : TextLibs) (context_extra input : Json) (ctx : ToolContext) : Json :=
  match (context_extra.get "artifact_schema_paths").bind Json.asArray with
  | some paths => injectArtifactPaths libs.parseUuid (ctx.artifacts.map (·.toArtifactRef)) input
      (paths.filterMap Json.asStr)
  | none => input

structure ProcessOutput where
  stdout : List UInt8
  stderr : List UInt8
  deriving DecidableEq, Repr

/-! ### Files and rows -/

/-- The files of the worker's machine, once the program has ended. There are no devices and pipes
among them. -/
structure Files where
  root : FileTree (List Char) (List UInt8)
  cwd : List (List Char)
  plain : root.Plain cwd
  /-- The sizes that directories have. -/
  dirSize : List (List Char) → ℕ := fun _ => 4096
  /-- The paths of which the system does not tell the sizes. -/
  statFails : List (List Char) → Bool := fun _ => false
  /-- The paths that cannot be read. -/
  readFails : List (List Char) → Bool := fun _ => false
  /-- The texts of the errors of the system. -/
  osError : String

def pathSteps (path : List Char) : List (PathStep (List Char)) :=
  (path.splitOn '/').map fun part =>
    if part = [] ∨ part = ['.'] then .stay else if part = ['.', '.'] then .up else .down part

/-- A path is followed through at most 40 links. -/
def Files.canonicalize (fs : Files) (path : List Char) : Option (List (List Char)) :=
  if path = [] then none
  else fs.root.resolve 40 (if path.head? = some '/' then [] else fs.cwd) (pathSteps path)

/-- The file at a path that is already canonical. -/
def Files.openAt (fs : Files) (path : List (List Char)) :
    Option (FileTree (List Char) (List UInt8)) :=
  (fs.root.resolve 40 [] (path.map .down)).bind fs.root.walk

/-- `fs::metadata`: the size of what is at a canonical path. -/
def Files.size (fs : Files) (path : List (List Char)) : Option ℕ :=
  if fs.statFails path then none
  else
    match fs.openAt path with
    | some (.file data) => some data.length
    | some (.dir _)     => some (fs.dirSize path)
    | _                 => none

/-- `fs::read` -/
def Files.read (fs : Files) (path : List (List Char)) : Option (List UInt8) :=
  if fs.readFails path then none
  else
    match fs.openAt path with
    | some (.file data) => some data
    | _                 => none

structure ArtifactRow where
  id : Uuid
  project_id : Uuid
  sha256 : String
  filename : String
  mime_type : Option String
  source_tool_run_id : Option Uuid
  description : Option String
  deriving DecidableEq, Repr

structure EmbedRow where
  project_id : Uuid
  chunks_artifact_id : Uuid
  source_artifact_id : Option Uuid
  tool_name : String
  deriving DecidableEq, Repr

/-- What the worker writes. -/
structure Store where
  blobs : List (List UInt8)
  artifacts : List ArtifactRow
  embed_queue : List EmbedRow
  deriving DecidableEq, Repr

/-- How the storage and the database answer for a file: the blob is not stored, the row is not
created, or it is created with this id, and then an embedding may be enqueued. -/
inductive Answer where
  | storageError (e : String)
  | dbError (e : String)
  | created (id : Uuid) (enqueued : Bool)
  deriving DecidableEq, Repr

/-- The name without its extension. -/
def nameStem (name : String) : String :=
  match name.toList.reverse.dropWhile (· ≠ '.') with
  | _ :: c :: before => String.ofList (c :: before).reverse
  | _ => name

/-- The name of the sample, which is the first artifact that no tool has produced. -/
def parentSampleStem (artifacts : List Artifact) : Option String :=
  (artifacts.find? fun a => a.source_tool_run_id.isNone).map fun a => nameStem a.filename

/-- The name of the row of a produced file. -/
def storedFilename (artifacts : List Artifact) (filename : String) : String :=
  match parentSampleStem artifacts with
  | some stem => stem ++ "_" ++ filename
  | none => filename

section

variable (sha256 : List UInt8 → String) (fs : Files) (ctx : ToolContext) (tool_name : String)
  (max_file_bytes : ℕ)

/-- The bytes of a file that is produced. -/
def readProduced (pf : ProducedFile) : Except ToolError (List UInt8) :=
  let rel_path := pf.path.toList
  if rel_path.head? = some '/' then
    .error (toolError "path_traversal" ("produced file path must be relative: " ++ pf.path))
  else if .parentDir ∈ pathComponents rel_path then
    .error (toolError "path_traversal" ("produced file path must not contain '..': " ++ pf.path))
  else
    match fs.canonicalize (joinPath ctx.scratch_dir.toList rel_path) with
    | none => .error (toolError "io_error" ("failed to resolve produced file path: " ++ fs.osError))
    | some canonical =>
      match fs.canonicalize ctx.scratch_dir.toList with
      | none => .error (toolError "io_error" ("failed to resolve scratch dir: " ++ fs.osError))
      | some canonical_scratch =>
        if ¬ canonical_scratch <+: canonical then
          .error (toolError "path_traversal" ("produced file escapes scratch dir: " ++
            String.ofList (canonical.flatMap ('/' :: ·))))
        else
          match fs.size canonical with
          | none => .error (toolError "io_error" ("failed to stat produced file: " ++ fs.osError))
          | some size =>
            if size > max_file_bytes then
              .error (toolError "limit_exceeded" ("produced file '" ++ pf.filename ++ "' is " ++
                toString size ++ " bytes, max allowed is " ++ toString max_file_bytes))
            else
              match fs.read canonical with
              | none =>
                .error (toolError "io_error" ("failed to read produced file: " ++ fs.osError))
              | some data => .ok data

def ingestProducedFile (pf : ProducedFile) (answer : Answer) (s : Store) :
    Except ToolError Uuid × Store :=
  match readProduced fs ctx max_file_bytes pf with
  | .error e => (.error e, s)
  | .ok data =>
    match answer with
    | .storageError e =>
      (.error (toolError "storage_error" ("failed to store produced file: " ++ e)), s)
    | .dbError e =>
      (.error (toolError "db_error" ("failed to create artifact record: " ++ e)),
        { s with blobs := s.blobs ++ [data] })
    | .created id _ =>
      (.ok id, { s with
        blobs := s.blobs ++ [data]
        artifacts := s.artifacts ++ [⟨id, ctx.project_id, sha256 data,
          storedFilename ctx.artifacts pf.filename, pf.mime_type, some ctx.tool_run_id,
          pf.description⟩] })

/-- The chunks of a document are enqueued to be embedded. -/
def enqueueChunks (pf : ProducedFile) (id : Uuid) (answer : Answer) (s : Store) : Store :=
  match answer with
  | .created _ true =>
    if pf.filename = "chunks.json" ∧ "doc.".toList <+: tool_name.toList then
      { s with embed_queue := s.embed_queue ++
        [⟨ctx.project_id, id, (ctx.artifacts.head?).map (·.id), tool_name⟩] }
    else s
  | _ => s

/-- One file after the other; a file that cannot be ingested is left out. -/
def ingestAll (answers : ℕ → Answer) : ℕ → List ProducedFile → Store → List Uuid × Store
  | _, [], s => ([], s)
  | i, pf :: files, s =>
    match ingestProducedFile sha256 fs ctx max_file_bytes pf (answers i) s with
    | (.ok id, s) =>
      let (ids, s) := ingestAll answers (i + 1) files
        (enqueueChunks ctx tool_name pf id (answers i) s)
      (id :: ids, s)
    | (.error _, s) => ingestAll answers (i + 1) files s

end

/-! ### The execution -/

/-- A result with the artifacts that were produced. -/
structure RunResult where
  result : ToolResult
  produced_artifacts : List Uuid
  deriving DecidableEq, Repr

section

variable (libs : TextLibs) (sha256 : List UInt8 → String)

def toolResult (output_json : Json) (stderr : List UInt8) : ToolResult where
  kind := .inlineJson
  output_json
  stdout := none
  stderr := if stderr = [] then none else some (libs.lossy stderr)

def enrich (output_json : Json) (ids : List Uuid) : Json :=
  match ids, output_json with
  | _ :: _, .obj fields => .obj (Json.insertField "produced_artifact_ids"
      (.arr (ids.map fun id => .str (libs.showUuid id))) fields)
  | _, output_json => output_json

def parseSimpleResponse (output : ProcessOutput) : Except ToolError RunResult :=
  match libs.parse output.stdout with
  | .error e => .error (toolError "parse_error" ("failed to parse simple tool output: " ++ e ++
      "; stderr: " ++ libs.lossy output.stderr))
  | .ok v => .ok ⟨toolResult libs v output.stderr, []⟩

/-- What the worker makes of the result of a program. -/
def conclude (fs : Files) (ctx : ToolContext) (tool_name : String) (policy : Option OopPolicy)
    (pool : Bool) (answers : ℕ → Answer) (stderr : List UInt8) (s : Store) :
    OopResult → Except ToolError RunResult × Store
  | .error code message retryable => (.error ⟨code, message, retryable, .null⟩, s)
  | .ok output produced_files =>
    let max_artifacts := (policy.map (·.max_produced_artifacts)).getD 16
    let max_file_bytes := (policy.map (·.max_output_bytes)).getD 67108864
    if produced_files.length > max_artifacts then
      (.error (toolError "limit_exceeded" ("tool produced " ++ toString produced_files.length ++
        " files, max allowed is " ++ toString max_artifacts)), s)
    else
      let (ids, s) := if pool then
          ingestAll sha256 fs ctx tool_name max_file_bytes answers 0 produced_files s
        else ([], s)
      (.ok ⟨toolResult libs (enrich libs output ids) stderr, ids⟩, s)

/-- `spawn` is the program with its launcher, from what it reads to what it writes; `fs` are the
files when it has ended. -/
def executeOop (l : Launchers) (spawn : Launcher → String → Except ToolError ProcessOutput)
    (fs : Files) (answers : ℕ → Answer) (context_extra : Json) (tool_name : String)
    (tool_version : ℕ) (input : Json) (ctx : ToolContext) (policy : Option OopPolicy)
    (pool : Bool) (s : Store) : Except ToolError RunResult × Store :=
  let stdin := if isSimple context_extra then libs.print (simpleInput libs context_extra input ctx)
    else libs.print ((envelopeOf context_extra tool_name tool_version input ctx).toJson libs)
  let sandbox := (policy.map (·.sandbox)).getD .NoNetReadOnly
  match (chooseLauncher l tool_name sandbox ctx.use_oaie).bind fun launcher =>
      spawn launcher stdin with
  | .error e => (.error e, s)
  | .ok output =>
    if isSimple context_extra then (parseSimpleResponse libs output, s)
    else
      let refused (e : String) : ToolError := toolError "parse_error"
        ("failed to parse OOP response: " ++ e ++ "; stderr: " ++ libs.lossy output.stderr)
      match libs.parse output.stdout with
      | .error e => (.error (refused e), s)
      | .ok v =>
        match readResponse v with
        | none => (.error (refused (libs.mismatch v)), s)
        | some result =>
          conclude libs sha256 fs ctx tool_name policy pool answers output.stderr s result

end

end Arbeiterfarm.Jobs.Oop
