import Arbeiterfarm.Core.EvidenceText
import Arbeiterfarm.Jobs.OopProtocol

/-!
# The wire between the worker and a tool

What one side writes is what the other side reads, so a tool in a process of its own answers as if
it were called with the first artifact of the run.
-/

namespace Arbeiterfarm.Jobs.Oop

variable {libs : TextLibs}

/-! ### Reading back -/

lemma asU64_natCast {n : ℕ} (h : n < 18446744073709551616) :
    Json.asU64 (.num (.int n)) = some n := by
  rw [Json.asU64, if_pos (by omega), Int.toNat_natCast]

lemma readU32_natCast {n : ℕ} (h : n < 4294967296) : readU32 (.num (.int n)) = some n := by
  rw [readU32, asU64_natCast (by omega), Option.filter_some, if_pos (decide_eq_true h)]

/-- Ids are read back. -/
def TextLibs.ReadsIds (libs : TextLibs) : Prop :=
  ∀ id, libs.parseUuid (libs.showUuid id) = some id

lemma ofJson_toJson_artifact (hids : libs.ReadsIds) {a : OopArtifact}
    (hsize : a.size_bytes < 18446744073709551616) :
    OopArtifact.ofJson libs (a.toJson libs) = some a := by
  have hid : ((a.toJson libs).get "id").bind (readUuid libs) = some a.id := hids a.id
  have hfield : (a.toJson libs).get "size_bytes" = some (.num (.int a.size_bytes)) := rfl
  have hsize : (a.toJson libs).u64Field "size_bytes" = some a.size_bytes := by
    rw [Json.u64Field, hfield, Option.bind_some, asU64_natCast hsize]
  have hmime : (a.toJson libs).optionalField "mime_type" Json.asStr = some a.mime_type := by
    obtain ⟨id, sha256, filename, storage_path, size_bytes, mime_type⟩ := a
    cases mime_type <;> rfl
  have hrecord : (a.toJson libs).asRecord
      ["id", "sha256", "filename", "storage_path", "size_bytes", "mime_type"] 6 =
        some (a.toJson libs) := rfl
  unfold OopArtifact.ofJson
  rw [hrecord, Option.bind_eq_bind, Option.bind_some, hid, hsize, hmime]
  rfl

lemma ofJson_toJson_context (hids : libs.ReadsIds) {c : OopContext}
    (hsizes : ∀ a ∈ c.artifacts, a.size_bytes < 18446744073709551616) :
    OopContext.ofJson libs (c.toJson libs) = some c := by
  have hproject : ((c.toJson libs).get "project_id").bind (readUuid libs) = some c.project_id :=
    hids c.project_id
  have hrun : ((c.toJson libs).get "tool_run_id").bind (readUuid libs) = some c.tool_run_id :=
    hids c.tool_run_id
  have hartifacts : ((c.toJson libs).get "artifacts").bind
      (Json.readList (OopArtifact.ofJson libs)) = some c.artifacts :=
    Json.readList_map fun a ha => ofJson_toJson_artifact hids (hsizes a ha)
  have huser : (c.toJson libs).optionalField "actor_user_id" (readUuid libs) =
      some c.actor_user_id := by
    obtain ⟨project_id, tool_run_id, scratch_dir, artifacts, actor_user_id, extra⟩ := c
    cases actor_user_id with
    | none => rfl
    | some user => exact congrArg (Option.map some) (hids user)
  have hextra : (c.toJson libs).fieldOr "extra" some .null = some c.extra := by
    obtain ⟨project_id, tool_run_id, scratch_dir, artifacts, actor_user_id, extra⟩ := c
    cases actor_user_id <;> rfl
  have hrecord : (c.toJson libs).asRecord
      ["project_id", "tool_run_id", "scratch_dir", "artifacts", "actor_user_id", "extra"] 4 =
        some (c.toJson libs) := rfl
  unfold OopContext.ofJson
  rw [hrecord, Option.bind_eq_bind, Option.bind_some, hproject, hrun, hartifacts, huser, hextra]
  rfl

lemma ofJson_toJson_envelope (hids : libs.ReadsIds) {e : OopEnvelope}
    (hversion : e.tool_version < 4294967296)
    (hsizes : ∀ a ∈ e.context.artifacts, a.size_bytes < 18446744073709551616) :
    OopEnvelope.ofJson libs (e.toJson libs) = some e := by
  have hfield : (e.toJson libs).get "tool_version" = some (.num (.int e.tool_version)) := rfl
  have hversion : ((e.toJson libs).get "tool_version").bind readU32 = some e.tool_version := by
    rw [hfield, Option.bind_some, readU32_natCast hversion]
  have hcontext : ((e.toJson libs).get "context").bind (OopContext.ofJson libs) =
      some e.context := ofJson_toJson_context hids hsizes
  have hrecord : (e.toJson libs).asRecord ["tool_name", "tool_version", "input", "context"] 4 =
      some (e.toJson libs) := rfl
  unfold OopEnvelope.ofJson
  rw [hrecord, Option.bind_eq_bind, Option.bind_some, hversion, hcontext]
  rfl

lemma ofJson_toJson_envelopeOf (hids : libs.ReadsIds) {context_extra input : Json}
    {tool_name : String} {tool_version : ℕ} {ctx : ToolContext}
    (hversion : tool_version < 4294967296)
    (hsizes : ∀ a ∈ ctx.artifacts, a.size_bytes < 18446744073709551616) :
    OopEnvelope.ofJson libs
        ((envelopeOf context_extra tool_name tool_version input ctx).toJson libs) =
      some (envelopeOf context_extra tool_name tool_version input ctx) := by
  apply ofJson_toJson_envelope hids hversion
  intro a ha
  obtain ⟨b, hb, rfl⟩ := List.mem_map.mp ha
  exact hsizes b hb

/-! ### The call -/

/-- The program that comes with the worker, started by any launcher. -/
def fileProgram (libs : TextLibs) (tools : FileTools) (stderr : List UInt8) (_ : Launcher)
    (stdin : String) : Except ToolError ProcessOutput :=
  .ok ⟨utf8 (executorMain libs tools stdin).toList, stderr⟩

/-- The text is one of the value. -/
def TextLibs.Parses (libs : TextLibs) (text : String) (v : Json) : Prop :=
  libs.parse (utf8 text.toList) = .ok v

variable {sha256 : List UInt8 → String} {l : Launchers} {fs : Files} {answers : ℕ → Answer}
  {tools : FileTools} {stderr : List UInt8} {context_extra : Json} {tool_name : String}
  {tool_version : ℕ} {input : Json} {ctx : ToolContext} {policy : Option OopPolicy} {pool : Bool}
  {s : Store}

variable (tools) in
lemma executorMain_of_parse {stdin : String} {v : Json} {e : OopEnvelope}
    (hparse : libs.Parses stdin v) (hread : OopEnvelope.ofJson libs v = some e) :
    executorMain libs tools stdin = libs.print (responseJson (dispatch tools e)) ++ "\n" := by
  rw [TextLibs.Parses] at hparse
  simp only [executorMain, hparse, hread]

/-- The worker gets what the tool returns for the first artifact of the run, with all that the tool
reads of it. -/
theorem oop_transparent (hids : libs.ReadsIds) (hsimple : isSimple context_extra = false)
    (hversion : tool_version < 4294967296)
    (hsizes : ∀ a ∈ ctx.artifacts, a.size_bytes < 18446744073709551616)
    (henvelope : libs.Parses
      (libs.print ((envelopeOf context_extra tool_name tool_version input ctx).toJson libs))
      ((envelopeOf context_extra tool_name tool_version input ctx).toJson libs))
    (hresult : libs.Parses (libs.print (responseJson
        (dispatch tools (envelopeOf context_extra tool_name tool_version input ctx))) ++ "\n")
      (responseJson
        (dispatch tools (envelopeOf context_extra tool_name tool_version input ctx)))) :
    executeOop libs sha256 l (fileProgram libs tools stderr) fs answers context_extra tool_name
        tool_version input ctx policy pool s =
      match chooseLauncher l tool_name ((policy.map (·.sandbox)).getD .NoNetReadOnly)
        ctx.use_oaie with
      | .error e => (.error e, s)
      | .ok _ => conclude libs sha256 fs ctx tool_name policy pool answers stderr s
          (dispatch tools (envelopeOf context_extra tool_name tool_version input ctx)) := by
  have hmain := executorMain_of_parse tools henvelope
    (ofJson_toJson_envelopeOf hids hversion hsizes)
  rw [TextLibs.Parses] at hresult
  unfold executeOop
  dsimp only
  cases chooseLauncher l tool_name ((policy.map (·.sandbox)).getD .NoNetReadOnly)
      ctx.use_oaie with
  | error e => rfl
  | ok launcher =>
    rw [hsimple, if_neg Bool.false_ne_true]
    unfold fileProgram
    rw [hmain]
    simp only [Except.bind, hresult, ofJson_toJson_result, if_neg Bool.false_ne_true]

/-- A run of `file.info` for a file of three bytes. -/
def infoContext : ToolContext where
  project_id := 1
  tool_run_id := 2
  actor_user_id := none
  artifacts := [⟨⟨3, "ab", "/blobs/ab"⟩, "a.bin", 3, none, none⟩]
  scratch_dir := "/scratch/2"
  tool_config := .null
  use_oaie := false

def infoEnvelope : OopEnvelope := envelopeOf .null "file.info" 1 (.obj []) infoContext

def infoEnvelopeText : String :=
  "\x7b\"tool_name\":\"file.info\",\"tool_version\":1,\"input\":\x7b\x7d,\"context\":" ++
  "\x7b\"project_id\":\"00000000-0000-0000-0000-000000000001\"," ++
  "\"tool_run_id\":\"00000000-0000-0000-0000-000000000002\"," ++
  "\"scratch_dir\":\"/scratch/2\",\"artifacts\":[" ++
  "\x7b\"id\":\"00000000-0000-0000-0000-000000000003\",\"sha256\":\"ab\"," ++
  "\"filename\":\"a.bin\",\"storage_path\":\"/blobs/ab\",\"size_bytes\":3," ++
  "\"mime_type\":null\x7d],\"extra\":null\x7d\x7d"

def infoTools : FileTools where
  info a := .ok (.obj [("filename", .str a.filename), ("size_bytes", .num (.int a.size_bytes))]) []
  read_range _ _ := .error "io_error" "no range" false
  hexdump _ _ := .error "io_error" "no dump" false
  content _ := .ok [97, 98, 99]
  writable _ _ := true
  regexNew _ := .error "no pattern"

def infoResultText : String :=
  "\x7b\"result\":\x7b\"status\":\"ok\",\"output\":" ++
  "\x7b\"filename\":\"a.bin\",\"size_bytes\":3\x7d,\"produced_files\":[]\x7d\x7d"

def infoResult : OopResult := infoTools.info ⟨3, "ab", "a.bin", "/blobs/ab", 3, none⟩

def idLibs : TextLibs :=
  ⟨Uuid.toHyphenated, Uuid.parseHyphenated, fun _ => "", fun _ => .error "EOF", fun _ => "",
    fun _ => ""⟩

/-- The texts of the run. -/
def infoLibs : TextLibs where
  showUuid := Uuid.toHyphenated
  parseUuid := Uuid.parseHyphenated
  print v := if v = responseJson infoResult then infoResultText else infoEnvelopeText
  parse bytes := .ok (if bytes = utf8 (infoResultText ++ "\n").toList then responseJson infoResult
    else infoEnvelope.toJson idLibs)
  mismatch _ := "missing field"
  lossy _ := ""

def noFiles : Files where
  root := .dir []
  cwd := []
  plain := ⟨_, rfl, id⟩
  osError := "No such file or directory"

theorem oop_transparent_info :
    executeOop infoLibs (fun _ => "") ⟨false, true, false⟩ (fileProgram infoLibs infoTools [])
        noFiles (fun _ => .dbError "") .null "file.info" 1 (.obj []) infoContext none true
        ⟨[], [], []⟩ =
      (.ok ⟨⟨.inlineJson, .obj [("filename", .str "a.bin"), ("size_bytes", .num (.int 3))], none,
        none⟩, []⟩, ⟨[], [], []⟩) := by
  have hids : infoLibs.ReadsIds := by
    have hparse : infoLibs.parseUuid = Uuid.parseHyphenated := rfl
    have hshow : infoLibs.showUuid = Uuid.toHyphenated := rfl
    rw [TextLibs.ReadsIds, hparse, hshow]
    exact Uuid.parseHyphenated_toHyphenated
  have henvelope : infoLibs.Parses
      (infoLibs.print ((envelopeOf .null "file.info" 1 (.obj []) infoContext).toJson infoLibs))
      ((envelopeOf .null "file.info" 1 (.obj []) infoContext).toJson infoLibs) := by
    have hne : infoEnvelopeText ≠ infoResultText ++ "\n" := by decide +kernel
    exact congrArg Except.ok (if_neg fun h => hne (String.toList_inj.mp (utf8_injective h)))
  have hresult : infoLibs.Parses (infoLibs.print (responseJson
        (dispatch infoTools (envelopeOf .null "file.info" 1 (.obj []) infoContext))) ++ "\n")
      (responseJson (dispatch infoTools (envelopeOf .null "file.info" 1 (.obj []) infoContext))) :=
    congrArg Except.ok (if_pos rfl)
  rw [oop_transparent hids rfl (by decide) (by decide) henvelope hresult]
  rfl

end Arbeiterfarm.Jobs.Oop
