import Arbeiterfarm.Core.ArtifactIds
import Arbeiterfarm.Jobs.InputDepth

/-!
# The input artifacts of a tool run

Before a run is enqueued, the artifact ids of its input are extracted and checked against the
project of the request; they are linked to the run, and the context of the run is built from
these links. What an executor opens are the artifacts of the context. The check reads the table
before the transaction begins, so artifacts come and go between the check, the links and the run.
-/

namespace Arbeiterfarm.Jobs

open Resolver Foundation.Fallible

structure ArtifactRow where
  id : Uuid
  project_id : Uuid
  sha256 : String
  deriving DecidableEq, Repr

/-- A row that links an artifact to a run. -/
structure ToolRunArtifactRow where
  tool_run_id : Uuid
  artifact_id : Uuid
  role : String
  deriving DecidableEq, Repr

/-- An artifact in the context of a run. -/
structure ArtifactRef where
  id : Uuid
  sha256 : String
  storage_path : String
  deriving DecidableEq, Repr

structure ToolPolicy where
  max_input_bytes : ℕ
  max_input_depth : UInt32

/-- What the enqueuing reads of the specification of a tool. -/
structure ToolSpec where
  input_schema : Json
  policy : ToolPolicy

structure ToolRequest where
  project_id : Uuid
  tool_name : String
  input_json : Json
  deriving DecidableEq

/-! ### Enqueuing -/

def getArtifactsByIds (artifacts : List ArtifactRow) (ids : List Uuid) : List ArtifactRow :=
  artifacts.filter fun row => row.id ∈ ids

section

variable (overflow_checks : Bool) (parseUuid : String → Option Uuid) (showUuid : Uuid → String)
  (printJson : Json → String)

/-- All ids have to be artifacts of the project; the error does not tell a missing artifact from
one of another project. -/
def verifyArtifacts (artifacts : List ArtifactRow) (project_id : Uuid) (ids : List Uuid) :
    Except EnqueueError Unit :=
  let valid := ((getArtifactsByIds artifacts ids).filter fun row => row.project_id = project_id).map
    (·.id)
  let invalid := ids.filter fun id => id ∉ valid
  if invalid.isEmpty then .ok ()
  else .error (.invalidInput ("artifact(s) not accessible in this project: " ++
    String.intercalate ", " (invalid.map showUuid)))

/-- The ids of the artifacts in the input of a request. -/
def requestIds (spec : ToolSpec) (request : ToolRequest) : Except String (List Uuid) :=
  extractArtifactIds parseUuid printJson request.input_json (resolveSchemaPaths spec.input_schema)

/-- The checks of a request before its transaction: the ids of its input artifacts. `none` stands
for a panic. -/
def checkInput (specs : String → Option ToolSpec) (artifacts : List ArtifactRow)
    (request : ToolRequest) : Option (Except EnqueueError (List Uuid)) :=
  match specs request.tool_name with
  | none => some (.error (.toolNotFound request.tool_name))
  | some spec =>
    let bytes := (printJson request.input_json).utf8ByteSize
    if bytes > spec.policy.max_input_bytes then
      some (.error (.invalidInput ("input size " ++ toString bytes ++ " bytes exceeds max " ++
        toString spec.policy.max_input_bytes ++ " bytes")))
    else
      (checkDepth overflow_checks request.input_json spec.policy.max_input_depth).map fun depth =>
        depth.bind fun _ =>
          match requestIds parseUuid printJson spec request with
          | .error e => .error (.invalidInput e)
          | .ok ids => (verifyArtifacts showUuid artifacts request.project_id ids).map fun _ => ids

end

/-- `ON CONFLICT DO NOTHING`. -/
def linkArtifact (links : List ToolRunArtifactRow) (link : ToolRunArtifactRow) :
    List ToolRunArtifactRow :=
  if link ∈ links then links else links ++ [link]

/-- Link the artifacts of an input to the run. -/
def linkInputs (links : List ToolRunArtifactRow) (run_id : Uuid) (ids : List Uuid) :
    List ToolRunArtifactRow :=
  ids.foldl (fun links id => linkArtifact links ⟨run_id, id, "input"⟩) links

/-! ### Running -/

/-- The artifacts of a context, with the paths of their blobs; a blob that is missing is an
error. -/
def contextArtifacts (blobs : String → Option String) :
    List ArtifactRow → Except String (List ArtifactRef)
  | [] => .ok []
  | row :: rows =>
    match blobs row.sha256 with
    | some storage_path => do
      let artifacts ← contextArtifacts blobs rows
      return ⟨row.id, row.sha256, storage_path⟩ :: artifacts
    | none => .error ("blob missing for sha256: " ++ row.sha256)

/-- The artifacts that are linked to the run as inputs. -/
def buildContext (links : List ToolRunArtifactRow) (artifacts : List ArtifactRow)
    (blobs : String → Option String) (run_id : Uuid) : Except String (List ArtifactRef) :=
  let input_ids := (links.filter fun link => link.tool_run_id = run_id ∧ link.role = "input").map
    (·.artifact_id)
  contextArtifacts blobs (getArtifactsByIds artifacts input_ids)

section

variable (parseUuid : String → Option Uuid)

/-- The path of the artifact that a string names, or the string itself. -/
def replaceId (artifacts : List ArtifactRef) (s : String) : String :=
  match (parseUuid s).bind fun id => artifacts.find? fun a => a.id = id with
  | some a => a.storage_path
  | none => s

def replaceElement (artifacts : List ArtifactRef) : Json → Json
  | .str s => .str (replaceId parseUuid artifacts s)
  | value => value

/-- Change the first field with this key. -/
def modifyField (key : String) (f : Json → Json) : List (String × Json) → List (String × Json)
  | [] => []
  | (k, v) :: fields => if k = key then (k, f v) :: fields else (k, v) :: modifyField key f fields

def replaceAtPath (artifacts : List ArtifactRef) : Json → List String → Json
  | .arr vs, [] => .arr (vs.map (replaceElement parseUuid artifacts))
  | value, [] => replaceElement parseUuid artifacts value
  | .obj fields, key :: path =>
    .obj (modifyField key (fun child => replaceAtPath artifacts child path) fields)
  | value, _ :: _ => value
termination_by _ path => path.length

/-- The input of a simple tool, with paths in the place of artifact ids. -/
def injectArtifactPaths (artifacts : List ArtifactRef) (input : Json) (schema_paths : List String) :
    Json :=
  schema_paths.foldl (fun value path => replaceAtPath parseUuid artifacts value (pathParts path))
    input

end

/-! ### What the checks promise -/

section

variable {parseUuid : String → Option Uuid} {showUuid : Uuid → String} {printJson : Json → String}

/-- An artifact of the project has the id. -/
def OwnedBy (artifacts : List ArtifactRow) (project_id id : Uuid) : Prop :=
  ∃ row ∈ artifacts, row.id = id ∧ row.project_id = project_id

lemma OwnedBy.mono {artifacts artifacts' : List ArtifactRow} {project_id id : Uuid}
    (h : OwnedBy artifacts project_id id) (hsub : ∀ row ∈ artifacts, row ∈ artifacts') :
    OwnedBy artifacts' project_id id := by
  obtain ⟨row, hrow, hid⟩ := h
  exact ⟨row, hsub row hrow, hid⟩

lemma ownedBy_of_verifyArtifacts {artifacts : List ArtifactRow} {project_id : Uuid}
    {ids : List Uuid} (h : verifyArtifacts showUuid artifacts project_id ids = .ok ()) :
    ∀ id ∈ ids, OwnedBy artifacts project_id id := by
  intro id hid
  simp only [verifyArtifacts] at h
  split_ifs at h with hempty
  have hvalid := List.filter_eq_nil_iff.mp (List.isEmpty_iff.mp hempty) id hid
  rw [decide_eq_true_eq, not_not, List.mem_map] at hvalid
  obtain ⟨row, hrow, rfl⟩ := hvalid
  obtain ⟨hrow, hproject⟩ := List.mem_filter.mp hrow
  exact ⟨row, (List.mem_filter.mp hrow).1, rfl, of_decide_eq_true hproject⟩

lemma checkInput_ok {overflow_checks : Bool} {specs : String → Option ToolSpec}
    {artifacts : List ArtifactRow} {request : ToolRequest} {ids : List Uuid}
    (h : checkInput overflow_checks parseUuid showUuid printJson specs artifacts request =
      some (.ok ids)) :
    ∃ spec, specs request.tool_name = some spec ∧
      requestIds parseUuid printJson spec request = .ok ids ∧
      ∀ id ∈ ids, OwnedBy artifacts request.project_id id := by
  simp only [checkInput] at h
  split at h
  · cases h
  · rename_i spec hspec
    split_ifs at h
    · cases h
    · obtain ⟨depth, -, hdepth⟩ := Option.map_eq_some_iff.mp h
      obtain ⟨_, -, hids⟩ := bind_eq_ok.mp hdepth
      split at hids
      · cases hids
      · rename_i ids' hrequest
        obtain ⟨_, hverify, rfl⟩ := map_eq_ok.mp hids
        exact ⟨spec, hspec, hrequest, ownedBy_of_verifyArtifacts hverify⟩

end

/-! ### Links and contexts -/

lemma mem_linkArtifact {links : List ToolRunArtifactRow} {link link' : ToolRunArtifactRow} :
    link' ∈ linkArtifact links link ↔ link' ∈ links ∨ link' = link := by
  by_cases hmem : link ∈ links
  · rw [linkArtifact, if_pos hmem]
    constructor
    · exact Or.inl
    · rintro (h | rfl)
      · exact h
      · exact hmem
  · rw [linkArtifact, if_neg hmem, List.mem_append, List.mem_singleton]

lemma mem_foldl_linkArtifact {links : List ToolRunArtifactRow} {run_id : Uuid} {role : String}
    {ids : List Uuid} {link : ToolRunArtifactRow} :
    link ∈ ids.foldl (fun links id => linkArtifact links ⟨run_id, id, role⟩) links ↔
      link ∈ links ∨ ∃ id ∈ ids, link = ⟨run_id, id, role⟩ := by
  induction ids generalizing links with
  | nil => simp
  | cons id ids ih =>
    rw [List.foldl_cons, ih, mem_linkArtifact, or_assoc, List.exists_mem_cons_iff]

lemma mem_linkInputs {links : List ToolRunArtifactRow} {run_id : Uuid} {ids : List Uuid}
    {link : ToolRunArtifactRow} : link ∈ linkInputs links run_id ids ↔
      link ∈ links ∨ ∃ id ∈ ids, link = ⟨run_id, id, "input"⟩ := mem_foldl_linkArtifact

lemma mem_contextArtifacts {blobs : String → Option String} {rows : List ArtifactRow}
    {context : List ArtifactRef} (h : contextArtifacts blobs rows = .ok context)
    {a : ArtifactRef} (ha : a ∈ context) :
    ∃ row ∈ rows, row.id = a.id ∧ blobs row.sha256 = some a.storage_path := by
  induction rows generalizing context with
  | nil =>
    obtain rfl := Except.ok.inj h
    cases ha
  | cons row rows ih =>
    cases hblob : blobs row.sha256 with
    | none => simp [contextArtifacts, hblob] at h
    | some storage_path =>
      rw [contextArtifacts, hblob] at h
      obtain ⟨rest, hrest, h⟩ := bind_eq_ok.mp h
      obtain rfl := pure_eq_ok.mp h
      rcases List.mem_cons.mp ha with rfl | ha
      · exact ⟨row, List.mem_cons_self, rfl, hblob⟩
      · obtain ⟨row', hrow', hid, hpath⟩ := ih hrest ha
        exact ⟨row', List.mem_cons_of_mem _ hrow', hid, hpath⟩

/-- An artifact of a context is linked to the run as an input. -/
lemma mem_buildContext {links : List ToolRunArtifactRow} {artifacts : List ArtifactRow}
    {blobs : String → Option String} {run_id : Uuid} {context : List ArtifactRef}
    (h : buildContext links artifacts blobs run_id = .ok context) {a : ArtifactRef}
    (ha : a ∈ context) :
    ⟨run_id, a.id, "input"⟩ ∈ links ∧
      ∃ row ∈ artifacts, row.id = a.id ∧ blobs row.sha256 = some a.storage_path := by
  obtain ⟨row, hrow, hid, hblob⟩ := mem_contextArtifacts h ha
  obtain ⟨hrow, hlinked⟩ := List.mem_filter.mp hrow
  refine ⟨?_, row, hrow, hid, hblob⟩
  rw [decide_eq_true_eq, List.mem_map] at hlinked
  obtain ⟨⟨run_id', artifact_id, role⟩, hlink, heq⟩ := hlinked
  obtain ⟨hmem, hrun⟩ := List.mem_filter.mp hlink
  obtain ⟨rfl, rfl⟩ : run_id' = run_id ∧ role = "input" := of_decide_eq_true hrun
  rw [← hid, ← heq]
  exact hmem

/-! ### Paths in an input -/

mutual

/-- The strings in a value. -/
def strings : Json → List String
  | .str s => [s]
  | .arr vs => elementStrings vs
  | .obj fields => fieldStrings fields
  | _ => []

def elementStrings : List Json → List String
  | [] => []
  | v :: vs => strings v ++ elementStrings vs

def fieldStrings : List (String × Json) → List String
  | [] => []
  | (_, v) :: fields => strings v ++ fieldStrings fields

end

section

variable {parseUuid : String → Option Uuid} {artifacts : List ArtifactRef}

/-- The strings that are new are paths of artifacts. -/
def OnlyPaths (artifacts : List ArtifactRef) (before after : List String) : Prop :=
  ∀ s ∈ after, s ∈ before ∨ ∃ a ∈ artifacts, s = a.storage_path

lemma OnlyPaths.refl (before : List String) : OnlyPaths artifacts before before :=
  fun _ => Or.inl

lemma OnlyPaths.trans {before between after : List String}
    (h : OnlyPaths artifacts before between) (h' : OnlyPaths artifacts between after) :
    OnlyPaths artifacts before after := by
  intro s hs
  rcases h' s hs with hs | hpath
  · exact h s hs
  · exact .inr hpath

lemma OnlyPaths.append {before before' after after' : List String}
    (h : OnlyPaths artifacts before after) (h' : OnlyPaths artifacts before' after') :
    OnlyPaths artifacts (before ++ before') (after ++ after') := by
  intro s hs
  rcases List.mem_append.mp hs with hs | hs
  · exact (h s hs).imp_left (List.mem_append_left _)
  · exact (h' s hs).imp_left (List.mem_append_right _)

lemma onlyPaths_replaceElement (value : Json) : OnlyPaths artifacts (strings value)
    (strings (replaceElement parseUuid artifacts value)) := by
  cases value with
  | str s =>
    intro s' hs'
    rw [replaceElement, strings, List.mem_singleton, replaceId] at hs'
    split at hs'
    · rename_i a ha
      obtain ⟨id, -, hfind⟩ := Option.bind_eq_some_iff.mp ha
      exact .inr ⟨a, List.mem_of_find?_eq_some hfind, hs'⟩
    · exact .inl (by simp [strings, hs'])
  | _ => exact OnlyPaths.refl _

lemma onlyPaths_elements (vs : List Json) : OnlyPaths artifacts (elementStrings vs)
    (elementStrings (vs.map (replaceElement parseUuid artifacts))) := by
  induction vs with
  | nil => exact OnlyPaths.refl _
  | cons v vs ih => exact (onlyPaths_replaceElement v).append ih

lemma onlyPaths_modifyField {f : Json → Json}
    (hf : ∀ v, OnlyPaths artifacts (strings v) (strings (f v))) (key : String)
    (fields : List (String × Json)) :
    OnlyPaths artifacts (fieldStrings fields) (fieldStrings (modifyField key f fields)) := by
  induction fields with
  | nil => exact OnlyPaths.refl _
  | cons p fields ih =>
    obtain ⟨k, v⟩ := p
    by_cases hk : k = key
    · rw [modifyField, if_pos hk]
      exact (hf v).append (OnlyPaths.refl _)
    · rw [modifyField, if_neg hk]
      exact (OnlyPaths.refl _).append ih

lemma onlyPaths_replaceAtPath (path : List String) (value : Json) :
    OnlyPaths artifacts (strings value)
      (strings (replaceAtPath parseUuid artifacts value path)) := by
  induction path generalizing value with
  | nil =>
    cases value with
    | arr vs =>
      rw [replaceAtPath]
      exact onlyPaths_elements vs
    | _ =>
      rw [replaceAtPath]
      · exact onlyPaths_replaceElement _
      · simp
  | cons key path ih =>
    cases value with
    | obj fields =>
      rw [replaceAtPath]
      exact onlyPaths_modifyField ih key fields
    | _ =>
      rw [replaceAtPath]
      · exact OnlyPaths.refl _
      · simp

/-- The input that a simple tool is given has no strings but those of its request and the paths
of the context's artifacts. -/
lemma onlyPaths_injectArtifactPaths (input : Json) (schema_paths : List String) :
    OnlyPaths artifacts (strings input)
      (strings (injectArtifactPaths parseUuid artifacts input schema_paths)) := by
  induction schema_paths generalizing input with
  | nil => exact OnlyPaths.refl _
  | cons path paths ih => exact (onlyPaths_replaceAtPath (pathParts path) input).trans (ih _)

end

end Arbeiterfarm.Jobs
