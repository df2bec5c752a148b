import Arbeiterfarm.Access.Membership
import Arbeiterfarm.Jobs.Worker
import Arbeiterfarm.Tools.GhidraRename

/-!
# What projects know of each other

Some tools search in other projects than the one that they are run in: for the same binary, for an
artifact, for a family or an indicator, and for names of functions. They search in the projects that
the user sees, and of these in those that are not under a non-disclosure agreement and are not
excluded from searches.

Artifacts, projects and threads are read through views that have no row policies; the other tables
have theirs.
-/

namespace Arbeiterfarm.Access

open Foundation Jobs Tools

/-! ### Tables -/

structure ArtifactRow where
  id : Uuid
  project_id : Uuid
  filename : String
  description : Option String
  sha256 : String
  mime_type : Option String
  created_at : ℤ
  deriving DecidableEq

structure ThreadRow where
  id : Uuid
  project_id : Uuid
  deriving DecidableEq

structure FamilyRow where
  id : Uuid
  project_id : Uuid
  artifact_id : Uuid
  family_name : String
  confidence : String
  notes : Option String
  tagged_by_agent : Option String
  created_at : ℤ
  deriving DecidableEq

/-- The columns of the unique constraint. -/
def FamilyRow.key (r : FamilyRow) : Uuid × Uuid × String :=
  (r.project_id, r.artifact_id, r.family_name)

structure IocRow where
  id : Uuid
  project_id : Uuid
  ioc_type : String
  value : String
  context : Option String
  created_at : ℤ
  deriving DecidableEq

structure Knowledge extends Directory where
  artifacts : List ArtifactRow
  threads : List ThreadRow
  artifact_families : Table FamilyRow.key
  iocs : List IocRow
  ghidra_function_renames : RenameTable

/-- The parts of the program and of the database that are not its own. -/
structure Formats where
  parseUuid : String → Option Uuid
  showUuid : Uuid → String
  showTime : ℤ → String
  showJson : Json → String
  ilike : String → String → Bool
  /-- The order of names in the database. -/
  nameLe : String → String → Bool
  lowercase : String → String

/-! ### Projects that are searched -/

/-- `af_visible_projects()`, also where no user is set. -/
def visibleTo (user : Option Uuid) (db : Directory) : List Uuid :=
  match user with
  | some user_id => afVisibleProjects user_id db
  | none => (db.project_members.filter fun m => m.user_id = allUsersSentinel).map (·.project_id)

/-- `settings->>'exclude_from_search'` -/
def excludeFromSearch (F : Formats) (settings : Json) : Option String :=
  match settings.get "exclude_from_search" with
  | none | some .null => none
  | some (.str s) => some s
  | some (.bool b) => some (if b then "true" else "false")
  | some v => some (F.showJson v)

def afShareableProjects (F : Formats) (user : Option Uuid) (db : Directory) : List Uuid :=
  (db.projects.filter fun p => p.id ∈ visibleTo user db && p.nda = false &&
    (excludeFromSearch F p.settings).getD "false" ≠ "true").map (·.id)

/-- The row policies let the user read and write the rows of the project. -/
def letsThrough (user : Option Uuid) (db : Directory) (project_id : Uuid) : Bool :=
  match user with
  | some user_id => project_id ∈ afVisibleProjects user_id db
  | none => true

/-! ### Tools -/

structure ToolContext where
  project_id : Uuid
  actor_user_id : Option Uuid
  /-- The id and the hash of the first artifact that the tool is given. -/
  artifact : Option (Uuid × String)
  /-- The directory of the artifact's analysis by `ghidra.analyze` is there. It lies outside of the
  database, so that the run brings it along. -/
  analysed : Bool

/-- The values that are drawn for a new row. -/
structure NewRow where
  id : Uuid
  now : ℕ

inductive SharedTool where
  | priorAnalysis | artifactSearch | familyTag | familySearch | familyUntag | iocSearch
  | suggestRenames | rename
  deriving DecidableEq, Repr

def toolErr (code msg : String) : ToolError := ⟨code, msg, false, .null⟩

def validatePriorAnalysis (input : Json) : Except String Unit :=
  match input.strField "artifact_id" with
  | none => .error "'artifact_id' is required and must be a string"
  | some aid =>
    if aid.isEmpty then .error "'artifact_id' must not be empty"
    else if utf8Len aid ≠ 36 ∨ (aid.toList.filter (· = '-')).length ≠ 4 then
      .error ("'artifact_id' does not look like a UUID: " ++ aid)
    else .ok ()

def validateArtifactSearch (input : Json) : Except String Unit :=
  match input.strField "query" with
  | none => .error "'query' is required and must be a string"
  | some query =>
    if query.isEmpty then .error "'query' must not be empty"
    else if utf8Len query > 200 then
      .error ("'query' too long (" ++ toString (utf8Len query) ++ " chars, max 200)")
    else
      match input.strField "field" with
      | none => .ok ()
      | some field =>
        if field ∈ ["any", "filename", "description", "sha256", "mime_type"] then .ok ()
        else .error ("invalid field '" ++ field ++
          "': must be one of any, filename, description, sha256, mime_type")

/-- The name is checked as it is without the whitespace around it. -/
def validateFamilyName (max : Option ℕ) (input : Json) : Except String Unit :=
  match input.strField "family_name" with
  | none => .error "'family_name' is required"
  | some name =>
    let trimmed := String.ofList (trim name.toList)
    if trimmed.isEmpty then .error "'family_name' must not be empty"
    else if max.any fun n => utf8Len trimmed > n then
      .error "'family_name' must be 100 characters or less"
    else .ok ()

def validateIocSearch (input : Json) : Except String Unit :=
  match input.strField "value" with
  | none => .error "'value' is required"
  | some value =>
    if value.isEmpty then .error "'value' must not be empty"
    else if utf8Len value > 500 then
      .error ("'value' too long (" ++ toString (utf8Len value) ++ " chars, max 500)")
    else .ok ()

def SharedTool.validate (input : Json) : SharedTool → Except String Unit
  | .priorAnalysis  => validatePriorAnalysis input
  | .artifactSearch => validateArtifactSearch input
  | .familyTag      => validateFamilyName (some 100) input
  | .familySearch | .familyUntag => validateFamilyName none input
  | .iocSearch      => validateIocSearch input
  | .suggestRenames => .ok ()
  | .rename         => validateRenames input

/-! ### Queries -/

def optStr : Option String → Json
  | some s => .str s
  | none => .null

def natJson (n : ℕ) : Json := .num (.int n)

/-- A limit from the input, between `lo` and `hi`. -/
def clampLimit (input : Json) (default lo hi : ℤ) : ℕ :=
  (max lo (min (((input.get "limit").bind Json.asI64).getD default) hi)).toNat

section

variable (F : Formats) (user : Option Uuid)

/-- The rows of the projects that are searched. -/
def shared {ρ : Type} (s : Knowledge) (project : ρ → Uuid) (rows : List ρ) : List ρ :=
  rows.filter fun r => project r ∈ afShareableProjects F user s.toDirectory

/-- `ORDER BY created_at DESC LIMIT n` -/
def newest {ρ : Type} (created_at : ρ → ℤ) (n : ℕ) (rows : List ρ) : List ρ :=
  (rows.mergeSort fun r r' => created_at r' ≤ created_at r).take n

/-- The artifacts with the hash in other projects, each with its project. -/
def priorMatches (s : Knowledge) (project_id : Uuid) (sha256 : String) (limit : ℕ) :
    List (ArtifactRow × ProjectRow) :=
  newest (fun x => x.1.created_at) limit <|
    ((shared F user s ArtifactRow.project_id s.artifacts).filter fun a =>
      a.sha256 = sha256 && a.project_id ≠ project_id).flatMap fun a =>
        (s.projects.filter fun p => p.id = a.project_id).map fun p => (a, p)

/-- The families of an artifact, as far as the row policies show them. -/
def familiesOf (s : Knowledge) (a : ArtifactRow) : List Json :=
  ((s.artifact_families.rows.filter fun f => f.artifact_id = a.id && f.project_id = a.project_id
    ).filter fun f => letsThrough user s.toDirectory f.project_id).map fun f =>
      .obj [("confidence", .str f.confidence), ("family_name", .str f.family_name)]

def priorJson (s : Knowledge) (x : ArtifactRow × ProjectRow) : Json :=
  .obj [("artifact_id", .str (F.showUuid x.1.id)), ("description", optStr x.1.description),
    ("families", .arr (familiesOf user s x.1)), ("filename", .str x.1.filename),
    ("project_id", .str (F.showUuid x.1.project_id)), ("project_name", .str x.2.name),
    ("project_thread_count",
      natJson (s.threads.filter fun t => t.project_id = x.1.project_id).length)]

def executePriorAnalysis (s : Knowledge) (ctx : ToolContext) (input : Json) :
    Except ToolError Json :=
  match input.strField "artifact_id" with
  | none => .error (toolErr "invalid_input" "'artifact_id' is required")
  | some artifact_id =>
    match F.parseUuid artifact_id with
    | none => .error (toolErr "db_error"
        ("failed to look up artifact: invalid input syntax for type uuid: " ++ artifact_id))
    | some id =>
      match s.artifacts.find? fun a => a.project_id = ctx.project_id && a.id = id with
      | none => .error (toolErr "not_found"
          ("artifact " ++ artifact_id ++ " not found in current project"))
      | some a =>
        match priorMatches F user s ctx.project_id a.sha256 (clampLimit input 5 1 20) with
        | [] => .ok (.obj [("message", .str
            "No prior analysis found for this binary in other accessible projects."),
            ("prior_analyses", .arr []), ("sha256", .str a.sha256)])
        | found => .ok (.obj [("prior_analyses", .arr (found.map (priorJson F user s))),
            ("sha256", .str a.sha256)])

def matchesField (field pattern : String) (a : ArtifactRow) : Bool :=
  let filename := F.ilike a.filename pattern
  let description := a.description.any fun d => F.ilike d pattern
  let sha256 := F.ilike a.sha256 pattern
  let mime_type := a.mime_type.any fun m => F.ilike m pattern
  if field = "filename" then filename
  else if field = "description" then description
  else if field = "sha256" then sha256
  else if field = "mime_type" then mime_type
  else filename || description || sha256 || mime_type

def artifactJson (a : ArtifactRow) : Json :=
  .obj [("created_at", .str (F.showTime a.created_at)), ("description", optStr a.description),
    ("filename", .str a.filename), ("id", .str (F.showUuid a.id)),
    ("mime_type", optStr a.mime_type), ("project_id", .str (F.showUuid a.project_id)),
    ("sha256", .str a.sha256)]

def executeArtifactSearch (s : Knowledge) (input : Json) : Except ToolError Json :=
  match input.strField "query" with
  | none => .error (toolErr "invalid_input" "'query' is required")
  | some query =>
    let field := (input.strField "field").getD "any"
    let rows := newest ArtifactRow.created_at (clampLimit input 20 1 100)
      ((shared F user s ArtifactRow.project_id s.artifacts).filter
        (matchesField F field ("%" ++ query ++ "%")))
    .ok (.obj [("field", .str field), ("query", .str query),
      ("results", .arr (rows.map (artifactJson F))), ("total", natJson rows.length)])

def normalizeFamily (name : String) : String := F.lowercase (String.ofList (trim name.toList))

def familyJson (f : FamilyRow) : Json :=
  .obj [("artifact_id", .str (F.showUuid f.artifact_id)), ("confidence", .str f.confidence),
    ("created_at", .str (F.showTime f.created_at)), ("family_name", .str f.family_name),
    ("id", .str (F.showUuid f.id)), ("notes", optStr f.notes),
    ("project_id", .str (F.showUuid f.project_id)), ("tagged_by_agent", optStr f.tagged_by_agent)]

def executeFamilySearch (s : Knowledge) (input : Json) : Except ToolError Json :=
  match input.strField "family_name" with
  | none => .error (toolErr "invalid_input" "'family_name' is required")
  | some name =>
    let family_name := normalizeFamily F name
    let limit := ((input.get "limit").bind Json.asI64).getD 20
    if limit < 0 then
      .error (toolErr "db_error" "family search failed: LIMIT must not be negative")
    else
      let rows := newest FamilyRow.created_at limit.toNat
        (((shared F user s FamilyRow.project_id s.artifact_families.rows).filter fun f =>
          letsThrough user s.toDirectory f.project_id).filter fun f => f.family_name = family_name)
      .ok (.obj [("results", .arr (rows.map (familyJson F))), ("search_family", .str family_name),
        ("total", natJson rows.length)])

def iocJson (i : IocRow) : Json :=
  .obj [("context", optStr i.context), ("created_at", .str (F.showTime i.created_at)),
    ("id", .str (F.showUuid i.id)), ("ioc_type", .str i.ioc_type),
    ("project_id", .str (F.showUuid i.project_id)), ("value", .str i.value)]

def executeIocSearch (s : Knowledge) (input : Json) : Except ToolError Json :=
  let value := (input.strField "value").getD ""
  let ioc_type := (input.strField "ioc_type").getD "all"
  let rows := newest IocRow.created_at (clampLimit input 20 1 100)
    (((shared F user s IocRow.project_id s.iocs).filter fun i =>
      letsThrough user s.toDirectory i.project_id).filter fun i =>
        i.value = value && (ioc_type = "all" || i.ioc_type = ioc_type))
  .ok (.obj [("results", .arr (rows.map (iocJson F))), ("search_type", .str ioc_type),
    ("search_value", .str value), ("total", natJson rows.length)])

/-- What is grouped by. -/
def renameGroup (r : RenameRow) : String × String × Option String :=
  (r.old_name, r.new_name, r.address)

/-- `get_cross_project_renames` -/
def getCrossProjectRenames (s : Knowledge) (sha256 : String) (exclude_project_id : Uuid) :
    List Json :=
  let joined := (((shared F user s RenameRow.project_id s.ghidra_function_renames.rows).filter
    fun r => letsThrough user s.toDirectory r.project_id).filter fun r =>
      r.sha256 = sha256 && r.project_id ≠ exclude_project_id).flatMap fun r =>
        (s.projects.filter fun p => p.id = r.project_id).map fun p => (r, p)
  let groups := ((joined.map fun x => renameGroup x.1).dedup).mergeSort fun g g' =>
    F.nameLe g.1 g'.1
  groups.map fun g =>
    let rows := joined.filter fun x => renameGroup x.1 = g
    let names := ((rows.map fun x => x.2.name).dedup).mergeSort F.nameLe
    .obj ((g.2.2.map fun address => ("address", Json.str address)).toList ++
      [("new_name", .str g.2.1), ("old_name", .str g.1),
        ("source_count", natJson ((rows.map fun x => x.1.project_id).dedup).length),
        ("source_projects", .str (", ".intercalate names))])

def executeSuggestRenames (s : Knowledge) (ctx : ToolContext) : Except ToolError Json :=
  match ctx.artifact with
  | none => .error (toolErr "no_artifact" "no artifact provided")
  | some (_, sha256) =>
    match getCrossProjectRenames F user s sha256 ctx.project_id with
    | [] => .ok (.obj [("note", .str "No renames found from other projects for this binary."),
        ("sha256", .str sha256), ("suggestions", .arr [])])
    | suggestions => .ok (.obj [("note", .str ("Renames discovered from other non-NDA projects. " ++
          "Use ghidra.rename to apply desired suggestions.")),
        ("sha256", .str sha256), ("suggestions", .arr suggestions),
        ("total", natJson suggestions.length)])

/-! ### Writes -/

def policyError (what : String) : ToolError :=
  toolErr "db_error" (what ++ ": new row violates row-level security policy")

/-- A row refers to a project that is not there. -/
def foreignKeyError (what : String) : ToolError :=
  toolErr "db_error" (what ++ ": insert violates foreign key constraint")

/-- `DO UPDATE SET confidence, notes` -/
def updatedFamily (excluded f : FamilyRow) : FamilyRow :=
  { f with confidence := excluded.confidence, notes := excluded.notes }

lemma key_updatedFamily (excluded f : FamilyRow) : (updatedFamily excluded f).key = f.key := rfl

def executeFamilyTag (s : Knowledge) (ctx : ToolContext) (new : NewRow) (input : Json) :
    Knowledge × Except ToolError Json :=
  match input.strField "artifact_id", input.strField "family_name" with
  | none, _ => (s, .error (toolErr "invalid_input" "'artifact_id' is required"))
  | some _, none => (s, .error (toolErr "invalid_input" "'family_name' is required"))
  | some artifact_id, some name =>
    match F.parseUuid artifact_id with
    | none => (s, .error (toolErr "db_error"
        ("family tag failed: invalid input syntax for type uuid: " ++ artifact_id)))
    | some id =>
      let confidence := (input.strField "confidence").getD "medium"
      if ¬ letsThrough user s.toDirectory ctx.project_id then (s, .error (policyError
        "family tag failed"))
      else if confidence ∉ ["low", "medium", "high", "confirmed"] then
        (s, .error (toolErr "db_error" "family tag failed: new row violates check constraint"))
      else
        let row : FamilyRow := ⟨new.id, ctx.project_id, id, normalizeFamily F name, confidence,
          input.strField "notes", none, new.now⟩
        let t := s.artifact_families.upsert row (updatedFamily row) (key_updatedFamily row)
        let family := (t.lookup row.key).getD row
        ({ s with artifact_families := t },
          .ok (.obj [("artifact_id", .str artifact_id),
            ("family", .obj [("confidence", .str family.confidence),
              ("created_at", .str (F.showTime family.created_at)),
              ("family_name", .str family.family_name), ("id", .str (F.showUuid family.id)),
              ("notes", optStr family.notes)]),
            ("status", .str "tagged")]))

def executeFamilyUntag (s : Knowledge) (ctx : ToolContext) (input : Json) :
    Knowledge × Except ToolError Json :=
  match input.strField "artifact_id", input.strField "family_name" with
  | none, _ => (s, .error (toolErr "invalid_input" "'artifact_id' is required"))
  | some _, none => (s, .error (toolErr "invalid_input" "'family_name' is required"))
  | some artifact_id, some name =>
    match F.parseUuid artifact_id with
    | none => (s, .error (toolErr "db_error"
        ("family untag failed: invalid input syntax for type uuid: " ++ artifact_id)))
    | some id =>
      let key := (ctx.project_id, id, normalizeFamily F name)
      let found := letsThrough user s.toDirectory ctx.project_id &&
        (s.artifact_families.lookup key).isSome
      ({ s with artifact_families := s.artifact_families.delete fun f => found && f.key = key },
        .ok (.obj [("artifact_id", .str artifact_id),
          ("family_name", .str (normalizeFamily F name)),
          ("rows_deleted", natJson (if found then 1 else 0)),
          ("status", .str (if found then "removed" else "not_found"))]))

def renamePairJson (r : Rename) : Json :=
  .obj ((r.2.2.map fun address => ("address", Json.str address)).toList ++
    [("new", .str r.2.1), ("old", .str r.1)])

def executeRename (s : Knowledge) (ctx : ToolContext) (new : NewRow) (input : Json) :
    Knowledge × Except ToolError Json :=
  match ctx.artifact with
  | none => (s, .error (toolErr "no_artifact" "no artifact provided"))
  | some (_, sha256) =>
    let renames := parseRenames input
    if renames = [] then
      (s, .error (toolErr "invalid_input"
        "no valid renames (each needs non-empty 'old' and 'new')"))
    else if ctx.analysed = false then
      (s, .error (toolErr "no_analysis"
        "Run ghidra.analyze first to create the analysis project"))
    else if ¬ letsThrough user s.toDirectory ctx.project_id then
      (s, .error (policyError "failed to store renames"))
    else
      match upsertRenames ctx.project_id sha256 user new.now s.ghidra_function_renames renames with
      | .error (.query msg) => (s, .error (toolErr "db_error" ("failed to store renames: " ++ msg)))
      | .ok (t, count) =>
        if ctx.project_id ∉ s.projects.map (·.id) then
          (s, .error (foreignKeyError "failed to store renames"))
        else
          ({ s with ghidra_function_renames := t },
            .ok (.obj [("note", .str ("Renames stored in database. " ++
                "They will be applied as overlay during ghidra.decompile.")),
              ("project_id", .str (F.showUuid ctx.project_id)), ("renamed", natJson count),
              ("renames", .arr (renames.map renamePairJson)), ("sha256", .str sha256)]))

/-- The number of renames in a project. -/
def rowsOf (t : RenameTable) (project_id : Uuid) : ℕ :=
  (t.rows.filter fun r => r.project_id = project_id).length

/-- `import_renames`: the renames that are not there yet are taken over from another project. The
policy is checked for each row that is proposed, the foreign key for each row that is inserted. -/
def importRenames (s : Knowledge) (target source : Uuid) (sha256 : String) (now : ℕ) :
    Knowledge × Except ToolError Json :=
  let all := shared F user s RenameRow.project_id s.ghidra_function_renames.rows
  let found := all.filter fun r =>
    letsThrough user s.toDirectory r.project_id && r.project_id = source && r.sha256 = sha256
  let rows := found.map fun r =>
    { r with project_id := target, renamed_by := user, updated_at := now }
  let t := s.ghidra_function_renames.insertMissing rows
  let inserted := rowsOf t target - rowsOf s.ghidra_function_renames target
  if rows ≠ [] ∧ ¬ letsThrough user s.toDirectory target then
    (s, .error (policyError "import failed"))
  else if inserted ≠ 0 ∧ target ∉ s.projects.map (·.id) then
    (s, .error (foreignKeyError "import failed"))
  else ({ s with ghidra_function_renames := t }, .ok (natJson inserted))

end

/-- Validate the input and execute the tool. -/
def SharedTool.run (F : Formats) (s : Knowledge) (ctx : ToolContext) (new : NewRow) (input : Json)
    (tool : SharedTool) : Knowledge × Except ToolError Json :=
  match tool.validate input with
  | .error msg => (s, .error (toolErr "validation_error" msg))
  | .ok () =>
    let user := ctx.actor_user_id
    match tool with
    | .priorAnalysis  => (s, executePriorAnalysis F user s ctx input)
    | .artifactSearch => (s, executeArtifactSearch F user s input)
    | .familyTag      => executeFamilyTag F user s ctx new input
    | .familySearch   => (s, executeFamilySearch F user s input)
    | .familyUntag    => executeFamilyUntag F user s ctx input
    | .iocSearch      => (s, executeIocSearch F user s input)
    | .suggestRenames => (s, executeSuggestRenames F user s ctx)
    | .rename         => executeRename F user s ctx new input

end Arbeiterfarm.Access
