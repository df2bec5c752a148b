import Arbeiterfarm.Core.Json

/-!
# Artifacts of a project

What the database lists of a project's artifacts, and what the agents are told about them.
-/

namespace Arbeiterfarm.Agents

/-- A row of `artifacts`. -/
structure ArtifactRow where
  id : Uuid
  project_id : Uuid
  filename : String
  /-- The tool run that generated the artifact; `none` if it was uploaded. -/
  source_tool_run_id : Option Uuid
  description : Option String
  created_at : ℕ
  deriving DecidableEq, Repr

/-- The rows are an answer to `list_artifacts`: those of the project, by `created_at DESC`. The
order of rows that were created at one time is up to the database. -/
def ListArtifacts (table : List ArtifactRow) (project_id : Uuid) (rows : List ArtifactRow) : Prop :=
  rows.Perm (table.filter fun a => a.project_id = project_id) ∧
    rows.Pairwise fun a b => b.created_at ≤ a.created_at

instance (table : List ArtifactRow) (project_id : Uuid) (rows : List ArtifactRow) :
    Decidable (ListArtifacts table project_id rows) :=
  inferInstanceAs (Decidable (_ ∧ _))

/-- What the prompt and the corrections know of an artifact. -/
structure ArtifactCtx where
  id : Uuid
  filename : String
  description : Option String
  source_tool_run_id : Option Uuid
  parent_sample_id : Option Uuid
  deriving DecidableEq, Repr

/-- The parent that was read last for a generated artifact. -/
def parentOf (parents : List (Uuid × Uuid)) (id : Uuid) : Option Uuid :=
  (parents.reverse.find? fun p => p.1 = id).map (·.2)

def ArtifactRow.toCtx (parents : List (Uuid × Uuid)) (a : ArtifactRow) : ArtifactCtx :=
  ⟨a.id, a.filename, a.description, a.source_tool_run_id, parentOf parents a.id⟩

/-- Both queries may fail (`none`). -/
def fetchArtifactContext (art_result : Option (List ArtifactRow))
    (parent_result : Option (List (Uuid × Uuid))) : List ArtifactCtx :=
  match art_result with
  | some artifacts => (artifacts.map (ArtifactRow.toCtx (parent_result.getD []))).reverse
  | none => []

end Arbeiterfarm.Agents
