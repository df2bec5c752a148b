import Arbeiterfarm.Agents.ArtifactContext
import Arbeiterfarm.Core.JsonMap
import Arbeiterfarm.Core.Resolver
import Mathlib.Data.List.Nodup

/-!
# Corrected artifact references

A model may name an artifact that does not exist. The reference is then replaced by the target of
the thread or, when it has none, by the best artifact of the project. The best one is said to be the
newest of its kind, but the artifacts are searched from the oldest on. `toLowercase` is the Unicode
lowercase mapping.
-/

namespace Arbeiterfarm.Agents

/-! ### The model -/

section

variable (toLowercase : String → String)

def textExtensions : List String :=
  [".json", ".txt", ".csv", ".md", ".xml", ".html", ".log", ".yaml", ".yml", ".toml", ".svg",
    ".rpt"]

def isTextFile (filename : String) : Bool :=
  textExtensions.any fun ext => ext.toList.isSuffixOf (toLowercase filename).toList

def isBinaryGenerated (a : ArtifactCtx) : Bool :=
  a.source_tool_run_id.isSome && !isTextFile toLowercase a.filename

def isUploaded (a : ArtifactCtx) : Bool := a.source_tool_run_id.isNone

def pickBestArtifact (artifacts : List ArtifactCtx) : Option ArtifactCtx :=
  match artifacts.find? (isBinaryGenerated toLowercase) with
  | some art => some art
  | none =>
    match artifacts.find? isUploaded with
    | some art => some art
    | none => artifacts.head?

/-- What the corrections use of other code: the reading and printing of ids, and the artifacts that
are listed for a target or, without one, for the project. -/
structure CorrectionEnv where
  parseUuid : String → Option Uuid
  printUuid : Uuid → String
  fetch : Option Uuid → List ArtifactCtx

/-- The corrections of a call. -/
structure Correction where
  /-- The artifacts, once they have been fetched. -/
  artifacts : Option (List ArtifactCtx)
  fixed : Json
  /-- The references that were replaced, and by what. -/
  replaced : List (String × Uuid)

variable (env : CorrectionEnv) (target_artifact_id : Option Uuid)

/-- Whether a reference is no id of a listed artifact. The artifacts are fetched for this if it is
an id at all. -/
def needsCorrection (artifacts : Option (List ArtifactCtx)) (s : String) :
    Bool × Option (List ArtifactCtx) :=
  match env.parseUuid s with
  | some uuid =>
    let arts := artifacts.getD (env.fetch target_artifact_id)
    (!arts.any fun a => a.id = uuid, some arts)
  | none => (true, artifacts)

/-- The id that replaces a reference. -/
def correctedId (artifacts : Option (List ArtifactCtx)) : Option Uuid × Option (List ArtifactCtx) :=
  match target_artifact_id with
  | some tid => (some tid, artifacts)
  | none =>
    let arts := artifacts.getD (env.fetch none)
    ((pickBestArtifact toLowercase arts).map (·.id), some arts)

/-- The reference at one path is corrected. -/
def correctPath (c : Correction) (parts : List String) : Correction :=
  match (c.fixed.getJsonPath parts).bind Json.asStr with
  | some s =>
    let (needs_correction, artifacts) := needsCorrection env target_artifact_id c.artifacts s
    if needs_correction then
      let (corrected_id, artifacts) := correctedId toLowercase env target_artifact_id artifacts
      match corrected_id with
      | some real_id =>
        { artifacts, fixed := c.fixed.setJsonPath parts (.str (env.printUuid real_id)),
          replaced := c.replaced ++ [(s, real_id)] }
      | none => { c with artifacts }
    else { c with artifacts }
  | none => c

/-- `invoke_tool` corrects the references at the paths of the tool's input schema. -/
def correctArguments (arguments input_schema : Json) : Correction :=
  ((Resolver.resolveSchemaPaths input_schema).map Resolver.pathParts).foldl
    (correctPath toLowercase env target_artifact_id) ⟨none, arguments, []⟩

end

/-! ### The classes of artifacts -/

section

variable {toLowercase : String → String}

/-- The first of the selections that has an element. -/
def firstNonempty {α : Type} (l : List α) (classes : List (α → Bool)) : List α :=
  ((classes.map fun p => l.filter p).find? fun selected => !selected.isEmpty).getD []

section

variable {α β : Type} {l : List α} {p : α → Bool} {classes : List (α → Bool)}

lemma firstNonempty_cons : firstNonempty l (p :: classes) =
    if l.filter p = [] then firstNonempty l classes else l.filter p := by
  simp only [firstNonempty, List.map_cons, List.find?_cons]
  cases hselected : l.filter p with
  | nil => rfl
  | cons a selected => rfl

lemma firstNonempty_sublist : (firstNonempty l classes).Sublist l := by
  induction classes with
  | nil => exact List.nil_sublist l
  | cons p classes ih =>
    rw [firstNonempty_cons]
    split_ifs
    · exact ih
    · exact List.filter_sublist

lemma firstNonempty_reverse_map (f : α → β) (classes : List (β → Bool)) :
    firstNonempty (l.map f).reverse classes =
      ((firstNonempty l (classes.map fun p a => p (f a))).map f).reverse := by
  induction classes with
  | nil => rfl
  | cons p classes ih =>
    have hfilter : (l.map f).reverse.filter p = ((l.filter fun a => p (f a)).map f).reverse := by
      rw [List.filter_reverse, List.filter_map]
      rfl
    rw [List.map_cons, firstNonempty_cons, firstNonempty_cons, hfilter, ih]
    by_cases hselected : (l.filter fun a => p (f a)) = []
    · rw [if_pos hselected, hselected, List.map_nil, List.reverse_nil, if_pos rfl]
    · rw [if_neg hselected, if_neg]
      rwa [List.reverse_eq_nil_iff, List.map_eq_nil_iff]

end

/-- The kinds of artifacts, the best one first. -/
def priorityClasses (toLowercase : String → String) : List (ArtifactCtx → Bool) :=
  [isBinaryGenerated toLowercase, isUploaded, fun _ => true]

lemma pickBestArtifact_eq (artifacts : List ArtifactCtx) : pickBestArtifact toLowercase artifacts =
    (firstNonempty artifacts (priorityClasses toLowercase)).head? := by
  have hall : artifacts.filter (fun _ => true) = artifacts := List.filter_true artifacts
  rw [pickBestArtifact, priorityClasses, firstNonempty_cons, firstNonempty_cons,
    firstNonempty_cons, hall, ← List.head?_filter, ← List.head?_filter]
  cases hbinary : artifacts.filter (isBinaryGenerated toLowercase) with
  | cons a selected => rfl
  | nil =>
    rw [List.head?_nil, if_pos rfl]
    cases huploaded : artifacts.filter isUploaded with
    | cons a selected => rfl
    | nil =>
      rw [List.head?_nil, if_pos rfl]
      split_ifs with hnone
      · rw [hnone]
        rfl
      · rfl

/-! ### What replaces a reference -/

section

variable {env : CorrectionEnv} {c : Correction}

/-- Artifacts that have been fetched are those of the project. -/
def FetchedAll (env : CorrectionEnv) (artifacts : Option (List ArtifactCtx)) : Prop :=
  ∀ arts ∈ artifacts, arts = env.fetch none

lemma FetchedAll.getD_eq {artifacts : Option (List ArtifactCtx)} (h : FetchedAll env artifacts) :
    artifacts.getD (env.fetch none) = env.fetch none := by
  cases artifacts with
  | none => rfl
  | some arts => exact h arts rfl

lemma FetchedAll.needsCorrection {artifacts : Option (List ArtifactCtx)}
    (h : FetchedAll env artifacts) (s : String) :
    FetchedAll env (needsCorrection env none artifacts s).2 := by
  rw [Agents.needsCorrection]
  cases env.parseUuid s with
  | none => exact h
  | some uuid =>
    intro arts harts
    rw [← Option.some.inj harts]
    exact h.getD_eq

lemma correctedId_none {artifacts : Option (List ArtifactCtx)} (h : FetchedAll env artifacts) :
    correctedId toLowercase env none artifacts =
      ((pickBestArtifact toLowercase (env.fetch none)).map (·.id), some (env.fetch none)) := by
  rw [correctedId, h.getD_eq]

/-- What is known of the corrections of a thread without a target. -/
structure BestOnly (toLowercase : String → String) (env : CorrectionEnv) (c : Correction) :
    Prop where
  artifacts : FetchedAll env c.artifacts
  replaced : ∀ r ∈ c.replaced,
    (pickBestArtifact toLowercase (env.fetch none)).map (·.id) = some r.2

lemma bestOnly_correctPath (h : BestOnly toLowercase env c) (parts : List String) :
    BestOnly toLowercase env (correctPath toLowercase env none c parts) := by
  rw [correctPath]
  cases (c.fixed.getJsonPath parts).bind Json.asStr with
  | none => exact h
  | some s =>
    have hfetched := h.artifacts.needsCorrection s
    simp only [correctedId_none hfetched]
    by_cases hneeds : (needsCorrection env none c.artifacts s).1 = true
    · rw [if_pos hneeds]
      have hall : FetchedAll env (some (env.fetch none)) := by
        intro arts harts
        exact (Option.some.inj harts).symm
      cases hbest : (pickBestArtifact toLowercase (env.fetch none)).map (·.id) with
      | none => exact ⟨hall, h.replaced⟩
      | some real_id =>
        refine ⟨hall, fun r hr => ?_⟩
        rcases List.mem_append.mp hr with hr | hr
        · exact h.replaced r hr
        · rw [List.mem_singleton.mp hr, hbest]
    · rw [if_neg hneeds]
      exact ⟨hfetched, h.replaced⟩

lemma bestOnly_correctArguments (arguments input_schema : Json) :
    BestOnly toLowercase env (correctArguments toLowercase env none arguments input_schema) := by
  have hrun (paths : List (List String)) (c : Correction) (h : BestOnly toLowercase env c) :
      BestOnly toLowercase env (paths.foldl (correctPath toLowercase env none) c) := by
    induction paths generalizing c with
    | nil => exact h
    | cons parts paths ih => exact ih _ (bestOnly_correctPath h parts)
  apply hrun
  constructor
  · rintro arts ⟨⟩
  · rintro r ⟨⟩

end

/-! ### The best artifact is the oldest -/

section

variable {rows table : List ArtifactRow} {project_id : Uuid} {parents : List (Uuid × Uuid)}
  {best : ArtifactCtx}

/-- The rows of the best kind that there is. -/
def highestClass (toLowercase : String → String) (parents : List (Uuid × Uuid))
    (rows : List ArtifactRow) : List ArtifactRow :=
  firstNonempty rows ((priorityClasses toLowercase).map fun p a => p (a.toCtx parents))

/-- The artifact is one of the rows, and none of them was created later. -/
def IsNewest (rows : List ArtifactRow) (best : ArtifactCtx) : Prop :=
  ∃ a ∈ rows, a.id = best.id ∧ ∀ b ∈ rows, b.created_at ≤ a.created_at

instance (rows : List ArtifactRow) (best : ArtifactCtx) : Decidable (IsNewest rows best) :=
  inferInstanceAs (Decidable (∃ a ∈ rows, a.id = best.id ∧ ∀ b ∈ rows, b.created_at ≤ a.created_at))

lemma pickBestArtifact_fetch (parent_result : Option (List (Uuid × Uuid))) :
    pickBestArtifact toLowercase (fetchArtifactContext (some rows) parent_result) =
      (highestClass toLowercase (parent_result.getD []) rows).getLast?.map
        (ArtifactRow.toCtx (parent_result.getD [])) := by
  rw [pickBestArtifact_eq, fetchArtifactContext, firstNonempty_reverse_map, List.head?_reverse,
    List.getLast?_map]
  rfl

lemma getLast?_oldest {l : List ArtifactRow} {a : ArtifactRow}
    (hsorted : l.Pairwise fun a b => b.created_at ≤ a.created_at) (ha : l.getLast? = some a) :
    ∀ b ∈ l, a.created_at ≤ b.created_at := by
  obtain ⟨before, rfl⟩ := List.getLast?_eq_some_iff.mp ha
  intro b hb
  rcases List.mem_append.mp hb with hb | hb
  · exact (List.pairwise_append.mp hsorted).2.2 b hb a (List.mem_singleton_self a)
  · rw [List.mem_singleton.mp hb]

/-- The last of rows that are sorted by time is the newest only if they are all of one time. -/
lemma isNewest_getLast?_iff {l : List ArtifactRow}
    (hsorted : l.Pairwise fun a b => b.created_at ≤ a.created_at) (hids : (l.map (·.id)).Nodup) :
    (∀ a, l.getLast? = some a → IsNewest l (a.toCtx parents)) ↔
      ∀ a ∈ l, ∀ b ∈ l, a.created_at = b.created_at := by
  constructor
  · intro hnewest
    cases hlast : l.getLast? with
    | none =>
      rw [List.getLast?_eq_none_iff.mp hlast]
      intro a ha
      cases ha
    | some a =>
      have hmem : a ∈ l := List.mem_of_getLast? hlast
      obtain ⟨a', ha', hid, hle⟩ := hnewest a hlast
      obtain rfl : a' = a := List.inj_on_of_nodup_map hids ha' hmem hid
      have htime (b : ArtifactRow) (hb : b ∈ l) : b.created_at = a'.created_at :=
        le_antisymm (hle b hb) (getLast?_oldest hsorted hlast b hb)
      intro b hb b' hb'
      rw [htime b hb, htime b' hb']
  · intro htime a hlast
    have hmem : a ∈ l := List.mem_of_getLast? hlast
    exact ⟨a, hmem, rfl, fun b hb => (htime b hb a hmem).le⟩

/-- The references of a thread without a target are replaced by the best artifact, and it is the
newest of its kind just when all of its kind were created at one time. -/
theorem newest_pickBestArtifact_iff (toLowercase : String → String) (env : CorrectionEnv)
    (parent_result : Option (List (Uuid × Uuid))) (hids : (table.map (·.id)).Nodup)
    (hrows : ListArtifacts table project_id rows)
    (hfetch : env.fetch none = fetchArtifactContext (some rows) parent_result) :
    (∀ arguments input_schema,
      ∀ r ∈ (correctArguments toLowercase env none arguments input_schema).replaced,
        ∃ best, pickBestArtifact toLowercase (env.fetch none) = some best ∧ best.id = r.2) ∧
    ((∀ best, pickBestArtifact toLowercase (env.fetch none) = some best →
        IsNewest (highestClass toLowercase (parent_result.getD []) rows) best) ↔
      ∀ a ∈ highestClass toLowercase (parent_result.getD []) rows,
        ∀ b ∈ highestClass toLowercase (parent_result.getD []) rows,
          a.created_at = b.created_at) := by
  constructor
  · intro arguments input_schema r hr
    have hreplaced := (bestOnly_correctArguments arguments input_schema).replaced r hr
    exact Option.map_eq_some_iff.mp hreplaced
  · have hsub : (highestClass toLowercase (parent_result.getD []) rows).Sublist rows :=
      firstNonempty_sublist
    have hids' : ((highestClass toLowercase (parent_result.getD []) rows).map (·.id)).Nodup := by
      have hlisted : (rows.map (·.id)).Nodup :=
        ((hrows.1.map _).nodup_iff).mpr (hids.sublist (List.filter_sublist.map _))
      exact hlisted.sublist (hsub.map _)
    rw [← isNewest_getLast?_iff (hrows.2.sublist hsub) hids', hfetch, pickBestArtifact_fetch]
    constructor
    · intro hbest a ha
      exact hbest _ (Option.map_eq_some_iff.mpr ⟨a, ha, rfl⟩)
    · rintro hlast best hbest
      obtain ⟨a, ha, rfl⟩ := Option.map_eq_some_iff.mp hbest
      exact hlast a ha

end

end

/-! ### Two samples -/

/-- A sample that was uploaded at time 1. -/
def oldSample : ArtifactRow := ⟨1, 1, "old.exe", none, none, 1⟩

/-- A sample that was uploaded at time 2. -/
def newSample : ArtifactRow := ⟨2, 1, "new.exe", none, none, 2⟩

def twoSamplesEnv : CorrectionEnv where
  parseUuid _ := none
  printUuid id :=
    if id = 1 then "00000000-0000-0000-0000-000000000001"
    else "00000000-0000-0000-0000-000000000002"
  fetch _ := fetchArtifactContext (some [newSample, oldSample]) (some [])

theorem newest_pickBestArtifact_iff_twoSamples :
    ((∀ best, pickBestArtifact id (twoSamplesEnv.fetch none) = some best →
        IsNewest (highestClass id [] [newSample, oldSample]) best) ↔
      ∀ a ∈ highestClass id [] [newSample, oldSample],
        ∀ b ∈ highestClass id [] [newSample, oldSample], a.created_at = b.created_at) :=
  (newest_pickBestArtifact_iff id twoSamplesEnv (some []) (by decide)
    (show ListArtifacts [oldSample, newSample] 1 [newSample, oldSample] by decide) rfl).2

/-- A placeholder is replaced by the older of the two samples. -/
theorem oldest_replaces_placeholder :
    ListArtifacts [oldSample, newSample] 1 [newSample, oldSample] ∧
    (correctArguments id twoSamplesEnv none (.obj [("artifact_id", .str "sample")])
      (.obj [("properties", .obj [("artifact_id",
        .obj [("$ref", .str "#/$defs/ArtifactId")])])])).replaced = [("sample", 1)] ∧
    pickBestArtifact id (twoSamplesEnv.fetch none) = some (oldSample.toCtx []) ∧
    ¬ IsNewest (highestClass id [] [newSample, oldSample]) (oldSample.toCtx []) := by
  decide

end Arbeiterfarm.Agents
