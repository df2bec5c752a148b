import Arbeiterfarm.Foundation.Exec
import Arbeiterfarm.Foundation.Table
import Arbeiterfarm.Jobs.InputArtifacts

/-!
# The artifacts that a run opens

Projects create and delete artifacts, requests are checked and later enqueued, and runs link what
they produce, in any order. An artifact never changes its project, and the id of a deleted
artifact is not given out again; so what is linked to a run as its input belongs to the project of
the run for as long as it exists.
-/

namespace Arbeiterfarm.Jobs

open Foundation Resolver

structure QueuedRun where
  id : Uuid
  request : ToolRequest
  deriving DecidableEq

/-- The tables, with the requests that have passed their checks and all artifacts that have ever
been created. -/
structure ArtifactStore where
  artifacts : List ArtifactRow
  links : List ToolRunArtifactRow
  runs : Table QueuedRun.id
  checked : List (ToolRequest × List Uuid)
  created : Table ArtifactRow.id

def ArtifactStore.init : ArtifactStore := ⟨[], [], .empty _, [], .empty _⟩

inductive StoreAction where
  | create (row : ArtifactRow)
  | delete (ids : List Uuid)
  | check (request : ToolRequest)
  | enqueue (request : ToolRequest) (ids : List Uuid) (run_id : Uuid)
  | output (run_id artifact_id : Uuid)

section

variable (overflow_checks : Bool) (parseUuid : String → Option Uuid) (showUuid : Uuid → String)
  (printJson : Json → String) (specs : String → Option ToolSpec)

/-- `gen_random_uuid` gives out each id once. A link needs its run and its artifact to exist. -/
def ArtifactStore.step (s : ArtifactStore) : StoreAction → Option ArtifactStore
  | .create row =>
    (s.created.insert row).map fun created =>
      { s with artifacts := s.artifacts ++ [row], created := created }
  | .delete ids =>
    some { s with
      artifacts := s.artifacts.filter fun row => row.id ∉ ids
      links := s.links.filter fun link => link.artifact_id ∉ ids }
  | .check request =>
    match checkInput overflow_checks parseUuid showUuid printJson specs s.artifacts request with
    | some (.ok ids) => some { s with checked := s.checked ++ [(request, ids)] }
    | _ => some s
  | .enqueue request ids run_id =>
    if (request, ids) ∈ s.checked ∧ ∀ id ∈ ids, id ∈ s.artifacts.map (·.id) then
      (s.runs.insert ⟨run_id, request⟩).map fun runs =>
        { s with runs := runs, links := linkInputs s.links run_id ids }
    else none
  | .output run_id artifact_id =>
    if run_id ∈ s.runs.rows.map (·.id) ∧ artifact_id ∈ s.artifacts.map (·.id) then
      some { s with links := linkArtifact s.links ⟨run_id, artifact_id, "output"⟩ }
    else none

end

section

variable {overflow_checks : Bool} {parseUuid : String → Option Uuid} {showUuid : Uuid → String}
  {printJson : Json → String} {specs : String → Option ToolSpec}

/-! ### The invariant -/

/-- The ids of the input have been extracted, and each is an artifact of the project. -/
def Covered (parseUuid : String → Option Uuid) (printJson : Json → String)
    (specs : String → Option ToolSpec) (created : List ArtifactRow) (request : ToolRequest)
    (ids : List Uuid) : Prop :=
  ∃ spec, specs request.tool_name = some spec ∧
    requestIds parseUuid printJson spec request = .ok ids ∧
    ∀ id ∈ ids, OwnedBy created request.project_id id

lemma Covered.mono {created created' : List ArtifactRow} {request : ToolRequest} {ids : List Uuid}
    (h : Covered parseUuid printJson specs created request ids)
    (hsub : ∀ row ∈ created, row ∈ created') :
    Covered parseUuid printJson specs created' request ids := by
  obtain ⟨spec, hspec, hids, howned⟩ := h
  exact ⟨spec, hspec, hids, fun id hid => (howned id hid).mono hsub⟩

structure StoreInv (parseUuid : String → Option Uuid) (printJson : Json → String)
    (specs : String → Option ToolSpec) (s : ArtifactStore) : Prop where
  created : ∀ row ∈ s.artifacts, row ∈ s.created.rows
  checked : ∀ c ∈ s.checked, Covered parseUuid printJson specs s.created.rows c.1 c.2
  runs : ∀ run ∈ s.runs.rows, ∃ ids,
    Covered parseUuid printJson specs s.created.rows run.request ids
  links : ∀ link ∈ s.links, link.role = "input" → ∃ run ∈ s.runs.rows,
    run.id = link.tool_run_id ∧ OwnedBy s.created.rows run.request.project_id link.artifact_id

lemma storeInv_init : StoreInv parseUuid printJson specs .init := by
  refine ⟨?_, ?_, ?_, ?_⟩
  all_goals
    intro _ h
    cases h

lemma storeInv_step {s t : ArtifactStore} {a : StoreAction}
    (hs : StoreInv parseUuid printJson specs s)
    (h : s.step overflow_checks parseUuid showUuid printJson specs a = some t) :
    StoreInv parseUuid printJson specs t := by
  cases a with
  | create row =>
    obtain ⟨created, hcreated, rfl⟩ := Option.map_eq_some_iff.mp h
    have hrows := Table.rows_insert hcreated
    have hsub : ∀ row' ∈ s.created.rows, row' ∈ created.rows := by
      intro row' hrow'
      rw [hrows]
      exact List.mem_append_left _ hrow'
    refine ⟨?_, ?_, ?_, ?_⟩
    · intro row' hrow'
      rcases List.mem_append.mp hrow' with hold | hnew
      · exact hsub row' (hs.created row' hold)
      · rw [hrows]
        exact List.mem_append_right _ hnew
    · intro c hc
      exact (hs.checked c hc).mono hsub
    · intro run hrun
      obtain ⟨ids, hids⟩ := hs.runs run hrun
      exact ⟨ids, hids.mono hsub⟩
    · intro link hlink hrole
      obtain ⟨run, hrun, hid, howned⟩ := hs.links link hlink hrole
      exact ⟨run, hrun, hid, howned.mono hsub⟩
  | delete ids =>
    obtain rfl := Option.some.inj h
    refine ⟨?_, hs.checked, hs.runs, ?_⟩
    · intro row hrow
      exact hs.created row (List.mem_filter.mp hrow).1
    · intro link hlink hrole
      exact hs.links link (List.mem_filter.mp hlink).1 hrole
  | check request =>
    rw [ArtifactStore.step] at h
    split at h
    · rename_i ids hcheck
      obtain rfl := Option.some.inj h
      refine ⟨hs.created, ?_, hs.runs, hs.links⟩
      intro c hc
      rcases List.mem_append.mp hc with hold | hnew
      · exact hs.checked c hold
      · obtain rfl := List.mem_singleton.mp hnew
        obtain ⟨spec, hspec, hids, howned⟩ := checkInput_ok hcheck
        exact ⟨spec, hspec, hids, fun id hid => (howned id hid).mono hs.created⟩
    · obtain rfl := Option.some.inj h
      exact hs
  | enqueue request ids run_id =>
    rw [ArtifactStore.step] at h
    split_ifs at h with hcond
    obtain ⟨runs, hruns, rfl⟩ := Option.map_eq_some_iff.mp h
    have hrows := Table.rows_insert hruns
    have hcovered := hs.checked _ hcond.1
    refine ⟨hs.created, hs.checked, ?_, ?_⟩
    · intro run hrun
      rw [hrows] at hrun
      rcases List.mem_append.mp hrun with hold | hnew
      · exact hs.runs run hold
      · obtain rfl := List.mem_singleton.mp hnew
        exact ⟨ids, hcovered⟩
    · intro link hlink hrole
      rw [hrows]
      rcases mem_linkInputs.mp hlink with hold | ⟨id, hid, rfl⟩
      · obtain ⟨run, hrun, hid⟩ := hs.links link hold hrole
        exact ⟨run, List.mem_append_left _ hrun, hid⟩
      · obtain ⟨spec, -, -, howned⟩ := hcovered
        exact ⟨_, List.mem_append_right _ (List.mem_singleton_self _), rfl, howned id hid⟩
  | output run_id artifact_id =>
    rw [ArtifactStore.step] at h
    split_ifs at h
    obtain rfl := Option.some.inj h
    refine ⟨hs.created, hs.checked, hs.runs, ?_⟩
    intro link hlink hrole
    rcases mem_linkArtifact.mp hlink with hold | rfl
    · exact hs.links link hold hrole
    · simp at hrole

lemma storeInv_exec {s : ArtifactStore} {as : List StoreAction}
    (h : exec (ArtifactStore.step overflow_checks parseUuid showUuid printJson specs) .init as =
      some s) :
    StoreInv parseUuid printJson specs s :=
  exec_preserves (fun _ _ _ => storeInv_step) storeInv_init h

/-- An artifact in the context of a run is an artifact of the project of the run. -/
lemma StoreInv.ownedBy_context {s : ArtifactStore} (hs : StoreInv parseUuid printJson specs s)
    {run : QueuedRun} (hrun : run ∈ s.runs.rows) {blobs : String → Option String}
    {context : List ArtifactRef} (h : buildContext s.links s.artifacts blobs run.id = .ok context)
    {a : ArtifactRef} (ha : a ∈ context) :
    OwnedBy s.artifacts run.request.project_id a.id := by
  obtain ⟨hlink, row, hrow, hid, -⟩ := mem_buildContext h ha
  obtain ⟨run', hrun', hrunid, row', hrow', hid', hproject⟩ := hs.links _ hlink rfl
  obtain rfl := Table.eq_of_key hrun' hrun hrunid
  obtain rfl := Table.eq_of_key (hs.created row hrow) hrow' (hid.trans hid'.symm)
  exact ⟨row, hrow, hid, hproject⟩

/-- The ids of a valid input are extracted when they stand directly at a reference and not too
deep; then they are artifacts of the project. Whatever the input, a run opens artifacts of its
project only. -/
theorem inputArtifacts_covered :
    (∀ schema input, InputSchema PlainName schema → Valid parseUuid schema input →
      ∃ ids, extractArtifactIds parseUuid printJson input (resolveSchemaPaths schema) = .ok ids ∧
        ∀ n ≤ maxDepth, ∀ s, DirectAt n schema input s → ∃ id ∈ ids, parseUuid s = some id) ∧
    ∀ as s,
      exec (ArtifactStore.step overflow_checks parseUuid showUuid printJson specs) .init as =
        some s →
      ∀ run ∈ s.runs.rows,
        (∃ spec, specs run.request.tool_name = some spec ∧
          (InputSchema PlainName spec.input_schema →
            Valid parseUuid spec.input_schema run.request.input_json →
            ∀ n ≤ maxDepth, ∀ text, DirectAt n spec.input_schema run.request.input_json text →
              ∃ id, parseUuid text = some id ∧
                OwnedBy s.created.rows run.request.project_id id)) ∧
        ∀ blobs context, buildContext s.links s.artifacts blobs run.id = .ok context →
          (∀ a ∈ context, OwnedBy s.artifacts run.request.project_id a.id) ∧
          ∀ schema_paths, OnlyPaths context (strings run.request.input_json)
            (strings (injectArtifactPaths parseUuid context run.request.input_json
              schema_paths)) := by
  refine ⟨fun schema input => extractArtifactIds_spec, ?_⟩
  intro as s h run hrun
  have hs := storeInv_exec h
  refine ⟨?_, ?_⟩
  · obtain ⟨ids, spec, hspec, hids, howned⟩ := hs.runs run hrun
    refine ⟨spec, hspec, ?_⟩
    intro hschema hvalid n hn text htext
    obtain ⟨ids', hids', hfound⟩ :=
      @extractArtifactIds_spec parseUuid printJson _ _ hschema hvalid
    obtain rfl := Except.ok.inj (hids.symm.trans hids')
    obtain ⟨id, hid, hparse⟩ := hfound n hn text htext
    exact ⟨id, hparse, howned id hid⟩
  · intro blobs context hcontext
    refine ⟨fun a ha => hs.ownedBy_context hrun hcontext ha, ?_⟩
    intro schema_paths
    exact onlyPaths_injectArtifactPaths _ _

end

/-! ### Ids that are too deep -/

/-- A reference so many objects down, and an input with an id there. -/
def deepSchema : ℕ → Json
  | 0 => .obj [("$ref", .str "#/$defs/ArtifactId")]
  | n + 1 => .obj [("type", .str "object"), ("properties", .obj [("next", deepSchema n)])]

def deepInput (id : String) : ℕ → Json
  | 0 => .str id
  | n + 1 => .obj [("next", deepInput id n)]

lemma properties_deepSchema (n : ℕ) : properties (deepSchema (n + 1)) = [("next", deepSchema n)] :=
  rfl

lemma inputSchema_deepSchema {P : String → Prop} (hnext : P "next") (n : ℕ) :
    InputSchema P (deepSchema n) := by
  induction n with
  | zero => exact .artifactId rfl
  | succ n ih =>
    refine .object rfl rfl ?_ ?_
    · intro p hp
      rw [properties_deepSchema, List.mem_singleton] at hp
      rw [hp]
      exact hnext
    · intro p hp
      rw [properties_deepSchema, List.mem_singleton] at hp
      rw [hp]
      exact ih

lemma valid_deepInput {parseUuid : String → Option Uuid} {id : String}
    (hid : (parseUuid id).isSome = true) (n : ℕ) :
    Valid parseUuid (deepSchema n) (deepInput id n) := by
  induction n with
  | zero => exact .artifactId rfl ⟨id, rfl, hid⟩
  | succ n ih =>
    refine .object rfl rfl ?_
    intro p hp child hchild
    rw [properties_deepSchema, List.mem_singleton] at hp
    subst hp
    obtain rfl := Option.some.inj hchild
    exact ih

lemma directAt_deepInput (id : String) (n : ℕ) :
    DirectAt n (deepSchema n) (deepInput id n) id := by
  induction n with
  | zero => exact .id id rfl
  | succ n ih => exact .property rfl (List.mem_singleton_self _) rfl ih

/-- Parses one id. -/
def sampleParseUuid (s : String) : Option Uuid :=
  if s = "6f1c3a52-8d4e-4b77-9a10-2f5e8c9d0b31" then some 1 else none

/-- An id 17 levels down is not extracted. -/
theorem not_inputArtifacts_covered_deep :
    ¬ ∀ schema input,
      InputSchema (fun _ => True) schema → Valid sampleParseUuid schema input →
        ∃ ids, extractArtifactIds sampleParseUuid (fun _ => "") input
            (resolveSchemaPaths schema) = .ok ids ∧
          ∀ n s, ArtifactAt n schema input s → ∃ id ∈ ids, sampleParseUuid s = some id := by
  intro h
  obtain ⟨ids, hids, hfound⟩ := h (deepSchema 17)
    (deepInput "6f1c3a52-8d4e-4b77-9a10-2f5e8c9d0b31" 17) (inputSchema_deepSchema trivial 17)
    (valid_deepInput rfl 17)
  have hpaths : resolveSchemaPaths (deepSchema 17) = [] := by decide
  rw [hpaths] at hids
  obtain rfl := Except.ok.inj hids
  obtain ⟨id, hid, -⟩ := hfound 17 _ (directAt_deepInput _ 17).artifactAt
  cases hid

def samplePrintJson (_ : Json) : String :=
  "\x7b\"next\":\"6f1c3a52-8d4e-4b77-9a10-2f5e8c9d0b31\"\x7d"

def sampleSpecs (tool_name : String) : Option ToolSpec :=
  if tool_name = "file.info" then some ⟨deepSchema 1, ⟨1000, 8⟩⟩ else none

def sampleRequest : ToolRequest :=
  ⟨7, "file.info", deepInput "6f1c3a52-8d4e-4b77-9a10-2f5e8c9d0b31" 1⟩

/-- Two projects with an artifact each; the request of one of them is run. -/
def sampleActions : List StoreAction :=
  [.create ⟨1, 7, "ab"⟩, .check sampleRequest, .create ⟨2, 8, "cd"⟩, .enqueue sampleRequest [1] 5]

theorem inputArtifacts_covered_sample :
    (∃ ids, extractArtifactIds sampleParseUuid samplePrintJson sampleRequest.input_json
        (resolveSchemaPaths (deepSchema 1)) = .ok ids ∧ 1 ∈ ids) ∧
    ∃ s context, exec (ArtifactStore.step true sampleParseUuid toString samplePrintJson sampleSpecs)
        .init sampleActions = some s ∧
      buildContext s.links s.artifacts (fun sha256 => some ("/blobs/" ++ sha256)) 5 =
        .ok context ∧
      context.map (·.storage_path) = ["/blobs/ab"] ∧
      (∃ id, sampleParseUuid "6f1c3a52-8d4e-4b77-9a10-2f5e8c9d0b31" = some id ∧
        OwnedBy s.created.rows 7 id) ∧
      ∀ a ∈ context, OwnedBy s.artifacts 7 a.id := by
  have hschema : InputSchema PlainName (deepSchema 1) :=
    inputSchema_deepSchema ⟨by simp, by simp⟩ 1
  have hvalid : Valid sampleParseUuid (deepSchema 1) sampleRequest.input_json :=
    valid_deepInput rfl 1
  have hdirect := directAt_deepInput "6f1c3a52-8d4e-4b77-9a10-2f5e8c9d0b31" 1
  refine ⟨?_, ?_⟩
  · have hcovered := @inputArtifacts_covered true sampleParseUuid toString samplePrintJson
      sampleSpecs
    obtain ⟨ids, hids, hfound⟩ := hcovered.1 _ _ hschema hvalid
    obtain ⟨id, hid, hparse⟩ := hfound 1 (by decide) _ hdirect
    obtain rfl : 1 = id := Option.some.inj hparse
    exact ⟨ids, hids, hid⟩
  have hrows : (exec (ArtifactStore.step true sampleParseUuid toString samplePrintJson
      sampleSpecs) .init sampleActions).map (fun s => (s.runs.rows, s.links, s.artifacts)) =
      some ([⟨5, sampleRequest⟩], [⟨5, 1, "input"⟩], [⟨1, 7, "ab"⟩, ⟨2, 8, "cd"⟩]) := by
    decide +kernel
  obtain ⟨s, hs, heq⟩ := Option.map_eq_some_iff.mp hrows
  obtain ⟨hruns, hlinks, hartifacts⟩ : _ ∧ _ ∧ _ := by simpa using heq
  have hrun : (⟨5, sampleRequest⟩ : QueuedRun) ∈ s.runs.rows := by
    rw [hruns]
    exact List.mem_singleton_self _
  have hcontext : buildContext s.links s.artifacts (fun sha256 => some ("/blobs/" ++ sha256)) 5 =
      .ok [⟨1, "ab", "/blobs/ab"⟩] := by
    rw [hlinks, hartifacts]
    rfl
  obtain ⟨⟨spec, hspec, hcovered⟩, hopened⟩ := inputArtifacts_covered.2 sampleActions s hs _ hrun
  obtain rfl : ToolSpec.mk (deepSchema 1) ⟨1000, 8⟩ = spec := Option.some.inj hspec
  exact ⟨s, _, hs, hcontext, rfl, hcovered hschema hvalid 1 (by decide) _ hdirect,
    (hopened _ _ hcontext).1⟩

end Arbeiterfarm.Jobs
