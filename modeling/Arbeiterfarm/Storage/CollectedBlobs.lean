import Arbeiterfarm.Storage.BlobStore

/-!
# Collecting blobs beside uploads

The collection deletes a file before it finds out whether the blob is referenced by then. The row
that it keeps in that case, or that an upload which had placed the file by then inserts anew, is
left without a file. So the blobs keep their files when a file is deleted only while no
artifact refers to the blob and no upload relies on the file, and when a pass that has deleted a
file gets to delete the row.
-/

namespace Arbeiterfarm.Storage

open Foundation

variable {cfg : StoreConfig} {s t : StoreState} {a : StoreAction}

/-! ### Files -/

/-- There is a file with the content of the blob. -/
def Present (cfg : StoreConfig) (files : FilePath → Option Bytes) (sha256 : String) : Prop :=
  ∃ data, files (cfg.blobPath sha256) = some data ∧ cfg.digest data = sha256

lemma blobPath_inj {hash hash' : String} (h : cfg.blobPath hash = cfg.blobPath hash') :
    hash = hash' := by
  simp only [StoreConfig.blobPath, List.append_cancel_left_eq, List.cons.injEq] at h
  exact h.2.2.2.1

lemma present_place (cfg : StoreConfig) (files : FilePath → Option Bytes) (data : Bytes) :
    Present cfg (Function.update files (cfg.blobPath (cfg.digest data)) (some data))
      (cfg.digest data) :=
  ⟨data, Function.update_self .., rfl⟩

/-- A file that is placed has the content that its name says. -/
lemma Present.place {files : FilePath → Option Bytes} {sha256 : String}
    (h : Present cfg files sha256) (data : Bytes) :
    Present cfg (Function.update files (cfg.blobPath (cfg.digest data)) (some data)) sha256 := by
  by_cases hsame : cfg.digest data = sha256
  · subst hsame
    exact present_place cfg files data
  · obtain ⟨data', hfile, hdigest⟩ := h
    refine ⟨data', ?_, hdigest⟩
    rw [Function.update_of_ne (fun heq => hsame (blobPath_inj heq).symm)]
    exact hfile

lemma Present.delete {files : FilePath → Option Bytes} {sha256 sha256' : String}
    (h : Present cfg files sha256) (hne : sha256 ≠ sha256') :
    Present cfg (Function.update files (cfg.blobPath sha256') none) sha256 := by
  obtain ⟨data, hfile, hdigest⟩ := h
  refine ⟨data, ?_, hdigest⟩
  rw [Function.update_of_ne (fun heq => hne (blobPath_inj heq))]
  exact hfile

/-! ### The invariant -/

/-- A file is deleted while nothing refers to its blob and no upload relies on it, and a pass that
has deleted a file deletes the row. -/
def DeletesAbandoned (s : StoreState) : StoreAction → Prop
  | .deleteFile c true => ∀ p candidates, s.collections c = .deletingFiles (p :: candidates) →
    isReferenced p.1 s.artifacts = false ∧ ∀ k, (s.uploads k).placed ≠ some p.1
  | .deleteRow _ e => e.executed = true
  | .stopCollection c => ∀ sha256 candidates, s.collections c ≠ .deletingRow sha256 candidates
  | _ => True

/-- The blob has its file, or a pass is about to delete its row. -/
def BlobOk (cfg : StoreConfig) (s : StoreState) (sha256 : String) : Prop :=
  Present cfg s.files sha256 ∨ ∃ c candidates, s.collections c = .deletingRow sha256 candidates

structure StoreInv (cfg : StoreConfig) (s : StoreState) : Prop where
  contents : ∀ sha256 data, s.files (cfg.blobPath sha256) = some data → cfg.digest data = sha256
  paths : ∀ b ∈ s.blobs.rows, b.storage_path = cfg.blobPath b.sha256
  inserting : ∀ k row, s.uploads k = .inserting row → row.storage_path = cfg.blobPath row.sha256
  candidates : ∀ c, ∀ p ∈ (s.collections c).candidates, p.2 = cfg.blobPath p.1
  uploads : ∀ k sha256, (s.uploads k).placed = some sha256 → Present cfg s.files sha256
  artifacts : ∀ r ∈ s.artifacts.rows, Present cfg s.files r.sha256
  referenced : ∀ r ∈ s.artifacts.rows, (getBlob r.sha256 s.blobs).isSome
  blobs : ∀ b ∈ s.blobs.rows, BlobOk cfg s b.sha256

lemma storeInv_init (cfg : StoreConfig) : StoreInv cfg StoreState.init := by
  constructor
  · intro sha256 data hfile
    cases hfile
  · intro b hb
    cases hb
  · intro k row hk
    cases hk
  · intro c p hp
    cases hp
  · intro k sha256 hk
    cases hk
  · intro r hr
    cases hr
  · intro r hr
    cases hr
  · intro b hb
    cases hb

lemma isReferenced_iff {sha256 : String} {artifacts : ArtifactTable} :
    isReferenced sha256 artifacts = true ↔ ∃ r ∈ artifacts.rows, r.sha256 = sha256 := by
  simp [isReferenced]

/-- An upload goes on, when it may rely on the file. -/
lemma StoreInv.setUpload (hs : StoreInv cfg s) (k : ℕ) {u : Upload}
    (hrow : ∀ row, u = .inserting row → row.storage_path = cfg.blobPath row.sha256)
    (hplaced : ∀ sha256, u.placed = some sha256 → Present cfg s.files sha256) :
    StoreInv cfg (s.setUpload k u) where
  contents := hs.contents
  paths := hs.paths
  inserting :=
    (Function.forall_update_iff s.uploads fun _ v => ∀ row, v = .inserting row →
      row.storage_path = cfg.blobPath row.sha256).mpr ⟨hrow, fun k' _ => hs.inserting k'⟩
  candidates := hs.candidates
  uploads :=
    (Function.forall_update_iff s.uploads fun _ v => ∀ sha256, v.placed = some sha256 →
      Present cfg s.files sha256).mpr ⟨hplaced, fun k' _ => hs.uploads k'⟩
  artifacts := hs.artifacts
  referenced := hs.referenced
  blobs := hs.blobs

lemma StoreInv.setIdle (hs : StoreInv cfg s) (k : ℕ) : StoreInv cfg (s.setUpload k .idle) := by
  apply hs.setUpload
  · intro row hrow
    cases hrow
  · intro sha256 hplaced
    cases hplaced

/-- A pass goes on: a row that it leaves is not its concern, or has its file. -/
lemma StoreInv.setCollection (hs : StoreInv cfg s) (c : ℕ) {g : Collection}
    (hcandidates : ∀ p ∈ g.candidates, p.2 = cfg.blobPath p.1)
    (hrow : ∀ sha256 candidates, s.collections c = .deletingRow sha256 candidates →
      ∀ b ∈ s.blobs.rows, b.sha256 = sha256 → Present cfg s.files sha256) :
    StoreInv cfg (s.setCollection c g) where
  contents := hs.contents
  paths := hs.paths
  inserting := hs.inserting
  candidates :=
    (Function.forall_update_iff s.collections fun _ g => ∀ p ∈ g.candidates,
      p.2 = cfg.blobPath p.1).mpr ⟨hcandidates, fun c' _ => hs.candidates c'⟩
  uploads := hs.uploads
  artifacts := hs.artifacts
  referenced := hs.referenced
  blobs := by
    intro b hb
    rcases hs.blobs b hb with hpresent | ⟨c', candidates, hc'⟩
    · exact .inl hpresent
    · by_cases hcc : c' = c
      · subst hcc
        exact .inl (hrow b.sha256 candidates hc' b hb rfl)
      · refine .inr ⟨c', candidates, ?_⟩
        simp only [StoreState.setCollection]
        rw [Function.update_of_ne hcc]
        exact hc'

/-- A file is placed. -/
lemma StoreInv.place (hs : StoreInv cfg s) (data : Bytes) :
    StoreInv cfg { s with
      files := Function.update s.files (cfg.blobPath (cfg.digest data)) (some data) } where
  contents := by
    intro sha256 data' hfile
    dsimp only at hfile
    by_cases hsame : cfg.digest data = sha256
    · subst hsame
      rw [Function.update_self, Option.some.injEq] at hfile
      rw [hfile]
    · rw [Function.update_of_ne (fun heq => hsame (blobPath_inj heq).symm)] at hfile
      exact hs.contents sha256 data' hfile
  paths := hs.paths
  inserting := hs.inserting
  candidates := hs.candidates
  uploads k sha256 hk := (hs.uploads k sha256 hk).place data
  artifacts r hr := (hs.artifacts r hr).place data
  referenced := hs.referenced
  blobs b hb := (hs.blobs b hb).imp_left fun hpresent => hpresent.place data

/-- A statement on a table, whatever becomes of it. -/
lemma StoreInv.applyBlobs (hs : StoreInv cfg s) (e : Execution) {blobs : BlobTable}
    (h : StoreInv cfg { s with blobs := blobs }) :
    StoreInv cfg { s with blobs := e.apply s.blobs blobs } := by
  cases e with
  | answered | lost => exact h
  | failed => exact hs

lemma StoreInv.applyArtifacts (hs : StoreInv cfg s) (e : Execution) {artifacts : ArtifactTable}
    (h : StoreInv cfg { s with artifacts := artifacts }) :
    StoreInv cfg { s with artifacts := e.apply s.artifacts artifacts } := by
  cases e with
  | answered | lost => exact h
  | failed => exact hs

/-- A row is inserted for a file that is there. -/
lemma StoreInv.insertBlob (hs : StoreInv cfg s) {row : BlobRow}
    (hpath : row.storage_path = cfg.blobPath row.sha256)
    (hpresent : Present cfg s.files row.sha256) :
    StoreInv cfg { s with blobs := (insertBlob row s.blobs).2 } := by
  simp only [Storage.insertBlob]
  cases hinsert : s.blobs.insert row with
  | none => exact hs
  | some blobs =>
    have hmem {b : BlobRow} (hb : b ∈ blobs.rows) : b ∈ s.blobs.rows ∨ b = row := by
      rw [Table.rows_insert hinsert, List.mem_append, List.mem_singleton] at hb
      exact hb
    refine { hs with paths := ?_, referenced := ?_, blobs := ?_ }
    · intro b hb
      rcases hmem hb with hb | rfl
      · exact hs.paths b hb
      · exact hpath
    · intro r hr
      show (blobs.lookup r.sha256).isSome
      rw [Table.lookup_insert hinsert]
      split_ifs
      · rfl
      · exact hs.referenced r hr
    · intro b hb
      rcases hmem hb with hb | rfl
      · exact hs.blobs b hb
      · exact .inl hpresent

lemma StoreInv.createArtifact (hs : StoreInv cfg s) {row : ArtifactRow}
    {artifacts : ArtifactTable} (hpresent : Present cfg s.files row.sha256)
    (h : createArtifact row s.blobs s.artifacts = some artifacts) :
    StoreInv cfg { s with artifacts := artifacts } := by
  simp only [Storage.createArtifact] at h
  split_ifs at h with hblob
  have hmem {r : ArtifactRow} (hr : r ∈ artifacts.rows) : r ∈ s.artifacts.rows ∨ r = row := by
    rw [Table.rows_insert h, List.mem_append, List.mem_singleton] at hr
    exact hr
  refine { hs with artifacts := ?_, referenced := ?_ }
  · intro r hr
    rcases hmem hr with hr | rfl
    · exact hs.artifacts r hr
    · exact hpresent
  · intro r hr
    rcases hmem hr with hr | rfl
    · exact hs.referenced r hr
    · exact hblob

lemma StoreInv.deleteArtifact (hs : StoreInv cfg s) (id : Uuid) :
    StoreInv cfg { s with artifacts := deleteArtifact id s.artifacts } := by
  refine { hs with artifacts := ?_, referenced := ?_ }
  · intro r hr
    exact hs.artifacts r (List.mem_of_mem_filter hr)
  · intro r hr
    exact hs.referenced r (List.mem_of_mem_filter hr)

/-- The row of a blob that nothing refers to is deleted, and kept otherwise. -/
lemma StoreInv.deleteRow (hs : StoreInv cfg s) (sha256 : String) :
    StoreInv cfg
      { s with blobs := (deleteBlobIfUnreferenced sha256 s.artifacts s.blobs).2 } := by
  simp only [deleteBlobIfUnreferenced]
  split_ifs with href
  · exact hs
  · refine { hs with paths := ?_, referenced := ?_, blobs := ?_ }
    · intro b hb
      exact hs.paths b (List.mem_of_mem_filter hb)
    · intro r hr
      have hblob := hs.referenced r hr
      have hne : r.sha256 ≠ sha256 := fun heq => href (isReferenced_iff.mpr ⟨r, hr, heq⟩)
      obtain ⟨b, hb⟩ := Option.isSome_iff_exists.mp hblob
      have hbne : b.sha256 ≠ sha256 := by
        rw [Table.key_of_lookup hb]
        exact hne
      simp only [getBlob, Table.lookup_delete]
      rw [show s.blobs.lookup r.sha256 = some b from hb, Option.filter_some_pos]
      · rfl
      · simpa using hbne
    · intro b hb
      exact hs.blobs b (List.mem_of_mem_filter hb)

/-! ### The steps -/

lemma StoreInv.setPlacing (hs : StoreInv cfg s) (k : ℕ) (data : Bytes) :
    StoreInv cfg (s.setUpload k (.placing data)) := by
  apply hs.setUpload
  · intro row hrow
    cases hrow
  · intro sha256 hplaced
    cases hplaced

lemma StoreInv.setInserting (hs : StoreInv cfg s) (k : ℕ) {data : Bytes}
    (hpresent : Present cfg s.files (cfg.digest data)) :
    StoreInv cfg (s.setUpload k (.inserting (cfg.blobRow data))) := by
  apply hs.setUpload
  · intro row hrow
    cases hrow
    rfl
  · intro sha256 hplaced
    cases hplaced
    exact hpresent

/-- The upload relies on the file from here on. -/
lemma placed_afterInsert {e : Execution} {inserted : Bool} {sha256 sha256' : String}
    (h : (StoreState.afterInsert e inserted sha256).placed = some sha256') : sha256 = sha256' := by
  cases e <;> cases inserted <;> simp_all [StoreState.afterInsert, Upload.placed]

/-- A candidate's file is deleted that no row and no upload relies on. -/
lemma StoreInv.deleteFile (hs : StoreInv cfg s) {c : ℕ} {sha256 : String} {path : FilePath}
    {candidates : List (String × FilePath)}
    (hc : s.collections c = .deletingFiles ((sha256, path) :: candidates))
    (hunreferenced : isReferenced sha256 s.artifacts = false)
    (hunused : ∀ k, (s.uploads k).placed ≠ some sha256) :
    StoreInv cfg ({ s with files := Function.update s.files path none }.setCollection c
      (.deletingRow sha256 candidates)) := by
  have hcands : ∀ p ∈ (sha256, path) :: candidates, p.2 = cfg.blobPath p.1 := by
    have hcands := hs.candidates c
    rwa [hc] at hcands
  obtain rfl : path = cfg.blobPath sha256 := hcands _ List.mem_cons_self
  have hartifact {r : ArtifactRow} (hr : r ∈ s.artifacts.rows) : r.sha256 ≠ sha256 := by
    intro heq
    rw [isReferenced_iff.mpr ⟨r, hr, heq⟩] at hunreferenced
    cases hunreferenced
  refine { hs with
    contents := ?_, candidates := ?_, uploads := ?_, artifacts := ?_, blobs := ?_ }
  · intro sha256' data hfile
    simp only [StoreState.setCollection] at hfile
    by_cases hsame : sha256' = sha256
    · subst hsame
      rw [Function.update_self] at hfile
      cases hfile
    · rw [Function.update_of_ne (fun heq => hsame (blobPath_inj heq))] at hfile
      exact hs.contents sha256' data hfile
  · exact (Function.forall_update_iff s.collections fun _ g => ∀ p ∈ g.candidates,
      p.2 = cfg.blobPath p.1).mpr
        ⟨fun p hp => hcands p (List.mem_cons_of_mem _ hp), fun c' _ => hs.candidates c'⟩
  · intro k sha256' hk
    refine (hs.uploads k sha256' hk).delete ?_
    rintro rfl
    exact hunused k hk
  · intro r hr
    exact (hs.artifacts r hr).delete (hartifact hr)
  · intro b hb
    by_cases hsame : b.sha256 = sha256
    · refine .inr ⟨c, candidates, ?_⟩
      rw [hsame]
      exact Function.update_self ..
    · rcases hs.blobs b hb with hpresent | ⟨c', candidates', hc'⟩
      · exact .inl (hpresent.delete hsame)
      · refine .inr ⟨c', candidates', ?_⟩
        have hcc : c' ≠ c := by
          rintro rfl
          rw [hc] at hc'
          cases hc'
        exact (Function.update_of_ne hcc ..).trans hc'

/-- The row of a candidate is gone, or it is referred to and has its file. -/
lemma StoreInv.rowDeleted (hs : StoreInv cfg s) {c : ℕ} {sha256 : String}
    {candidates : List (String × FilePath)}
    (hc : s.collections c = .deletingRow sha256 candidates) :
    StoreInv cfg ({ s with
      blobs := (deleteBlobIfUnreferenced sha256 s.artifacts s.blobs).2 }.setCollection c
        (.deletingFiles candidates)) := by
  have hcands := hs.candidates c
  rw [hc] at hcands
  apply (hs.deleteRow sha256).setCollection c (g := .deletingFiles candidates) hcands
  intro sha256' candidates' hc' b hb hsha
  obtain ⟨rfl, -⟩ := Collection.deletingRow.inj (hc.symm.trans hc')
  simp only [deleteBlobIfUnreferenced] at hb
  split_ifs at hb with href
  · obtain ⟨r, hr, hrsha⟩ := isReferenced_iff.mp href
    rw [← hrsha]
    exact hs.artifacts r hr
  · have hkept := List.of_mem_filter hb
    simp [hsha] at hkept

lemma storeInv_step (hs : StoreInv cfg s) (hC : DeletesAbandoned s a)
    (h : s.step cfg a = some t) : StoreInv cfg t := by
  cases StoreState.StoreRule.of_step h with
  | @blobGiven k data hk | @fileGiven k data hk => exact hs.setPlacing k data
  | @hashRejected k | @notPlaced k | @notFetched k | @notCreated k | uploadStopped k =>
    exact hs.setIdle k
  | @placed k data hk => exact (hs.place data).setInserting k (present_place cfg s.files data)
  | @alreadyThere k data hk hfile =>
    obtain ⟨data', hdata'⟩ := Option.isSome_iff_exists.mp hfile
    exact hs.setInserting k ⟨data', hdata', hs.contents _ data' hdata'⟩
  | @inserted k row e hk =>
    have hpresent := hs.uploads k row.sha256 (by rw [hk]; rfl)
    have hs' := hs.applyBlobs e (hs.insertBlob (hs.inserting k row hk) hpresent)
    apply hs'.setUpload
    · intro row' hrow'
      cases e <;> cases hinserted : (insertBlob row s.blobs).1 <;>
        simp [StoreState.afterInsert, hinserted] at hrow'
    · intro sha256 hplaced
      rw [← placed_afterInsert hplaced]
      exact hpresent
  | @fetched k sha256 answered hk =>
    apply hs.setUpload
    · intro row hrow
      cases hrow
    · intro sha256' hplaced
      cases hplaced
      exact hs.uploads k sha256 (by rw [hk]; rfl)
  | @created k sha256 row e artifacts hk hcreate =>
    have hpresent : Present cfg s.files sha256 := hs.uploads k sha256 (by rw [hk]; rfl)
    have hs' := hs.applyArtifacts e (hs.createArtifact (by exact hpresent) hcreate)
    exact hs'.setIdle k
  | artifactDeleted id e => exact hs.applyArtifacts e (hs.deleteArtifact id)
  | @collected c hc =>
    apply hs.setCollection
    · intro p hp
      obtain ⟨b, hb, rfl⟩ := List.mem_map.mp hp
      exact hs.paths b (List.mem_of_mem_filter hb)
    · intro sha256 candidates hc'
      rw [hc] at hc'
      cases hc'
  | @fileDeleted c sha256 path candidates hc =>
    obtain ⟨hunreferenced, hunused⟩ := hC _ _ hc
    exact hs.deleteFile hc hunreferenced hunused
  | @fileKept c p candidates hc =>
    have hcands := hs.candidates c
    rw [hc] at hcands
    apply hs.setCollection
    · intro p' hp'
      exact hcands p' (List.mem_cons_of_mem _ hp')
    · intro sha256 candidates' hc'
      rw [hc] at hc'
      cases hc'
  | @rowDeleted c sha256 candidates e hc =>
    obtain ⟨-, happly⟩ | ⟨hfailed, -⟩ :=
      e.apply_eq s.blobs (deleteBlobIfUnreferenced sha256 s.artifacts s.blobs).2
    · rw [happly]
      exact hs.rowDeleted hc
    · rw [hC] at hfailed
      cases hfailed
  | collectionStopped c =>
    apply hs.setCollection
    · intro p hp
      cases hp
    · intro sha256 candidates hc'
      exact absurd hc' (hC sha256 candidates)

/-- What the blob store promises of a state without operations in flight. -/
structure StoreSafe (cfg : StoreConfig) (s : StoreState) : Prop where
  files : ∀ b ∈ s.blobs.rows, ∃ data, s.files b.storage_path = some data ∧
    cfg.digest data = b.sha256
  blobs : ∀ r ∈ s.artifacts.rows, ∃ b ∈ s.blobs.rows, b.sha256 = r.sha256

/-- In a run in which files are deleted only of abandoned blobs, and then the rows, each blob has
its file and each artifact its blob whenever no operation is in flight. -/
theorem storeSafe {as : List StoreAction} (h : exec (StoreState.step cfg) .init as = some s)
    (hC : Along (StoreState.step cfg) DeletesAbandoned .init as) (hq : s.Quiescent) :
    StoreSafe cfg s := by
  have hs : StoreInv cfg s :=
    exec_invariant (fun s a t hs hC hstep => storeInv_step hs hC hstep) (storeInv_init cfg) hC h
  constructor
  · intro b hb
    rw [hs.paths b hb]
    rcases hs.blobs b hb with hpresent | ⟨c, candidates, hc⟩
    · exact hpresent
    · rw [hq.2 c] at hc
      cases hc
  · intro r hr
    obtain ⟨b, hb⟩ := Option.isSome_iff_exists.mp (hs.referenced r hr)
    obtain ⟨hmem, hsha⟩ := Table.lookup_eq_some_iff.mp hb
    exact ⟨b, hmem, hsha⟩

/-! ### An upload that the collection overtakes -/

def storeCfg : StoreConfig where
  storage_root := ["", "var", "lib", "af"]
  digest data :=
    if data = [120] then "2d711642b726b04401627ca9fbac32f5c8530fb1903cc4db02258717921a4881"
    else "e3b0c44298fc1c149afbf4c8996fb92427ae41e4649b934ca495991b7852b855"

def noteArtifact (id : Uuid) : ArtifactRow where
  id := id
  project_id := 1
  sha256 := ""
  filename := "note.txt"
  mime_type := none
  source_tool_run_id := none

/-- An upload whose artifact is deleted again. -/
def uploadedOnce : List StoreAction :=
  [.storeBlob 0 [120], .place 0 true, .insertBlob 0 .answered,
    .createArtifact 0 (noteArtifact 1) .answered, .deleteArtifact 1 .answered]

/-- The blob is collected, and its content is uploaded again. -/
def collectedFirst : List StoreAction :=
  uploadedOnce ++ [.collect 0, .deleteFile 0 true, .deleteRow 0 .answered,
    .storeBlob 1 [120], .place 1 true, .insertBlob 1 .answered,
    .createArtifact 1 (noteArtifact 2) .answered]

/-- The second upload has placed its file when the collection deletes it. -/
def overtaken : List StoreAction :=
  uploadedOnce ++ [.collect 0, .storeBlob 1 [120], .place 1 true, .deleteFile 0 true,
    .insertBlob 1 .answered, .fetchBlob 1 true, .createArtifact 1 (noteArtifact 2) .answered,
    .deleteRow 0 .answered]

lemma deletesAbandoned_collectedFirst :
    Along (StoreState.step storeCfg) DeletesAbandoned .init collectedFirst := by
  apply Along.cons rfl trivial
  apply Along.cons rfl trivial
  apply Along.cons rfl trivial
  apply Along.cons rfl trivial
  apply Along.cons rfl trivial
  apply Along.cons rfl trivial
  apply Along.cons rfl
  · intro p candidates hc
    cases hc
    refine ⟨rfl, ?_⟩
    rintro (_ | k) hk
    · cases hk
    · cases hk
  apply Along.cons rfl
  · rfl
  apply Along.cons rfl trivial
  apply Along.cons rfl trivial
  apply Along.cons rfl trivial
  exact Along.cons rfl trivial trivial

theorem storeSafe_collectedFirst :
    ∃ s, exec (StoreState.step storeCfg) .init collectedFirst = some s ∧ s.Quiescent ∧
      s.blobs.rows.length = 1 ∧ StoreSafe storeCfg s := by
  obtain ⟨s, h⟩ : ∃ s, exec (StoreState.step storeCfg) .init collectedFirst = some s := ⟨_, rfl⟩
  have hq : s.Quiescent := by
    obtain rfl := Option.some.inj h
    constructor
    · rintro (_ | _ | k)
      · rfl
      · rfl
      · rfl
    · rintro (_ | c)
      · rfl
      · rfl
  refine ⟨s, h, hq, ?_, storeSafe h deletesAbandoned_collectedFirst hq⟩
  obtain rfl := Option.some.inj h
  rfl

/-- The row is kept, for the new artifact, but its file is gone. -/
theorem not_storeSafe_overtaken :
    ∃ s, exec (StoreState.step storeCfg) .init overtaken = some s ∧ s.Quiescent ∧
      s.artifacts.rows.length = 1 ∧ ¬ StoreSafe storeCfg s := by
  refine ⟨_, rfl, ⟨?_, ?_⟩, rfl, ?_⟩
  · rintro (_ | _ | k)
    · rfl
    · rfl
    · rfl
  · rintro (_ | c)
    · rfl
    · rfl
  · intro hs
    obtain ⟨data, hfile, -⟩ := hs.files (storeCfg.blobRow [120]) (List.mem_singleton_self _)
    cases hfile

end Arbeiterfarm.Storage
