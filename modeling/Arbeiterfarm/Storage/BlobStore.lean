import Arbeiterfarm.Core.Json
import Arbeiterfarm.Foundation.Exec
import Arbeiterfarm.Foundation.Session
import Arbeiterfarm.Foundation.Table
import Mathlib.Logic.Function.Basic

/-!
# The blob store

Contents are stored in files that are named by their hash, with a row for each in the table
`blobs`, and artifacts refer to these rows. An upload places its file, inserts the row unless there
is one, and creates its artifact. The garbage collection of `af tick` lists the blobs that no
artifact refers to, and for each deletes the file and then the row. Uploads and passes of the
collection overlap in any way, a statement may fail or its answer may get lost, and any of them may
stop at any point.
-/

namespace Arbeiterfarm.Storage

open Foundation

abbrev Bytes := List UInt8

/-- The components of a path. -/
abbrev FilePath := List String

structure BlobRow where
  sha256 : String
  size_bytes : ℕ
  storage_path : FilePath
  deriving DecidableEq, Repr

abbrev BlobTable := Table BlobRow.sha256

structure ArtifactRow where
  id : Uuid
  project_id : Uuid
  sha256 : String
  filename : String
  mime_type : Option String
  source_tool_run_id : Option Uuid
  metadata : Json := .obj []
  description : Option String := none
  deriving Repr

abbrev ArtifactTable := Table ArtifactRow.id

/-! ### Statements -/

/-- The insert of `upsert_blob`, and whether it returns a row: `ON CONFLICT (sha256) DO NOTHING`. -/
def insertBlob (row : BlobRow) (t : BlobTable) : Bool × BlobTable :=
  match t.insert row with
  | some t' => (true, t')
  | none => (false, t)

def getBlob (sha256 : String) (t : BlobTable) : Option BlobRow := t.lookup sha256

/-- `none` if there is no blob that the artifact could refer to. -/
def createArtifact (row : ArtifactRow) (blobs : BlobTable) (t : ArtifactTable) :
    Option ArtifactTable :=
  if (getBlob row.sha256 blobs).isSome then t.insert row else none

def deleteArtifact (id : Uuid) (t : ArtifactTable) : ArtifactTable := t.delete (·.id = id)

/-- `EXISTS (SELECT 1 FROM artifacts a WHERE a.sha256 = …)`. -/
def isReferenced (sha256 : String) (artifacts : ArtifactTable) : Bool :=
  artifacts.rows.any (·.sha256 = sha256)

def findUnreferencedBlobs (blobs : BlobTable) (artifacts : ArtifactTable) :
    List (String × FilePath) :=
  (blobs.rows.filter fun b => !isReferenced b.sha256 artifacts).map fun b =>
    (b.sha256, b.storage_path)

def deleteBlobIfUnreferenced (sha256 : String) (artifacts : ArtifactTable) (t : BlobTable) :
    Bool × BlobTable :=
  if isReferenced sha256 artifacts then (false, t)
  else ((getBlob sha256 t).isSome, t.delete (·.sha256 = sha256))

/-! ### Files -/

structure StoreConfig where
  storage_root : FilePath
  /-- The SHA-256 of a content, in hexadecimal digits. -/
  digest : Bytes → String

/-- `data/{xx}/{yy}/{sha256}`. -/
def StoreConfig.blobPath (cfg : StoreConfig) (hash : String) : FilePath :=
  cfg.storage_root ++
    ["data", String.ofList (hash.toList.take 2), String.ofList ((hash.toList.drop 2).take 2), hash]

/-- The row of a content. -/
def StoreConfig.blobRow (cfg : StoreConfig) (data : Bytes) : BlobRow :=
  ⟨cfg.digest data, data.length, cfg.blobPath (cfg.digest data)⟩

/-- What `store_blob_from_file` checks of the hash that it is given. -/
def isSha256Hex (sha256 : String) : Bool :=
  sha256.length = 64 ∧ sha256.toList.all fun c =>
    c.isDigit ∨ ('a' ≤ c ∧ c ≤ 'f') ∨ ('A' ≤ c ∧ c ≤ 'F')

/-! ### The system -/

/-- Where an upload stands. Its temporary file belongs to it alone. -/
inductive Upload where
  | idle
  | placing (data : Bytes)
  | inserting (row : BlobRow)
  /-- The insert has found a conflict, and the row is read. -/
  | fetching (sha256 : String)
  | creating (sha256 : String)
  deriving DecidableEq, Repr

/-- The blob whose file has been placed. -/
def Upload.placed : Upload → Option String
  | .idle | .placing _ => none
  | .inserting row => some row.sha256
  | .fetching sha256 | .creating sha256 => some sha256

/-- Where a pass of the collection stands, with the candidates that are left. -/
inductive Collection where
  | deletingFiles (candidates : List (String × FilePath))
  | deletingRow (sha256 : String) (candidates : List (String × FilePath))
  deriving DecidableEq, Repr

def Collection.candidates : Collection → List (String × FilePath)
  | .deletingFiles candidates | .deletingRow _ candidates => candidates

structure StoreState where
  files : FilePath → Option Bytes
  blobs : BlobTable
  artifacts : ArtifactTable
  uploads : ℕ → Upload
  collections : ℕ → Collection

inductive StoreAction where
  | storeBlob (k : ℕ) (data : Bytes)
  /-- The caller has streamed the content to a temporary file and computed its hash. -/
  | storeBlobFromFile (k : ℕ) (data : Bytes)
  | place (k : ℕ) (renamed : Bool)
  | insertBlob (k : ℕ) (e : Execution)
  | fetchBlob (k : ℕ) (answered : Bool)
  | createArtifact (k : ℕ) (row : ArtifactRow) (e : Execution)
  | stopUpload (k : ℕ)
  | deleteArtifact (id : Uuid) (e : Execution)
  | collect (c : ℕ)
  | deleteFile (c : ℕ) (removed : Bool)
  | deleteRow (c : ℕ) (e : Execution)
  | stopCollection (c : ℕ)

namespace StoreState

def init : StoreState :=
  ⟨fun _ => none, Table.empty _, Table.empty _, fun _ => .idle, fun _ => .deletingFiles []⟩

def setUpload (s : StoreState) (k : ℕ) (u : Upload) : StoreState :=
  { s with uploads := Function.update s.uploads k u }

def setCollection (s : StoreState) (c : ℕ) (g : Collection) : StoreState :=
  { s with collections := Function.update s.collections c g }

/-- A rename that fails is as good when there is a file already. -/
def place (cfg : StoreConfig) (s : StoreState) (k : ℕ) (renamed : Bool) : Option StoreState :=
  match s.uploads k with
  | .placing data =>
    let row := cfg.blobRow data
    if renamed then
      some ({ s with files := Function.update s.files row.storage_path (some data) }.setUpload k
        (.inserting row))
    else if (s.files row.storage_path).isSome then some (s.setUpload k (.inserting row))
    else some (s.setUpload k .idle)
  | _ => none

/-- What follows when the insert returns a row, or none. -/
def afterInsert (e : Execution) (inserted : Bool) (sha256 : String) : Upload :=
  match e, inserted with
  | .answered, true => .creating sha256
  | .answered, false => .fetching sha256
  | _, _ => .idle

def insert (s : StoreState) (k : ℕ) (e : Execution) : Option StoreState :=
  match s.uploads k with
  | .inserting row =>
    let (inserted, blobs) := Storage.insertBlob row s.blobs
    some ({ s with blobs := e.apply s.blobs blobs }.setUpload k
      (afterInsert e inserted row.sha256))
  | _ => none

def fetch (s : StoreState) (k : ℕ) (answered : Bool) : Option StoreState :=
  match s.uploads k with
  | .fetching sha256 =>
    some (s.setUpload k
      (if answered ∧ (getBlob sha256 s.blobs).isSome then .creating sha256 else .idle))
  | _ => none

def create (s : StoreState) (k : ℕ) (row : ArtifactRow) (e : Execution) : Option StoreState :=
  match s.uploads k with
  | .creating sha256 =>
    match Storage.createArtifact { row with sha256 := sha256 } s.blobs s.artifacts with
    | some artifacts =>
      some ({ s with artifacts := e.apply s.artifacts artifacts }.setUpload k .idle)
    | none => some (s.setUpload k .idle)
  | _ => none

/-- A file that is already gone counts as removed; after another error the row is kept. -/
def deleteFile (s : StoreState) (c : ℕ) (removed : Bool) : Option StoreState :=
  match s.collections c with
  | .deletingFiles ((sha256, path) :: candidates) =>
    if removed then
      some ({ s with files := Function.update s.files path none }.setCollection c
        (.deletingRow sha256 candidates))
    else some (s.setCollection c (.deletingFiles candidates))
  | _ => none

def deleteRow (s : StoreState) (c : ℕ) (e : Execution) : Option StoreState :=
  match s.collections c with
  | .deletingRow sha256 candidates =>
    let (_, blobs) := deleteBlobIfUnreferenced sha256 s.artifacts s.blobs
    some ({ s with blobs := e.apply s.blobs blobs }.setCollection c (.deletingFiles candidates))
  | _ => none

/-- One statement or file operation of one party. -/
def step (cfg : StoreConfig) (s : StoreState) : StoreAction → Option StoreState
  | .storeBlob k data =>
    if s.uploads k = .idle then some (s.setUpload k (.placing data)) else none
  | .storeBlobFromFile k data =>
    if s.uploads k = .idle then
      some (s.setUpload k (if isSha256Hex (cfg.digest data) then .placing data else .idle))
    else none
  | .place k renamed => s.place cfg k renamed
  | .insertBlob k e => s.insert k e
  | .fetchBlob k answered => s.fetch k answered
  | .createArtifact k row e => s.create k row e
  | .stopUpload k => some (s.setUpload k .idle)
  | .deleteArtifact id e =>
    some { s with artifacts := e.apply s.artifacts (Storage.deleteArtifact id s.artifacts) }
  | .collect c =>
    if s.collections c = .deletingFiles [] then
      some (s.setCollection c (.deletingFiles (findUnreferencedBlobs s.blobs s.artifacts)))
    else none
  | .deleteFile c removed => s.deleteFile c removed
  | .deleteRow c e => s.deleteRow c e
  | .stopCollection c => some (s.setCollection c (.deletingFiles []))

/-- What a step does, by its outcomes. -/
inductive StoreRule (cfg : StoreConfig) (s : StoreState) : StoreAction → StoreState → Prop
  | blobGiven {k : ℕ} (data : Bytes) (hk : s.uploads k = .idle) :
    StoreRule cfg s (.storeBlob k data) (s.setUpload k (.placing data))
  | fileGiven {k : ℕ} (data : Bytes) (hk : s.uploads k = .idle)
    (hhex : isSha256Hex (cfg.digest data)) :
    StoreRule cfg s (.storeBlobFromFile k data) (s.setUpload k (.placing data))
  | hashRejected {k : ℕ} (data : Bytes) (hk : s.uploads k = .idle)
    (hhex : ¬ isSha256Hex (cfg.digest data)) :
    StoreRule cfg s (.storeBlobFromFile k data) (s.setUpload k .idle)
  | placed {k : ℕ} {data : Bytes} (hk : s.uploads k = .placing data) :
    StoreRule cfg s (.place k true) ({ s with
      files := Function.update s.files (cfg.blobPath (cfg.digest data)) (some data) }.setUpload k
        (.inserting (cfg.blobRow data)))
  | alreadyThere {k : ℕ} {data : Bytes} (hk : s.uploads k = .placing data)
    (hfile : (s.files (cfg.blobPath (cfg.digest data))).isSome) :
    StoreRule cfg s (.place k false) (s.setUpload k (.inserting (cfg.blobRow data)))
  | notPlaced {k : ℕ} {data : Bytes} (hk : s.uploads k = .placing data) :
    StoreRule cfg s (.place k false) (s.setUpload k .idle)
  | inserted {k : ℕ} {row : BlobRow} (e : Execution) (hk : s.uploads k = .inserting row) :
    StoreRule cfg s (.insertBlob k e)
      ({ s with blobs := e.apply s.blobs (insertBlob row s.blobs).2 }.setUpload k
        (afterInsert e (insertBlob row s.blobs).1 row.sha256))
  | fetched {k : ℕ} {sha256 : String} (answered : Bool) (hk : s.uploads k = .fetching sha256) :
    StoreRule cfg s (.fetchBlob k answered) (s.setUpload k (.creating sha256))
  | notFetched {k : ℕ} {sha256 : String} (answered : Bool)
    (hk : s.uploads k = .fetching sha256) :
    StoreRule cfg s (.fetchBlob k answered) (s.setUpload k .idle)
  | created {k : ℕ} {sha256 : String} {row : ArtifactRow} (e : Execution)
    {artifacts : ArtifactTable} (hk : s.uploads k = .creating sha256)
    (hcreate : Storage.createArtifact { row with sha256 := sha256 } s.blobs s.artifacts =
      some artifacts) :
    StoreRule cfg s (.createArtifact k row e)
      ({ s with artifacts := e.apply s.artifacts artifacts }.setUpload k .idle)
  | notCreated {k : ℕ} {sha256 : String} (row : ArtifactRow) (e : Execution)
    (hk : s.uploads k = .creating sha256) :
    StoreRule cfg s (.createArtifact k row e) (s.setUpload k .idle)
  | uploadStopped (k : ℕ) : StoreRule cfg s (.stopUpload k) (s.setUpload k .idle)
  | artifactDeleted (id : Uuid) (e : Execution) :
    StoreRule cfg s (.deleteArtifact id e)
      { s with artifacts := e.apply s.artifacts (Storage.deleteArtifact id s.artifacts) }
  | collected {c : ℕ} (hc : s.collections c = .deletingFiles []) :
    StoreRule cfg s (.collect c)
      (s.setCollection c (.deletingFiles (findUnreferencedBlobs s.blobs s.artifacts)))
  | fileDeleted {c : ℕ} {sha256 : String} {path : FilePath}
    {candidates : List (String × FilePath)}
    (hc : s.collections c = .deletingFiles ((sha256, path) :: candidates)) :
    StoreRule cfg s (.deleteFile c true)
      ({ s with files := Function.update s.files path none }.setCollection c
        (.deletingRow sha256 candidates))
  | fileKept {c : ℕ} {p : String × FilePath} {candidates : List (String × FilePath)}
    (hc : s.collections c = .deletingFiles (p :: candidates)) :
    StoreRule cfg s (.deleteFile c false) (s.setCollection c (.deletingFiles candidates))
  | rowDeleted {c : ℕ} {sha256 : String} {candidates : List (String × FilePath)} (e : Execution)
    (hc : s.collections c = .deletingRow sha256 candidates) :
    StoreRule cfg s (.deleteRow c e) ({ s with
      blobs := e.apply s.blobs (deleteBlobIfUnreferenced sha256 s.artifacts s.blobs).2
        }.setCollection c (.deletingFiles candidates))
  | collectionStopped (c : ℕ) :
    StoreRule cfg s (.stopCollection c) (s.setCollection c (.deletingFiles []))

lemma StoreRule.of_step {cfg : StoreConfig} {s t : StoreState} {a : StoreAction}
    (h : s.step cfg a = some t) : StoreRule cfg s a t := by
  cases a with
  | storeBlob k data =>
    simp only [step] at h
    split_ifs at h with hk
    obtain rfl := Option.some.inj h
    exact .blobGiven data hk
  | storeBlobFromFile k data =>
    simp only [step] at h
    split_ifs at h with hk hhex
    · obtain rfl := Option.some.inj h
      exact .fileGiven data hk hhex
    · obtain rfl := Option.some.inj h
      exact .hashRejected data hk hhex
  | place k renamed =>
    simp only [step, place] at h
    split at h
    · next data hk =>
      cases renamed with
      | true =>
        obtain rfl := Option.some.inj h
        exact .placed hk
      | false =>
        simp only [Bool.false_eq_true, if_false] at h
        split_ifs at h with hfile
        · obtain rfl := Option.some.inj h
          exact .alreadyThere hk hfile
        · obtain rfl := Option.some.inj h
          exact .notPlaced hk
    · cases h
  | insertBlob k e =>
    simp only [step, insert] at h
    split at h
    · next row hk =>
      obtain rfl := Option.some.inj h
      exact .inserted e hk
    · cases h
  | fetchBlob k answered =>
    simp only [step, fetch] at h
    split at h
    · next sha256 hk =>
      obtain rfl := Option.some.inj h
      split_ifs
      · exact .fetched answered hk
      · exact .notFetched answered hk
    · cases h
  | createArtifact k row e =>
    simp only [step, create] at h
    split at h
    · next sha256 hk =>
      split at h
      · next artifacts hcreate =>
        obtain rfl := Option.some.inj h
        exact .created e hk hcreate
      · obtain rfl := Option.some.inj h
        exact .notCreated row e hk
    · cases h
  | stopUpload k =>
    obtain rfl := Option.some.inj h
    exact .uploadStopped k
  | deleteArtifact id e =>
    obtain rfl := Option.some.inj h
    exact .artifactDeleted id e
  | collect c =>
    simp only [step] at h
    split_ifs at h with hc
    obtain rfl := Option.some.inj h
    exact .collected hc
  | deleteFile c removed =>
    simp only [step, deleteFile] at h
    split at h
    · next sha256 path candidates hc =>
      cases removed with
      | true =>
        obtain rfl := Option.some.inj h
        exact .fileDeleted hc
      | false =>
        obtain rfl := Option.some.inj h
        exact .fileKept hc
    · cases h
  | deleteRow c e =>
    simp only [step, deleteRow] at h
    split at h
    · next sha256 candidates hc =>
      obtain rfl := Option.some.inj h
      exact .rowDeleted e hc
    · cases h
  | stopCollection c =>
    obtain rfl := Option.some.inj h
    exact .collectionStopped c

/-- No operation is in flight. -/
def Quiescent (s : StoreState) : Prop :=
  (∀ k, s.uploads k = .idle) ∧ ∀ c, s.collections c = .deletingFiles []

end StoreState

end Arbeiterfarm.Storage
