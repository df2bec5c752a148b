import Arbeiterfarm.Foundation.Meter
import Arbeiterfarm.Jobs.Worker
import Arbeiterfarm.Storage.BlobStore

/-!
# The output store of a tool run

A tool stores its outputs through a `FileOutputStore`, which keeps two counters for the quotas of
the run. A call checks them first and advances them last; in between it stores the blob, creates
the artifact and links it to the run. Calls may overlap, each of their steps may fail, and a call
may be dropped at any point.

`stored` lists the contents that were stored for the run; no step reads it.
-/

namespace Arbeiterfarm.Storage

open Foundation Jobs

/-- The fields that do not change. -/
structure FileOutputStore where
  project_id : Uuid
  tool_run_id : Uuid
  max_output_bytes : UInt64
  max_produced_artifacts : UInt32

structure StoreRequest where
  filename : String
  data : Bytes
  mime_type : Option String := none
  metadata : Option Json := none
  description : Option String := none

structure ToolRunArtifact where
  tool_run_id : Uuid
  artifact_id : Uuid
  role : String
  deriving DecidableEq, Repr

/-- A description goes before metadata. -/
def FileOutputStore.artifactRow (st : FileOutputStore) (id : Uuid) (sha256 : String)
    (req : StoreRequest) : ArtifactRow where
  id := id
  project_id := st.project_id
  sha256 := sha256
  filename := req.filename
  mime_type := req.mime_type
  source_tool_run_id := some st.tool_run_id
  metadata := if req.description.isSome then .obj [] else req.metadata.getD (.obj [])
  description := req.description

/-- Where a call of `store_inner` stands. -/
inductive StoreCall where
  | idle
  | checkingBytes (req : StoreRequest)
  /-- The counter is loaded once more for the message. -/
  | rejectingBytes (req : StoreRequest)
  | checkingCount (req : StoreRequest)
  | storing (req : StoreRequest)
  | creating (req : StoreRequest) (sha256 : String)
  | linking (req : StoreRequest) (id : Uuid)
  | countingBytes (req : StoreRequest) (id : Uuid)
  | countingArtifact (id : Uuid)
  | done (result : Except ToolError Uuid)

structure OutputState where
  bytes_written : UInt64
  artifacts_produced : UInt32
  stored : List Bytes
  artifacts : ArtifactTable
  links : List ToolRunArtifact
  calls : ℕ → StoreCall

inductive OutputAction where
  | store (k : ℕ) (req : StoreRequest)
  | checkBytes (k : ℕ)
  | rejectBytes (k : ℕ)
  | checkCount (k : ℕ)
  | storeBlob (k : ℕ) (e : Execution) (msg : String)
  | createArtifact (k : ℕ) (id : Uuid) (e : Execution) (msg : String)
  | linkArtifact (k : ℕ) (e : Execution) (msg : String)
  | addBytes (k : ℕ)
  | addArtifact (k : ℕ)
  | drop (k : ℕ)

/-- `data.len() as u64`. -/
def StoreRequest.len (req : StoreRequest) : UInt64 := UInt64.ofNat req.data.length

def outputQuotaExceeded (st : FileOutputStore) (bytes_written : UInt64) (req : StoreRequest) :
    ToolError where
  code := "output_quota_exceeded"
  message :=
    s!"output would exceed quota: {bytes_written} + {req.data.length} > {st.max_output_bytes}"
  retryable := false
  details := .null

def artifactCountExceeded (st : FileOutputStore) : ToolError where
  code := "artifact_count_exceeded"
  message := s!"would exceed max produced artifacts: {st.max_produced_artifacts}"
  retryable := false
  details := .null

def storageError (msg : String) : ToolError := ⟨"storage_error", msg, true, .null⟩

def dbError (msg : String) : ToolError := ⟨"db_error", msg, true, .null⟩

namespace OutputState

def init : OutputState := ⟨0, 0, [], Table.empty _, [], fun _ => .idle⟩

def setCall (s : OutputState) (k : ℕ) (c : StoreCall) : OutputState :=
  { s with calls := Function.update s.calls k c }

/-- A call goes on after an answer, and returns the error otherwise. -/
def orError (e : Execution) (err : ToolError) (c : StoreCall) : StoreCall :=
  if e = .answered then c else .done (.error err)

/-- One atomic step of one call. -/
def step (st : FileOutputStore) (digest : Bytes → String) (s : OutputState) :
    OutputAction → Option OutputState
  | .store k req =>
    match s.calls k with
    | .idle | .done _ => some (s.setCall k (.checkingBytes req))
    | _ => none
  | .checkBytes k =>
    match s.calls k with
    | .checkingBytes req =>
      some (s.setCall k
        (if s.bytes_written + req.len > st.max_output_bytes then .rejectingBytes req
        else .checkingCount req))
    | _ => none
  | .rejectBytes k =>
    match s.calls k with
    | .rejectingBytes req =>
      some (s.setCall k (.done (.error (outputQuotaExceeded st s.bytes_written req))))
    | _ => none
  | .checkCount k =>
    match s.calls k with
    | .checkingCount req =>
      some (s.setCall k
        (if s.artifacts_produced + 1 > st.max_produced_artifacts then
          .done (.error (artifactCountExceeded st))
        else .storing req))
    | _ => none
  | .storeBlob k e msg =>
    match s.calls k with
    | .storing req =>
      some ({ s with stored := e.apply s.stored (s.stored ++ [req.data]) }.setCall k
        (orError e (storageError msg) (.creating req (digest req.data))))
    | _ => none
  | .createArtifact k id e msg =>
    match s.calls k with
    | .creating req sha256 =>
      (s.artifacts.insert (st.artifactRow id sha256 req)).map fun artifacts =>
        { s with artifacts := e.apply s.artifacts artifacts }.setCall k
          (orError e (dbError msg) (.linking req id))
    | _ => none
  | .linkArtifact k e msg =>
    match s.calls k with
    | .linking req id =>
      let links := s.links ++ [ToolRunArtifact.mk st.tool_run_id id "output"]
      some ({ s with links := e.apply s.links links }.setCall k
        (orError e (dbError msg) (.countingBytes req id)))
    | _ => none
  | .addBytes k =>
    match s.calls k with
    | .countingBytes req id =>
      some ({ s with bytes_written := s.bytes_written + req.len }.setCall k
        (.countingArtifact id))
    | _ => none
  | .addArtifact k =>
    match s.calls k with
    | .countingArtifact id =>
      some ({ s with artifacts_produced := s.artifacts_produced + 1 }.setCall k (.done (.ok id)))
    | _ => none
  | .drop k => some (s.setCall k .idle)

/-- The bytes that were stored for the run. -/
def totalBytes (s : OutputState) : ℕ := (s.stored.map List.length).sum

/-! ### What a step can do -/

inductive OutputRule (st : FileOutputStore) (digest : Bytes → String) (s : OutputState) :
    OutputAction → OutputState → Prop
  | started (k req) (hk : s.calls k = .idle ∨ ∃ result, s.calls k = .done result) :
    OutputRule st digest s (.store k req) (s.setCall k (.checkingBytes req))
  | bytesChecked (k req) (hk : s.calls k = .checkingBytes req)
    (hle : s.bytes_written + req.len ≤ st.max_output_bytes) :
    OutputRule st digest s (.checkBytes k) (s.setCall k (.checkingCount req))
  | bytesExceeded (k req) (hk : s.calls k = .checkingBytes req) :
    OutputRule st digest s (.checkBytes k) (s.setCall k (.rejectingBytes req))
  | bytesRejected (k req err) (hk : s.calls k = .rejectingBytes req) :
    OutputRule st digest s (.rejectBytes k) (s.setCall k (.done (.error err)))
  | countChecked (k req) (hk : s.calls k = .checkingCount req)
    (hle : s.artifacts_produced + 1 ≤ st.max_produced_artifacts) :
    OutputRule st digest s (.checkCount k) (s.setCall k (.storing req))
  | countRejected (k req err) (hk : s.calls k = .checkingCount req) :
    OutputRule st digest s (.checkCount k) (s.setCall k (.done (.error err)))
  | stored (k req msg) (hk : s.calls k = .storing req) :
    OutputRule st digest s (.storeBlob k .answered msg)
      ({ s with stored := s.stored ++ [req.data] }.setCall k
        (.creating req (digest req.data)))
  | storeFailed (k req e msg err) (hk : s.calls k = .storing req) (he : e ≠ .answered) :
    OutputRule st digest s (.storeBlob k e msg)
      ({ s with stored := e.apply s.stored (s.stored ++ [req.data]) }.setCall k
        (.done (.error err)))
  | created (k req sha256 id msg artifacts) (hk : s.calls k = .creating req sha256)
    (h : s.artifacts.insert (st.artifactRow id sha256 req) = some artifacts) :
    OutputRule st digest s (.createArtifact k id .answered msg)
      ({ s with artifacts := artifacts }.setCall k (.linking req id))
  | createFailed (k req sha256 id e msg err artifacts) (hk : s.calls k = .creating req sha256)
    (he : e ≠ .answered) :
    OutputRule st digest s (.createArtifact k id e msg)
      ({ s with artifacts := e.apply s.artifacts artifacts }.setCall k (.done (.error err)))
  | linked (k req id msg links) (hk : s.calls k = .linking req id) :
    OutputRule st digest s (.linkArtifact k .answered msg)
      ({ s with links := links }.setCall k (.countingBytes req id))
  | linkFailed (k req id e msg err links) (hk : s.calls k = .linking req id)
    (he : e ≠ .answered) :
    OutputRule st digest s (.linkArtifact k e msg)
      ({ s with links := links }.setCall k (.done (.error err)))
  | bytesAdded (k req id) (hk : s.calls k = .countingBytes req id) :
    OutputRule st digest s (.addBytes k)
      ({ s with bytes_written := s.bytes_written + req.len }.setCall k (.countingArtifact id))
  | artifactAdded (k id) (hk : s.calls k = .countingArtifact id) :
    OutputRule st digest s (.addArtifact k)
      ({ s with artifacts_produced := s.artifacts_produced + 1 }.setCall k (.done (.ok id)))
  | dropped (k) : OutputRule st digest s (.drop k) (s.setCall k .idle)

lemma OutputRule.of_step {st : FileOutputStore} {digest : Bytes → String} {s t : OutputState}
    {a : OutputAction} (h : s.step st digest a = some t) : OutputRule st digest s a t := by
  cases a with
  | store k req =>
    simp only [step] at h
    split at h
    · next hk =>
      obtain rfl := Option.some.inj h
      exact .started k req (.inl hk)
    · next result hk =>
      obtain rfl := Option.some.inj h
      exact .started k req (.inr ⟨result, hk⟩)
    · cases h
  | checkBytes k =>
    simp only [step] at h
    split at h
    · next req hk =>
      obtain rfl := Option.some.inj h
      split_ifs with hgt
      · exact .bytesExceeded k req hk
      · exact .bytesChecked k req hk (UInt64.not_lt.mp hgt)
    · cases h
  | rejectBytes k =>
    simp only [step] at h
    split at h
    · next req hk =>
      obtain rfl := Option.some.inj h
      exact .bytesRejected k req _ hk
    · cases h
  | checkCount k =>
    simp only [step] at h
    split at h
    · next req hk =>
      obtain rfl := Option.some.inj h
      split_ifs with hgt
      · exact .countRejected k req _ hk
      · exact .countChecked k req hk (UInt32.not_lt.mp hgt)
    · cases h
  | storeBlob k e msg =>
    simp only [step] at h
    split at h
    · next req hk =>
      obtain rfl := Option.some.inj h
      cases e with
      | answered => exact .stored k req msg hk
      | lost | failed => exact .storeFailed k req _ msg _ hk (by simp)
    · cases h
  | createArtifact k id e msg =>
    simp only [step] at h
    split at h
    · next req sha256 hk =>
      obtain ⟨artifacts, hinsert, rfl⟩ := Option.map_eq_some_iff.mp h
      cases e with
      | answered => exact .created k req sha256 id msg artifacts hk hinsert
      | lost | failed => exact .createFailed k req sha256 id _ msg _ artifacts hk (by simp)
    · cases h
  | linkArtifact k e msg =>
    simp only [step] at h
    split at h
    · next req id hk =>
      obtain rfl := Option.some.inj h
      cases e with
      | answered => exact .linked k req id msg _ hk
      | lost | failed => exact .linkFailed k req id _ msg _ _ hk (by simp)
    · cases h
  | addBytes k =>
    simp only [step] at h
    split at h
    · next req id hk =>
      obtain rfl := Option.some.inj h
      exact .bytesAdded k req id hk
    · cases h
  | addArtifact k =>
    simp only [step] at h
    split at h
    · next id hk =>
      obtain rfl := Option.some.inj h
      exact .artifactAdded k id hk
    · cases h
  | drop k =>
    obtain rfl := Option.some.inj h
    exact .dropped k

end OutputState

end Arbeiterfarm.Storage
