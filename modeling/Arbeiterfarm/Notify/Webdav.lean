import Arbeiterfarm.Core.Bytes
import Arbeiterfarm.Core.Text
import Arbeiterfarm.Storage.BlobStore

/-!
# Delivery to a WebDAV server

A channel delivers to https URLs only. The attachment of a notification is read from the blob store
and sent to the server. The path that is read is made up from the hash of the artifact once more,
and it is not the path at which the blob store keeps the content: there is never a file at it.
-/

namespace Arbeiterfarm.Notify

open Foundation Storage

/-! ### Channels -/

/-- The URL is refused unless it is an https one; `none` stands for a panic. -/
def requireHttps (url label : String) : Option (Except String Unit) :=
  if "https://".toList <+: url.toList then some (.ok ())
  else
    (firstBytes url (min (utf8Len url) 30)).map fun start =>
      .error (label ++ " URL must use https:// (got: " ++ start ++ "...)")

lemma isSome_requireHttps (url label : String) : (requireHttps url label).isSome ↔
    "https://".toList <+: url.toList ∨ IsCharBoundary url (min (utf8Len url) 30) := by
  rw [requireHttps]
  by_cases h : "https://".toList <+: url.toList
  · rw [if_pos h]
    exact ⟨fun _ => .inl h, fun _ => rfl⟩
  · rw [if_neg h, Option.isSome_map, isSome_firstBytes]
    exact (or_iff_right h).symm

/-! ### The delivery -/

structure NotificationItem where
  subject : String
  body : String
  attachment_artifact_id : Option Uuid
  /-- The time of its creation, as `%Y%m%d_%H%M%S`. -/
  timestamp : String

/-- A request to put a body at a URL. -/
structure PutRequest where
  url : String
  body : Bytes
  content_type : Option String
  basic_auth : Option (String × String)
  deriving DecidableEq

/-- `is_alphanumeric`, and the text of the error about a file that is not there. -/
structure DeliveryLibs where
  isAlphanumeric : Char → Bool
  notFound : String

def webdavMaxUploadBytes : ℕ := 256 * 1024 * 1024

/-- `{xx}/{sha256}`; `none` stands for a panic. -/
def attachmentPath (storage_root : FilePath) (sha256 : String) : Option FilePath :=
  (firstBytes sha256 2).map fun start => storage_root ++ [start, sha256]

/-- The content of the attachment; `none` stands for a panic. -/
def readAttachment (libs : DeliveryLibs) (storage_root : FilePath)
    (files : FilePath → Option Bytes) (artifact : ArtifactRow) : Option (Except String Bytes) :=
  (attachmentPath storage_root artifact.sha256).map fun blob_path =>
    match files blob_path with
    | none => .error ("failed to read artifact blob: " ++ libs.notFound)
    | some data =>
      if data.length > webdavMaxUploadBytes then
        let len := data.length
        let max := webdavMaxUploadBytes
        .error s!"artifact too large for WebDAV upload ({len} bytes, max {max})"
      else .ok data

def basicAuth (config : Json) : Option (String × String) :=
  let username := (config.strField "username").getD ""
  if username = "" then none else some (username, (config.strField "password").getD "")

/-- The name of an artifact with the characters that are safe in a URL. -/
def safeFilename (libs : DeliveryLibs) (filename : String) : String :=
  String.ofList (filename.toList.map fun c =>
    if libs.isAlphanumeric c || c = '.' || c = '-' || c = '_' then c else '_')

def textFilename (libs : DeliveryLibs) (item : NotificationItem) : String :=
  let slug := (item.subject.toList.take 40).map fun c => if libs.isAlphanumeric c then c else '_'
  String.ofList slug ++ "_" ++ item.timestamp ++ ".txt"

/-- What is sent for a notification; `none` stands for a panic. -/
def webdavRequest (libs : DeliveryLibs) (storage_root : FilePath)
    (files : FilePath → Option Bytes) (artifacts : ArtifactTable) (item : NotificationItem)
    (config : Json) : Option (Except String PutRequest) :=
  match config.strField "url" with
  | none => some (.error "webdav config missing 'url'")
  | some url =>
    let base_url := String.ofList (trimEndMatches (· = '/') url.toList)
    (requireHttps base_url "webdav").bind fun checked =>
      match checked with
      | .error e => some (.error e)
      | .ok () =>
        match item.attachment_artifact_id with
        | some artifact_id =>
          match artifacts.lookup artifact_id with
          | none => some (.error "artifact not found")
          | some artifact =>
            (readAttachment libs storage_root files artifact).map fun data =>
              data.map fun data =>
                ⟨base_url ++ "/" ++ safeFilename libs artifact.filename, data, none,
                  basicAuth config⟩
        | none =>
          some (.ok ⟨base_url ++ "/" ++ textFilename libs item,
            utf8 (item.subject ++ "\n\n" ++ item.body).toList, some "text/plain; charset=utf-8",
            basicAuth config⟩)

/-! ### What can be read -/

variable {cfg : StoreConfig} {s t : StoreState}

/-- The files below the storage root: those of the blobs, and temporary ones. -/
def onDisk (cfg : StoreConfig) (s : StoreState) (temporary : String → Option Bytes)
    (path : FilePath) : Option Bytes :=
  if path.dropLast = cfg.storage_root ++ ["tmp"] then path.getLast?.bind temporary
  else s.files path

/-- The content that was stored for the artifact is what is sent. -/
def SendsStored (cfg : StoreConfig) (s : StoreState) (temporary : String → Option Bytes)
    (libs : DeliveryLibs) (artifact : ArtifactRow) (item : NotificationItem) (config : Json) :
    Prop :=
  ∃ req, webdavRequest libs cfg.storage_root (onDisk cfg s temporary) s.artifacts
      { item with attachment_artifact_id := some artifact.id } config = some (.ok req) ∧
    s.files (cfg.blobPath artifact.sha256) = some req.body

/-- Every file is where a blob belongs. -/
def FilesOfBlobs (cfg : StoreConfig) (s : StoreState) : Prop :=
  ∀ path, (s.files path).isSome → ∃ hash, path = cfg.blobPath hash

lemma FilesOfBlobs.place (hs : FilesOfBlobs cfg s) (hash : String) (data : Bytes) :
    FilesOfBlobs cfg { s with files := Function.update s.files (cfg.blobPath hash) (some data) } :=
  fun path hpath => by
    by_cases heq : path = cfg.blobPath hash
    · exact ⟨hash, heq⟩
    · simp only [Function.update_of_ne heq] at hpath
      exact hs path hpath

lemma FilesOfBlobs.delete (hs : FilesOfBlobs cfg s) (path : FilePath) :
    FilesOfBlobs cfg { s with files := Function.update s.files path none } := fun path' hpath => by
  by_cases heq : path' = path
  · simp [heq] at hpath
  · simp only [Function.update_of_ne heq] at hpath
    exact hs path' hpath

/-- Only placing a blob adds a file. -/
lemma filesOfBlobs_step (hs : FilesOfBlobs cfg s) {a : StoreAction}
    (h : s.step cfg a = some t) : FilesOfBlobs cfg t := by
  cases StoreState.StoreRule.of_step h with
  | @placed k data hk => exact hs.place (cfg.digest data) data
  | @fileDeleted c sha256 path candidates hc => exact hs.delete path
  | blobGiven | fileGiven | hashRejected | alreadyThere | notPlaced | inserted | fetched |
      notFetched | created | notCreated | uploadStopped | artifactDeleted | collected | fileKept |
      rowDeleted | collectionStopped =>
    exact hs

lemma utf8Len_of_firstBytes {text start : String} {n : ℕ} (h : firstBytes text n = some start) :
    utf8Len start = n := by
  obtain ⟨p, hp, rfl⟩ := Option.map_eq_some_iff.mp h
  rw [utf8Len, String.toList_ofList]
  exact ((Offsets.split?_eq_some_iff Char.utf8Size_pos).mp hp).2

/-- The path that is read is neither that of a blob nor that of a temporary file. -/
lemma onDisk_attachmentPath (hs : FilesOfBlobs cfg s) (temporary : String → Option Bytes)
    {sha256 : String} {path : FilePath}
    (h : attachmentPath cfg.storage_root sha256 = some path) :
    onDisk cfg s temporary path = none := by
  obtain ⟨start, hstart, rfl⟩ := Option.map_eq_some_iff.mp h
  have htmp : (cfg.storage_root ++ [start, sha256]).dropLast ≠ cfg.storage_root ++ ["tmp"] := by
    rw [List.dropLast_append_of_ne_nil (List.cons_ne_nil _ _), ne_eq, List.append_cancel_left_eq]
    intro heq
    obtain rfl : start = "tmp" := List.head_eq_of_cons_eq heq
    exact absurd (utf8Len_of_firstBytes hstart) (by decide)
  rw [onDisk, if_neg htmp, ← Option.not_isSome_iff_eq_none]
  intro hfile
  obtain ⟨hash, heq⟩ := hs _ hfile
  simp [StoreConfig.blobPath] at heq

/-- Nothing is sent for an attachment. -/
lemma webdavRequest_ne_ok (hs : FilesOfBlobs cfg s) (temporary : String → Option Bytes)
    (libs : DeliveryLibs) (item : NotificationItem) {id : Uuid}
    (hitem : item.attachment_artifact_id = some id) (config : Json) (req : PutRequest) :
    webdavRequest libs cfg.storage_root (onDisk cfg s temporary) s.artifacts item config ≠
      some (.ok req) := by
  intro h
  rw [webdavRequest, hitem] at h
  cases hurl : config.strField "url" with
  | none => simp [hurl] at h
  | some url =>
    simp only [hurl] at h
    obtain ⟨checked, -, h⟩ := Option.bind_eq_some_iff.mp h
    cases checked with
    | error e => simp at h
    | ok u =>
      simp only at h
      cases hartifact : s.artifacts.lookup id with
      | none => simp [hartifact] at h
      | some artifact =>
        simp only [hartifact, readAttachment, Option.map_map] at h
        obtain ⟨path, hpath, h⟩ := Option.map_eq_some_iff.mp h
        simp [onDisk_attachmentPath hs temporary hpath, Except.map] at h

lemma filesOfBlobs_exec (as : List StoreAction)
    (h : exec (StoreState.step cfg) StoreState.init as = some t) : FilesOfBlobs cfg t := by
  refine exec_preserves (fun s a t hs ht => filesOfBlobs_step hs ht) (fun path hpath => ?_) h
  cases hpath

/-- Nothing that was stored is ever sent. -/
theorem not_sendsStored (cfg : StoreConfig) (as : List StoreAction)
    (h : exec (StoreState.step cfg) StoreState.init as = some t)
    (temporary : String → Option Bytes) (libs : DeliveryLibs) (artifact : ArtifactRow)
    (item : NotificationItem) (config : Json) :
    ¬SendsStored cfg t temporary libs artifact item config := by
  rintro ⟨req, hreq, -⟩
  exact webdavRequest_ne_ok (filesOfBlobs_exec as h) temporary libs _ rfl config req hreq

/-- The hash of the empty content. -/
def emptyStore : StoreConfig where
  storage_root := ["srv", "af"]
  digest _ := "e3b0c44298fc1c149afbf4c8996fb92427ae41e4649b934ca495991b7852b855"

def emptyArtifact : ArtifactRow :=
  ⟨1, 2, emptyStore.digest [], "empty.txt", none, none, .obj [], none⟩

/-- The empty content is stored, and an artifact is created for it. -/
def storeEmpty : List StoreAction :=
  [.storeBlob 0 [], .place 0 true, .insertBlob 0 .answered,
    .createArtifact 0 emptyArtifact .answered]

def reportItem : NotificationItem := ⟨"Report", "See the attachment.", some 1, "20240101_000000"⟩

def webdavConfig : Json := .obj [("url", .str "https://dav.example/files")]

def asciiLibs : DeliveryLibs := ⟨Char.isAlphanum, "No such file or directory (os error 2)"⟩

theorem not_sendsStored_report :
    ∃ t, exec (StoreState.step emptyStore) StoreState.init storeEmpty = some t ∧
      ¬SendsStored emptyStore t (fun _ => none) asciiLibs emptyArtifact reportItem webdavConfig :=
  ⟨_, rfl, not_sendsStored emptyStore storeEmpty rfl (fun _ => none) asciiLibs emptyArtifact
    reportItem webdavConfig⟩

/-- The content is there and small, the URL is an https one, and the delivery fails. -/
theorem delivery_fails_report :
    ∃ t, exec (StoreState.step emptyStore) StoreState.init storeEmpty = some t ∧
      emptyArtifact ∈ t.artifacts.rows ∧
      t.files (emptyStore.blobPath emptyArtifact.sha256) = some [] ∧
      webdavRequest asciiLibs emptyStore.storage_root (onDisk emptyStore t fun _ => none)
          t.artifacts reportItem webdavConfig =
        some (.error
          "failed to read artifact blob: No such file or directory (os error 2)") ∧
      ¬SendsStored emptyStore t (fun _ => none) asciiLibs emptyArtifact reportItem
        webdavConfig := by
  refine ⟨_, rfl, List.mem_singleton_self _, rfl, by rfl, ?_⟩
  rintro ⟨req, hreq, -⟩
  exact webdavRequest_ne_ok (filesOfBlobs_exec storeEmpty rfl) _ _ _ rfl _ req hreq

end Arbeiterfarm.Notify
