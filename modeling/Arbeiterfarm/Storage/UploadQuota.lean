import Arbeiterfarm.Core.Json
import Arbeiterfarm.Foundation.Session
import Mathlib.Data.Option.Basic
import Mathlib.Tactic.SplitIfs

/-!
# Storage accounting of an upload

An upload reserves storage for its file before the blob is written, and releases it when the blob
or the artifact cannot be created. Each statement may be answered, executed without its answer
arriving, or fail; other requests of the user change the counter between the statements, so each
finds it at a value of its own.

What an upload itself adds to the counter is summed up along its way. How an upload goes is an
input.
-/

namespace Arbeiterfarm.Storage

open Foundation

inductive ApiError where
  | unauthorized (msg : String)
  | forbidden (msg : String)
  | notFound (msg : String)
  | badRequest (msg : String)
  | payloadTooLarge (msg : String)
  | quotaExceeded (msg : String)
  | internal (msg : String)
  deriving DecidableEq, Repr

/-- A database error, by its code. -/
def ApiError.ofDb (code : Option String) : ApiError :=
  if code = some "23505" then .badRequest "duplicate entry"
  else if code = some "23514" then .badRequest "invalid value"
  else if code = some "23503" then .badRequest "referenced entity not found"
  else .internal "internal database error"

/-! ### The counter -/

/-- The reservation is refused if the quota would be exceeded. -/
def reserveStorageAtomic (max_storage_bytes : Option ℕ) (delta_bytes used : ℕ) : ℕ × Bool :=
  if used + delta_bytes ≤ max_storage_bytes.getD 9223372036854775807 then
    (used + delta_bytes, true)
  else (used, false)

def releaseStorage (delta_bytes used : ℕ) : ℕ := used - delta_bytes

/-- What a statement that would set the counter from `used` to `used'` adds to it. -/
def added (e : Execution) (used used' : ℕ) : ℤ := (e.apply used used' : ℕ) - used

/-! ### An upload -/

structure FileUpload where
  user_id : Option Uuid
  /-- The size of the file, if the request is admitted and its stream is read to the end. -/
  received : Except ApiError ℕ
  /-- The limit for one file, if the lookup of the quota finds one. -/
  max_upload_bytes : Option ℕ
  max_storage_bytes : Option ℕ
  reserve : Execution
  /-- The counter that the reservation finds. -/
  reserve_used : ℕ
  blob : Except String Unit
  begin_scoped : Except (Option String) Unit
  insert : Execution
  commit : Execution
  /-- The code of the error of the insertion or the commit. -/
  error_code : Option String
  release : Execution
  /-- The counter that the release finds. -/
  release_used : ℕ

structure UploadResult where
  response : Except ApiError Unit
  created : Bool
  /-- What the upload has added to the counter. -/
  change : ℤ

namespace FileUpload

variable (u : FileUpload) (delta_bytes : ℕ)

/-- Release the storage, and answer with the error. -/
def releaseAndFail (change : ℤ) (e : ApiError) : UploadResult where
  response := .error e
  created := false
  change :=
    match u.user_id with
    | some _ =>
      change + added u.release u.release_used (releaseStorage delta_bytes u.release_used)
    | none => change

def createArtifact (change : ℤ) : UploadResult :=
  match u.user_id with
  | some _ =>
    match u.begin_scoped with
    | .error code => ⟨.error (.ofDb code), false, change⟩
    | .ok () =>
      match u.insert with
      | .answered =>
        match u.commit with
        | .answered => ⟨.ok (), true, change⟩
        | .lost     => ⟨.error (.ofDb u.error_code), true, change⟩
        | .failed   => ⟨.error (.ofDb u.error_code), false, change⟩
      | _ => u.releaseAndFail delta_bytes change (.ofDb u.error_code)
  | none =>
    match u.insert with
    | .answered => ⟨.ok (), true, change⟩
    | .lost     => ⟨.error (.ofDb u.error_code), true, change⟩
    | .failed   => ⟨.error (.ofDb u.error_code), false, change⟩

def storeBlob (change : ℤ) : UploadResult :=
  match u.blob with
  | .error msg => u.releaseAndFail delta_bytes change (.internal msg)
  | .ok ()     => u.createArtifact delta_bytes change

/-- A reservation that is not answered counts as granted. -/
def reserveStorage : UploadResult :=
  let (used, granted) := reserveStorageAtomic u.max_storage_bytes delta_bytes u.reserve_used
  let change := added u.reserve u.reserve_used used
  if u.reserve = .answered ∧ granted = false then
    ⟨.error (.payloadTooLarge "storage quota exceeded"), false, change⟩
  else u.storeBlob delta_bytes change

def run : UploadResult :=
  match u.received with
  | .error e => ⟨.error e, false, 0⟩
  | .ok delta_bytes =>
    match u.user_id, u.max_upload_bytes with
    | some _, some max =>
      if max < delta_bytes then
        ⟨.error (.payloadTooLarge ("file size " ++ toString delta_bytes ++
          " exceeds per-file upload limit " ++ toString max)), false, 0⟩
      else u.reserveStorage delta_bytes
    | some _, none => u.reserveStorage delta_bytes
    | none, _ => u.storeBlob delta_bytes 0

end FileUpload

/-! ### What is accounted for -/

/-- The change is the size of the file if the artifact was created, and nothing otherwise. -/
def UploadResult.Balanced (r : UploadResult) (size : ℕ) : Prop :=
  r.change = if r.created then (size : ℤ) else 0

namespace FileUpload

/-- The size of the file; there is none if the stream fails. -/
def size (u : FileUpload) : ℕ :=
  match u.received with
  | .ok size => size
  | .error _ => 0

variable (u : FileUpload) (size : ℕ)

def FitsQuota : Prop := u.reserve_used + size ≤ u.max_storage_bytes.getD 9223372036854775807

instance : Decidable (u.FitsQuota size) := inferInstanceAs (Decidable (_ ≤ _))

/-- The reservation takes effect. -/
def Reserves : Prop := u.reserve ≠ .failed ∧ u.FitsQuota size

/-- The release takes the size off the counter. -/
def Releases : Prop := u.release ≠ .failed ∧ size ≤ u.release_used

/-- The release leaves the counter as it is. -/
def Keeps : Prop := u.release = .failed ∨ u.release_used = 0

/-- The file is too large, or the answer to the reservation is that the quota is exceeded. -/
def Refused : Prop :=
  (∃ max, u.max_upload_bytes = some max ∧ max < size) ∨
    u.reserve = .answered ∧ ¬ u.FitsQuota size

/-- After a reservation that took effect, the transaction opens and commits unless there is a
failure before, and each failure before is followed by a release that takes the size off again.
After one that took none, no artifact is created, and no release changes the counter. -/
structure Settles : Prop where
  blob : u.Reserves size → u.blob ≠ .ok () → u.Releases size
  begin_scoped : u.Reserves size → u.blob = .ok () → u.begin_scoped = .ok ()
  insert : u.Reserves size → u.blob = .ok () → u.insert ≠ .answered → u.Releases size
  commit : u.Reserves size → u.blob = .ok () → u.insert = .answered → u.commit ≠ .failed
  kept : ¬ u.Reserves size →
    u.blob ≠ .ok () ∨ u.begin_scoped = .ok () ∧ u.insert ≠ .answered → u.Keeps
  not_created : ¬ u.Reserves size → u.blob = .ok () → u.begin_scoped = .ok () →
    u.insert = .answered → u.commit = .failed

/-- The upload accounts for its file. -/
def Accounts (u : FileUpload) : Prop :=
  u.size = 0 ∨ u.Refused u.size ∨ u.Settles u.size

end FileUpload

section Balance

variable {u : FileUpload} {size : ℕ}

lemma added_reserve_of_reserves (h : u.Reserves size) :
    added u.reserve u.reserve_used
      (reserveStorageAtomic u.max_storage_bytes size u.reserve_used).1 = size := by
  obtain ⟨hreserve, hfits⟩ := h
  rw [reserveStorageAtomic, if_pos (show _ ≤ _ from hfits), added]
  cases he : u.reserve with
  | failed => exact absurd he hreserve
  | answered | lost =>
    simp only [Execution.apply_answered, Execution.apply_lost]
    omega

lemma added_reserve_of_not_reserves (h : ¬ u.Reserves size) :
    added u.reserve u.reserve_used
      (reserveStorageAtomic u.max_storage_bytes size u.reserve_used).1 = 0 := by
  by_cases hfits : u.FitsQuota size
  · have hreserve : u.reserve = .failed := by
      by_contra hne
      exact h ⟨hne, hfits⟩
    simp [added, hreserve]
  · rw [reserveStorageAtomic, if_neg (show ¬ _ ≤ _ from hfits)]
    simp [added]

lemma added_release_eq_neg (hsize : size ≠ 0) :
    added u.release u.release_used (releaseStorage size u.release_used) = -size ↔
      u.Releases size := by
  simp only [added, releaseStorage, FileUpload.Releases]
  cases u.release <;> simp <;> omega

lemma added_release_eq_zero (hsize : size ≠ 0) :
    added u.release u.release_used (releaseStorage size u.release_used) = 0 ↔ u.Keeps := by
  simp only [added, releaseStorage, FileUpload.Keeps]
  cases u.release <;> simp <;> omega

lemma balanced_releaseAndFail {uid : Uuid} (huser : u.user_id = some uid) (change : ℤ)
    (e : ApiError) :
    (u.releaseAndFail size change e).Balanced size ↔
      added u.release u.release_used (releaseStorage size u.release_used) = -change := by
  simp only [UploadResult.Balanced, FileUpload.releaseAndFail, huser, Bool.false_eq_true, if_false]
  omega

lemma settles_iff_of_reserves (h : u.Reserves size) :
    u.Settles size ↔
      (u.blob ≠ .ok () → u.Releases size) ∧
        (u.blob = .ok () → u.begin_scoped = .ok () ∧ (u.insert ≠ .answered → u.Releases size) ∧
          (u.insert = .answered → u.commit ≠ .failed)) := by
  constructor
  · intro hsettles
    exact ⟨hsettles.blob h, fun hblob =>
      ⟨hsettles.begin_scoped h hblob, hsettles.insert h hblob, hsettles.commit h hblob⟩⟩
  · rintro ⟨hfail, hok⟩
    exact ⟨fun _ => hfail, fun _ hblob => (hok hblob).1, fun _ hblob => (hok hblob).2.1,
      fun _ hblob => (hok hblob).2.2, fun hnot => absurd h hnot, fun hnot => absurd h hnot⟩

lemma settles_iff_of_not_reserves (h : ¬ u.Reserves size) :
    u.Settles size ↔
      (u.blob ≠ .ok () ∨ u.begin_scoped = .ok () ∧ u.insert ≠ .answered → u.Keeps) ∧
        (u.blob = .ok () → u.begin_scoped = .ok () → u.insert = .answered →
          u.commit = .failed) := by
  constructor
  · intro hsettles
    exact ⟨hsettles.kept h, hsettles.not_created h⟩
  · rintro ⟨hkept, hnot⟩
    exact ⟨fun hr => absurd hr h, fun hr => absurd hr h, fun hr => absurd hr h,
      fun hr => absurd hr h, fun _ => hkept, fun _ => hnot⟩

section Authenticated

variable {uid : Uuid} (huser : u.user_id = some uid) (hsize : size ≠ 0)

include huser hsize

lemma balanced_storeBlob_of_reserves (h : u.Reserves size) :
    (u.storeBlob size size).Balanced size ↔ u.Settles size := by
  have hfail : ∀ e, (u.releaseAndFail size size e).Balanced size ↔ u.Releases size := fun e =>
    (balanced_releaseAndFail huser _ e).trans (added_release_eq_neg hsize)
  rw [settles_iff_of_reserves h]
  simp only [FileUpload.storeBlob, FileUpload.createArtifact, huser]
  cases hblob : u.blob with
  | error msg => simp [hfail]
  | ok _ =>
    cases hbegin : u.begin_scoped with
    | error code => simp [UploadResult.Balanced, hsize]
    | ok _ =>
      cases hinsert : u.insert with
      | lost | failed => simp [hfail]
      | answered => cases hcommit : u.commit <;> simp [UploadResult.Balanced, hsize]

lemma balanced_storeBlob_of_not_reserves (h : ¬ u.Reserves size) :
    (u.storeBlob size 0).Balanced size ↔ u.Settles size := by
  have hfail : ∀ e, (u.releaseAndFail size 0 e).Balanced size ↔ u.Keeps := fun e =>
    (balanced_releaseAndFail huser _ e).trans (added_release_eq_zero hsize)
  rw [settles_iff_of_not_reserves h]
  simp only [FileUpload.storeBlob, FileUpload.createArtifact, huser]
  cases hblob : u.blob with
  | error msg => simp [hfail]
  | ok _ =>
    cases hbegin : u.begin_scoped with
    | error code => simp [UploadResult.Balanced]
    | ok _ =>
      cases hinsert : u.insert with
      | lost | failed => simp [hfail]
      | answered => cases hcommit : u.commit <;> simp [UploadResult.Balanced, eq_comm, hsize]

lemma balanced_reserveStorage :
    (u.reserveStorage size).Balanced size ↔
      u.reserve = .answered ∧ ¬ u.FitsQuota size ∨ u.Settles size := by
  have hgranted : (reserveStorageAtomic u.max_storage_bytes size u.reserve_used).2 = false ↔
      ¬ u.FitsQuota size := by
    simp only [reserveStorageAtomic, FileUpload.FitsQuota]
    split_ifs with hfits <;> simp [hfits]
  simp only [FileUpload.reserveStorage, hgranted]
  by_cases hrefused : u.reserve = .answered ∧ ¬ u.FitsQuota size
  · have hnot : ¬ u.Reserves size := fun h => hrefused.2 h.2
    rw [if_pos hrefused, added_reserve_of_not_reserves hnot]
    simp [UploadResult.Balanced, hrefused]
  · rw [if_neg hrefused]
    simp only [hrefused, false_or]
    by_cases h : u.Reserves size
    · rw [added_reserve_of_reserves h]
      exact balanced_storeBlob_of_reserves huser hsize h
    · rw [added_reserve_of_not_reserves h]
      exact balanced_storeBlob_of_not_reserves huser hsize h

end Authenticated

/-- An empty file leaves the counter as it is. -/
lemma change_storeBlob_zero : (u.storeBlob 0 0).change = 0 := by
  have hrelease : added u.release u.release_used (releaseStorage 0 u.release_used) = 0 := by
    simp [added, releaseStorage]
  have hfail : ∀ e, (u.releaseAndFail 0 0 e).change = 0 := by
    intro e
    simp only [FileUpload.releaseAndFail, hrelease]
    cases u.user_id <;> rfl
  simp only [FileUpload.storeBlob, FileUpload.createArtifact]
  cases u.blob with
  | error msg => exact hfail _
  | ok _ =>
    cases u.user_id with
    | none => cases u.insert <;> rfl
    | some uid =>
      cases u.begin_scoped with
      | error code => rfl
      | ok _ =>
        cases u.insert with
        | lost | failed => exact hfail _
        | answered => cases u.commit <;> rfl

lemma change_reserveStorage_zero : (u.reserveStorage 0).change = 0 := by
  have hadded : added u.reserve u.reserve_used
      (reserveStorageAtomic u.max_storage_bytes 0 u.reserve_used).1 = 0 := by
    by_cases h : u.Reserves 0
    · exact added_reserve_of_reserves h
    · exact added_reserve_of_not_reserves h
  simp only [FileUpload.reserveStorage, hadded]
  split_ifs
  · rfl
  · exact change_storeBlob_zero

lemma change_run_zero (h : u.size = 0) : u.run.change = 0 := by
  cases hreceived : u.received with
  | error e => simp only [FileUpload.run, hreceived]
  | ok size =>
    obtain rfl : size = 0 := by rwa [FileUpload.size, hreceived] at h
    simp only [FileUpload.run, hreceived]
    cases u.user_id with
    | none => exact change_storeBlob_zero
    | some uid =>
      cases u.max_upload_bytes with
      | none => exact change_reserveStorage_zero
      | some max =>
        simp only [Nat.not_lt_zero, if_false]
        exact change_reserveStorage_zero

end Balance

/-- The counter changes by the size of the file if the artifact is created, and not otherwise,
exactly if the upload accounts for its file. -/
theorem balanced_run_iff_accounts {u : FileUpload} {uid : Uuid} (huser : u.user_id = some uid) :
    u.run.Balanced u.size ↔ u.Accounts := by
  by_cases hsize : u.size = 0
  · have hchange := change_run_zero hsize
    simp [UploadResult.Balanced, FileUpload.Accounts, hsize, hchange]
  · obtain ⟨size, hreceived⟩ : ∃ size, u.received = .ok size := by
      cases hreceived : u.received with
      | error e => simp [FileUpload.size, hreceived] at hsize
      | ok size => exact ⟨size, rfl⟩
    have heq : u.size = size := by simp only [FileUpload.size, hreceived]
    rw [heq] at hsize
    simp only [heq, FileUpload.Accounts, FileUpload.Refused, FileUpload.run, hreceived, huser,
      hsize, false_or]
    cases hmax : u.max_upload_bytes with
    | none =>
      simp only [reduceCtorEq, false_and, exists_false, false_or]
      exact balanced_reserveStorage huser hsize
    | some max =>
      simp only [Option.some.injEq, exists_eq_left']
      split_ifs with hlarge
      · simp [UploadResult.Balanced, hlarge]
      · simp only [hlarge, false_or]
        exact balanced_reserveStorage huser hsize

/-- The scoped transaction does not open: the reservation stays. -/
def notOpened : FileUpload where
  user_id := some 1
  received := .ok 4096
  max_upload_bytes := some 104857600
  max_storage_bytes := some 10737418240
  reserve := .answered
  reserve_used := 0
  blob := .ok ()
  begin_scoped := .error none
  insert := .answered
  commit := .answered
  error_code := none
  release := .answered
  release_used := 4096

theorem not_balanced_notOpened :
    notOpened.run.created = false ∧ notOpened.run.change = 4096 ∧
      ¬ notOpened.run.Balanced notOpened.size :=
  ⟨rfl, rfl, by rintro ⟨⟩⟩

theorem balanced_run_iff_accounts_notOpened :
    notOpened.run.Balanced notOpened.size ↔ notOpened.Accounts :=
  balanced_run_iff_accounts (show notOpened.user_id = some 1 from rfl)

end Arbeiterfarm.Storage
