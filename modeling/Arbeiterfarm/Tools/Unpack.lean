import Arbeiterfarm.Core.Envelope
import Arbeiterfarm.Core.Text
import Arbeiterfarm.Foundation.Fallible
import Arbeiterfarm.Foundation.Table

/-!
# Unpacking archives

`transform.unpack` writes the entries of a ZIP or tar archive into one directory: the directories of
an entry's name are dropped, and a name that is taken already gets a number. Names and paths are
lists of characters. What the archive libraries read is given with the entries; the disk is a table
of files, and a write may fail.
-/

namespace Arbeiterfarm.Tools.Unpack

open Foundation

/-! ### Paths -/

/-- `std::path::Component`. -/
inductive PathComponent where
  | rootDir
  | curDir
  | parentDir
  | normal (name : List Char)
  deriving DecidableEq

/-- `Path::components`: separators in a row are one, and only a dot at the beginning counts. -/
def pathComponents (path : List Char) : List PathComponent :=
  let parts := path.splitOn '/'
  (if path.head? = some '/' then [.rootDir] else []) ++
    (if parts.head? = some ['.'] then [.curDir] else []) ++
      (parts.filter fun part => part ≠ [] ∧ part ≠ ['.']).map fun part =>
        if part = ['.', '.'] then .parentDir else .normal part

/-- `Path::file_name`. -/
def fileName (path : List Char) : Option (List Char) :=
  match (pathComponents path).getLast? with
  | some (.normal name) => some name
  | _ => none

/-- What is before the last dot of a file name and what is after it. -/
def rsplitFileAtDot (file : List Char) : Option (List Char) × Option (List Char) :=
  if file = ['.', '.'] then (some file, none)
  else
    let after := (file.reverse.takeWhile (· ≠ '.')).reverse
    match file.reverse.dropWhile (· ≠ '.') with
    | [] => (none, some after)
    | _ :: [] => (some file, none)
    | _ :: before => (some before.reverse, some after)

/-- `Path::file_stem`. -/
def fileStem (path : List Char) : Option (List Char) :=
  (fileName path).bind fun file => (rsplitFileAtDot file).1.or (rsplitFileAtDot file).2

/-- `Path::extension`. -/
def fileExtension (path : List Char) : Option (List Char) :=
  (fileName path).bind fun file => (rsplitFileAtDot file).1.bind fun _ => (rsplitFileAtDot file).2

/-- `Path::join`, for a directory whose path does not end in a separator. -/
def joinPath (dir name : List Char) : List Char :=
  if name.head? = some '/' then name else dir ++ '/' :: name

/-! ### Names -/

abbrev ProducedFile := ProducedFileOf (List Char)

/-- The name without its directories. -/
def validateEntryName (name : List Char) : Except String (List Char) :=
  if '\x00' ∈ name then .error "entry name contains null byte"
  else
    let refused := (pathComponents name).findSome? fun component =>
      match component with
      | .parentDir => some s!"path traversal in entry: {String.ofList name}"
      | .rootDir => some s!"absolute path in entry: {String.ofList name}"
      | _ => none
    match refused with
    | some e => .error e
    | none => .ok ((fileName name).getD ['u', 'n', 'n', 'a', 'm', 'e', 'd'])

/-- `{stem}_{i}{ext}`. -/
def numbered (stem ext : List Char) (i : ℕ) : List Char := stem ++ '_' :: Nat.toDigits 10 i ++ ext

def freshName (taken : List (List Char)) (name : List Char) : List Char :=
  if name ∉ taken then name
  else
    let stem := (fileStem name).getD name
    let ext := ((fileExtension name).map ('.' :: ·)).getD []
    let candidates := (List.range' 1 9999).map (numbered stem ext)
    (candidates.find? (· ∉ taken)).getD (stem ++ ['_', 'd', 'u', 'p'] ++ ext)

/-- Only the names of the files count. -/
def deduplicateName (existing : List ProducedFile) (name : List Char) : List Char :=
  freshName (existing.map (·.filename)) name

/-! ### The disk -/

/-- Files with their paths and contents. -/
abbrev FileTable := Table (Prod.fst : List Char × List UInt8 → List Char)

def FileTable.read (t : FileTable) (path : List Char) : Option (List UInt8) :=
  (t.lookup path).map Prod.snd

/-- `2^64`. -/
def u64Size : ℕ := 18446744073709551616

/-- The sizes of all files add up to less than `2^64`. -/
structure Disk where
  files : FileTable
  fits : (files.rows.map fun r => r.2.length).sum < u64Size

/-- `fs::write`, if there is room for it. -/
def Disk.write (disk : Disk) (path : List Char) (buf : List UInt8) : Option Disk :=
  let files := disk.files.upsert (path, buf) (fun r => (r.1, buf)) fun _ => rfl
  if h : (files.rows.map fun r => r.2.length).sum < u64Size then some ⟨files, h⟩ else none

/-! ### The limits -/

/-- The sum wraps around. -/
def addU64 (a b : ℕ) : ℕ := (a + b) % u64Size

def maxFiles (input : Json) : ℕ := min ((input.u64Field "max_files").getD 100) 500

def maxTotalBytes (input : Json) : ℕ := (input.u64Field "max_total_bytes").getD 268435456

/-! ### The loops -/

structure ZipEntry where
  is_dir : Bool
  name : List Char
  size : ℕ
  content : Except String (List UInt8)

structure TarEntry where
  is_dir : Bool
  path : Option (List Char)
  size : Option ℕ
  content : Except String (List UInt8)

structure Unpacked where
  disk : Disk
  files : List ProducedFile := []
  total_bytes : ℕ := 0

section

variable (osError : List Char → List UInt8 → Option String) (out_dir : List Char)

/-- The file of an entry, reported under the new name. -/
def extractedFile (kind : String) (name out_name : List Char) : ProducedFile where
  filename := out_name
  path := joinPath out_dir out_name
  description := some s!"Extracted from {kind}: {String.ofList name}"

/-- What is done with the bytes of an entry. -/
def writeEntry (kind : String) (st : Unpacked) (name out_name : List Char) (buf : List UInt8) :
    Except String Unpacked :=
  let out_path := joinPath out_dir out_name
  match osError out_path buf with
  | some e => .error s!"write {String.ofList out_name}: {e}"
  | none =>
    match st.disk.write out_path buf with
    | none => .error s!"write {String.ofList out_name}: No space left on device (os error 28)"
    | some disk => .ok
      { disk
        files := st.files ++ [extractedFile out_dir kind name out_name]
        total_bytes := addU64 st.total_bytes buf.length }

variable (max_files max_total_bytes : ℕ)

/-- One turn of the loop, with the entry of index `i`. -/
def zipTurn (st : Unpacked) (indexed : Except String ZipEntry × ℕ) :
    Except String (Fallible.Turn Unpacked) :=
  if max_files ≤ st.files.length then .ok (.stop st)
  else
    match indexed with
    | (.error e, i) => .error s!"zip entry {i}: {e}"
    | (.ok entry, _) =>
      if entry.is_dir then .ok (.next st)
      else
        match validateEntryName entry.name with
        | .error _ => .ok (.next st)
        | .ok safe_name =>
          if max_total_bytes < addU64 st.total_bytes entry.size then .ok (.stop st)
          else
            match entry.content with
            | .error e => .error s!"zip read {String.ofList entry.name}: {e}"
            | .ok buf =>
              if max_total_bytes < addU64 st.total_bytes buf.length then .ok (.stop st)
              else (writeEntry osError out_dir "ZIP" st entry.name
                (deduplicateName st.files safe_name) buf).map .next

def extractZip (disk : Disk) (entries : List (Except String ZipEntry)) : Except String Unpacked :=
  Fallible.runTurns (zipTurn osError out_dir max_files max_total_bytes) { disk } entries.zipIdx

/-- One turn of the loop; an entry that cannot be read is skipped. -/
def tarTurn (st : Unpacked) (entry_result : Except String TarEntry) :
    Except String (Fallible.Turn Unpacked) :=
  if max_files ≤ st.files.length then .ok (.stop st)
  else
    match entry_result with
    | .error _ => .ok (.next st)
    | .ok entry =>
      if entry.is_dir then .ok (.next st)
      else
        let name := entry.path.getD ['u', 'n', 'n', 'a', 'm', 'e', 'd']
        match validateEntryName name with
        | .error _ => .ok (.next st)
        | .ok safe_name =>
          if max_total_bytes < addU64 st.total_bytes (entry.size.getD 0) then .ok (.stop st)
          else
            match entry.content with
            | .error _ => .ok (.next st)
            | .ok buf =>
              if max_total_bytes < addU64 st.total_bytes buf.length then .ok (.stop st)
              else (writeEntry osError out_dir "tar" st name
                (deduplicateName st.files safe_name) buf).map .next

def extractTarFromReader (disk : Disk) (entries : List (Except String TarEntry)) :
    Except String Unpacked :=
  Fallible.runTurns (tarTurn osError out_dir max_files max_total_bytes) { disk } entries

end

inductive Archive where
  | zip (entries : List (Except String ZipEntry))
  | tar (entries : List (Except String TarEntry))

/-- `execute`, from the entries of the archive on. -/
def unpack (osError : List Char → List UInt8 → Option String) (out_dir : List Char) (disk : Disk)
    (input : Json) (archive : Archive) : Except String Unpacked :=
  let max_files := maxFiles input
  let max_total_bytes := maxTotalBytes input
  match archive with
  | .zip entries => extractZip osError out_dir max_files max_total_bytes disk entries
  | .tar entries => extractTarFromReader osError out_dir max_files max_total_bytes disk entries

/-! ### What it is for -/

/-- A file name that stays in its directory. -/
structure IsFileName (name : List Char) : Prop where
  ne_nil : name ≠ []
  ne_dot : name ≠ ['.']
  ne_dots : name ≠ ['.', '.']
  no_slash : '/' ∉ name

/-- The kind of an archive in the descriptions of its files. -/
def Archive.kind : Archive → String
  | .zip _ => "ZIP"
  | .tar _ => "tar"

/-- The name and the bytes of an entry that can be read. -/
def readZip (e : Except String ZipEntry) : Option (List Char × List UInt8) :=
  e.toOption.bind fun entry => entry.content.toOption.map fun buf => (entry.name, buf)

def readTar (e : Except String TarEntry) : Option (List Char × List UInt8) :=
  e.toOption.bind fun entry => entry.content.toOption.map fun buf =>
    (entry.path.getD ['u', 'n', 'n', 'a', 'm', 'e', 'd'], buf)

def Archive.contents : Archive → List (List Char × List UInt8)
  | .zip entries => entries.filterMap readZip
  | .tar entries => entries.filterMap readTar

/-- The file is in the directory and holds the bytes of the entry. -/
structure Holds (kind : String) (out_dir : List Char) (files : FileTable) (f : ProducedFile)
    (e : List Char × List UInt8) : Prop where
  name : IsFileName f.filename
  path : f.path = out_dir ++ '/' :: f.filename
  content : files.read f.path = some e.2
  description : f.description = some s!"Extracted from {kind}: {String.ofList e.1}"

def fileSize (files : FileTable) (f : ProducedFile) : ℕ := ((files.read f.path).getD []).length

/-- The files that are reported are distinct and in the directory, they are within the limits, and
each holds the bytes of its own entry. -/
structure Contained (out_dir : List Char) (input : Json) (archive : Archive) (st : Unpacked) :
    Prop where
  distinct : (st.files.map (·.filename)).Nodup
  few : st.files.length ≤ maxFiles input
  total : st.total_bytes = (st.files.map (fileSize st.disk.files)).sum
  small : st.total_bytes ≤ maxTotalBytes input
  whole : ∃ es, es.Sublist archive.contents ∧
    List.Forall₂ (Holds archive.kind out_dir st.disk.files) st.files es

end Arbeiterfarm.Tools.Unpack
