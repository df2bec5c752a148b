import Arbeiterfarm.Tools.Unpack

/-!
# Collecting what 7z has extracted

A 7z archive is extracted as a tree of directories. Then the tree is walked in the order in which
the directories are listed, and a file whose name has been reported already is renamed in its
directory.
-/

namespace Arbeiterfarm.Tools.Unpack

open Foundation

/-! ### The tree -/

/-- The entries of a directory in the order in which they are listed. -/
inductive Listing where
  | nil
  | file (name : List Char) (bytes : List UInt8) (rest : Listing)
  | dir (name : List Char) (entries : Listing) (rest : Listing)
  deriving DecidableEq

namespace Listing

def names : Listing → List (List Char)
  | nil => []
  | file name _ rest => name :: rest.names
  | dir name _ rest => name :: rest.names

/-- A directory has entries of different names. -/
def Valid : Listing → Prop
  | nil => True
  | file name _ rest => IsFileName name ∧ name ∉ rest.names ∧ rest.Valid
  | dir name entries rest =>
    IsFileName name ∧ name ∉ rest.names ∧ entries.Valid ∧ rest.Valid

end Listing

/-- A regular file that the walk comes to. -/
structure Visit where
  dir : List Char
  name : List Char
  bytes : List UInt8
  deriving DecidableEq

def Visit.path (v : Visit) : List Char := joinPath v.dir v.name

namespace Listing

/-- The regular files in the order of the walk. -/
def visits (dir : List Char) : Listing → List Visit
  | nil => []
  | file name bytes rest => ⟨dir, name, bytes⟩ :: rest.visits dir
  | Listing.dir name entries rest => entries.visits (joinPath dir name) ++ rest.visits dir

/-- The paths of the directories. -/
def dirs (dir : List Char) : Listing → List (List Char)
  | nil => []
  | file _ _ rest => rest.dirs dir
  | Listing.dir name entries rest =>
    joinPath dir name :: (entries.dirs (joinPath dir name) ++ rest.dirs dir)

end Listing

/-- What 7z has extracted into `base`, with the disk that holds it. -/
structure ExtractedTree where
  base : List Char
  listing : Listing
  valid : listing.Valid
  table : FileTable
  stored : ∀ v ∈ listing.visits base, table.read v.path = some v.bytes
  dirs_read : ∀ d ∈ listing.dirs base, table.read d = none

/-! ### The walk -/

lemma fst_written (buf : List UInt8) (r : List Char × List UInt8) : (r.1, buf).1 = r.1 := rfl

/-- `fs::rename`, whose result is ignored: there is no file, or a directory is in the way. -/
def FileTable.rename (t : FileTable) (dirs : List (List Char)) (path new_path : List Char) :
    FileTable :=
  match t.read path with
  | none => t
  | some buf =>
    if dirs.contains new_path then t
    else
      (t.delete fun r => r.1 = path).upsert (new_path, buf) (fun r => (r.1, buf)) (fst_written buf)

structure Collected where
  table : FileTable
  files : List ProducedFile := []
  total_bytes : ℕ := 0

section

variable (base : List Char) (dirs : List (List Char)) (max_files max_total_bytes : ℕ)

/-- The path without the base directory. -/
def relative (path : List Char) : List Char := path.drop (base.length + 1)

def describe7z (path : List Char) : Option String :=
  some s!"Extracted from 7z: {String.ofList (relative base path)}"

/-- What is done with a regular file of `size` bytes. -/
def collectFile (dir name : List Char) (size : ℕ) (st : Collected) : Collected :=
  let path := joinPath dir name
  let out_name := deduplicateName st.files name
  let total_bytes := addU64 st.total_bytes size
  if out_name ≠ name then
    let new_path := joinPath dir out_name
    { table := st.table.rename dirs path new_path
      files := st.files ++ [{
        filename := out_name, path := new_path, description := describe7z base path }]
      total_bytes }
  else
    { table := st.table
      files := st.files ++ [{ filename := out_name, path, description := describe7z base path }]
      total_bytes }

/-- The walk stops, in this directory. -/
def limitReached (st : Collected) : Prop :=
  max_files ≤ st.files.length ∨ max_total_bytes < st.total_bytes

instance (st : Collected) : Decidable (limitReached max_files max_total_bytes st) :=
  inferInstanceAs (Decidable (_ ∨ _))

def collectFilesRecursive (dir : List Char) : Listing → Collected → Collected
  | .nil, st => st
  | .file name _ rest, st =>
    if limitReached max_files max_total_bytes st then st
    else
      match st.table.read (joinPath dir name) with
      | none => collectFilesRecursive dir rest st
      | some buf =>
        if max_total_bytes < addU64 st.total_bytes buf.length then st
        else collectFilesRecursive dir rest (collectFile base dirs dir name buf.length st)
  | .dir name entries rest, st =>
    if limitReached max_files max_total_bytes st then st
    else collectFilesRecursive dir rest
      (collectFilesRecursive (joinPath dir name) entries st)

end

namespace ExtractedTree

variable (tree : ExtractedTree)

def visits : List Visit := tree.listing.visits tree.base

def dirs : List (List Char) := tree.listing.dirs tree.base

/-- `collect_files_recursive` as `extract_7z` calls it. -/
def collect (input : Json) : Collected :=
  collectFilesRecursive tree.base tree.dirs (maxFiles input) (maxTotalBytes input) tree.base
    tree.listing { table := tree.table }

/-! ### What it is for -/

/-- The tree is within the limits. -/
structure Within (input : Json) : Prop where
  few : tree.visits.length ≤ maxFiles input
  small : (tree.visits.map fun v => v.bytes.length).sum ≤ maxTotalBytes input

/-- The file is reported, and its path holds its bytes. -/
structure Kept (st : Collected) (f : ProducedFile) (v : Visit) : Prop where
  description : f.description = describe7z tree.base v.path
  content : st.table.read f.path = some v.bytes

/-- Each regular file is reported exactly once and kept, and the names are distinct. -/
def Preserved (st : Collected) : Prop :=
  (st.files.map (·.filename)).Nodup ∧ List.Forall₂ (tree.Kept st) st.files tree.visits

/-- No file gets a new name that an entry of its directory has. -/
def NoCollision (paths : List (List Char)) : List (List Char) → List Visit → Prop
  | _, [] => True
  | taken, v :: vs =>
    let out_name := freshName taken v.name
    (out_name = v.name ∨ joinPath v.dir out_name ∉ paths) ∧
      NoCollision paths (taken ++ [out_name]) vs

/-- The paths of all entries. -/
def paths : List (List Char) := tree.visits.map Visit.path ++ tree.dirs

end ExtractedTree

end Arbeiterfarm.Tools.Unpack
