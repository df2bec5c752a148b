import Arbeiterfarm.Core.JsonMap
import Arbeiterfarm.Db.PluginDb
import Arbeiterfarm.Foundation.Entries
import Arbeiterfarm.Foundation.Table
import Arbeiterfarm.Tools.Renames

/-!
# Stored renames

`ghidra.rename` checks a list of renames and stores it with a single statement, one row for every
project, binary and old name. The renames of a binary are read back as a map.
-/

namespace Arbeiterfarm.Tools

open Foundation Db

/-! ### The tool -/

/-- `char::is_control`. -/
def isControl (c : Char) : Bool := c.toNat < 32 || (127 ≤ c.toNat && c.toNat < 160)

def validateRename (r : Json) : Except String Unit :=
  match r.strField "old" with
  | none => .error "each rename must have an 'old' string"
  | some old =>
    match r.strField "new" with
    | none => .error "each rename must have a 'new' string"
    | some new =>
      if old = "" then .error "'old' name cannot be empty"
      else if new = "" then .error "'new' name cannot be empty"
      else if utf8Len old > 256 then
        .error s!"'old' name too long ({utf8Len old} chars, max 256)"
      else if utf8Len new > 256 then
        .error s!"'new' name too long ({utf8Len new} chars, max 256)"
      else if old.toList.any isControl then .error "'old' name contains control characters"
      else if new.toList.any isControl then .error "'new' name contains control characters"
      else .ok ()

/-- `GhidraRenameExecutor::validate`. -/
def validateRenames (input : Json) : Except String Unit :=
  match (input.get "renames").bind Json.asArray with
  | none => .error "renames must be an array"
  | some renames =>
    if renames = [] then .error "renames array cannot be empty"
    else if renames.length > 50 then .error "renames array cannot exceed 50 items"
    else renames.forM validateRename

/-- The old name, the new one and the address. -/
abbrev Rename := String × String × Option String

def parseRename (r : Json) : Option Rename :=
  (r.strField "old").bind fun old => (r.strField "new").bind fun new =>
    if old = "" ∨ new = "" then none else some (old, new, r.strField "address")

/-- The renames that `execute` stores. -/
def parseRenames (input : Json) : List Rename :=
  (((input.get "renames").bind Json.asArray).getD []).filterMap parseRename

/-! ### The table -/

structure RenameRow where
  project_id : Uuid
  sha256 : String
  old_name : String
  new_name : String
  address : Option String
  renamed_by : Option Uuid
  updated_at : ℕ
  deriving DecidableEq

/-- The columns of the unique index. -/
def RenameRow.key (r : RenameRow) : Uuid × String × String := (r.project_id, r.sha256, r.old_name)

abbrev RenameTable := Table RenameRow.key

def renameJson (r : Rename) : Json :=
  let obj := Json.obj [("new_name", .str r.2.1), ("old_name", .str r.1)]
  match r.2.2 with
  | some a => obj.insert "address" (.str a)
  | none   => obj

/-- A cast to `jsonb` refuses the character `\u0000` in a text. -/
def refusedByJsonb (s : String) : Bool := s.toList.contains '\x00'

mutual

def hasNul : Json → Bool
  | .str s => refusedByJsonb s
  | .arr vs => hasNulList vs
  | .obj fields => hasNulFields fields
  | _ => false

def hasNulList : List Json → Bool
  | [] => false
  | v :: vs => hasNul v || hasNulList vs

def hasNulFields : List (String × Json) → Bool
  | [] => false
  | (k, v) :: fields => refusedByJsonb k || hasNul v || hasNulFields fields

end

section

variable (project_id : Uuid) (sha256 : String) (user_id : Option Uuid) (now : ℕ)

/-- The row that is selected for an element of the array; the names are not null. -/
def insertedRow (r : Json) : Option RenameRow :=
  (r.strField "old_name").bind fun old_name => (r.strField "new_name").map fun new_name =>
    { project_id, sha256, old_name, new_name
      address := (r.strField "address").filter (· ≠ "")
      renamed_by := user_id
      updated_at := now }

/-- `DO UPDATE SET`: an address that is there is kept if none is given. -/
def updatedRow (excluded row : RenameRow) : RenameRow :=
  { row with
    new_name := excluded.new_name
    address := excluded.address.or row.address
    renamed_by := excluded.renamed_by
    updated_at := excluded.updated_at }

lemma key_updatedRow (excluded row : RenameRow) : (updatedRow excluded row).key = row.key := rfl

def dbError (msg : String) : PluginDbError := .query ("error returned from database: " ++ msg)

/-- The table after the statement and the number of its rows, if it succeeds. -/
def upsertRenames (t : RenameTable) (renames : List Rename) :
    Except PluginDbError (RenameTable × ℕ) :=
  let renames_json := renames.map renameJson
  if hasNul (.arr renames_json) then .error (dbError "unsupported Unicode escape sequence")
  else
    match renames_json.mapM (insertedRow project_id sha256 user_id now) with
    | none => .error (dbError "null value violates not-null constraint")
    | some rows =>
      match t.upsertAll updatedRow key_updatedRow [] rows with
      | none => .error (dbError "ON CONFLICT DO UPDATE command cannot affect row a second time")
      | some u => .ok (u, rows.length)

end

/-- `HashMap::insert`. -/
def RenameMap.insert (renames : RenameMap) (old new : String) : RenameMap where
  entries := (old, new) :: renames.entries.filter fun e => e.1 ≠ old
  nodup := by
    rw [List.map_cons, List.nodup_cons]
    refine ⟨?_, renames.nodup.sublist (List.filter_sublist.map Prod.fst)⟩
    simp

/-- The renames of a binary, the latest first; each is put into the map. -/
def getRenames (t : RenameTable) (project_id : Uuid) (sha256 : String) : RenameMap :=
  let rows := (t.rows.filter fun r => r.project_id = project_id ∧ r.sha256 = sha256).insertionSort
    fun r r' => r'.updated_at ≤ r.updated_at
  rows.foldl (fun map row => map.insert row.old_name row.new_name) ⟨[], List.nodup_nil⟩

/-! ### What it is for -/

/-- The renames of the request. -/
def givenRenames (input : Json) : List Json := ((input.get "renames").bind Json.asArray).getD []

/-- The last new name that the request gives to an old one. -/
def lastNew (renames : List Json) (name : String) : Option String :=
  (renames.reverse.find? fun r => r.strField "old" = some name).bind (·.strField "new")

/-- The request succeeds, and what is read afterwards is the map from before with the last new name
of every old name of the list. -/
def StoresLast (t : RenameTable) (project_id : Uuid) (sha256 : String) (user_id : Option Uuid)
    (now : ℕ) (input : Json) : Prop :=
  ∃ u n, upsertRenames project_id sha256 user_id now t (parseRenames input) = .ok (u, n) ∧
    ∀ name, (getRenames u project_id sha256).get name =
      (lastNew (givenRenames input) name).or ((getRenames t project_id sha256).get name)

end Arbeiterfarm.Tools
