import Arbeiterfarm.Core.Json
import Mathlib.Data.List.Basic

/-!
# Artifact ids in a tool input

`resolveSchemaPaths` collects the paths of an input schema that refer to artifact ids, and
`extractArtifactIds` reads the ids at these paths of an input. A path names the properties on the
way to a reference; an array does not show in it, so that the ids of an array are found when they
are its elements, and not when they lie deeper.
-/

namespace Arbeiterfarm

namespace Resolver

/-! ### Paths of a schema -/

def maxDepth : ℕ := 16

/-- The node refers to an artifact id, or to a list of them. -/
def isArtifactRef (schema : Json) : Bool :=
  schema.strField "$ref" = some "#/$defs/ArtifactId" ||
    schema.strField "$ref" = some "#/$defs/ArtifactIds"

def childPath (current_path key : String) : String :=
  if current_path = "" then "/" ++ key else current_path ++ "/" ++ key

/-- The properties of a schema. -/
def properties (schema : Json) : List (String × Json) :=
  match schema.get "properties" with
  | some (.obj props) => props
  | _ => []

/-- `levels` is how many more levels are walked, this one included. -/
def walkSchema : (levels : ℕ) → Json → String → List String
  | 0, _, _ => []
  | levels + 1, schema, current_path =>
    if isArtifactRef schema then [current_path]
    else
      ((properties schema).flatMap fun p => walkSchema levels p.2 (childPath current_path p.1)) ++
        match schema.get "items" with
        | some items => walkSchema levels items current_path
        | none => []

/-- The nodes at most `maxDepth` levels below the root are walked. -/
def resolveSchemaPaths (schema : Json) : List String := walkSchema (maxDepth + 1) schema ""

/-! ### Ids of an input -/

section

variable (parseUuid : String → Option Uuid) (printJson : Json → String)

def parseId (s : String) : Except String Uuid :=
  match parseUuid s with
  | some id => .ok id
  | none => .error ("invalid UUID: " ++ s)

/-- The ids of an array; elements that are no strings are passed over. -/
def elementIds : List Json → Except String (List Uuid)
  | [] => .ok []
  | .str s :: vs => do
    let id ← parseId parseUuid s
    let ids ← elementIds vs
    return id :: ids
  | _ :: vs => elementIds vs

/-- The ids of the value at the end of a path; a value that is missing or null has none. -/
def targetIds : Json → Except String (List Uuid)
  | .str s => (parseId parseUuid s).map fun id => [id]
  | .arr vs => elementIds parseUuid vs
  | .null => .ok []
  | value => .error ("expected string or array at path, got " ++ printJson value)

def extractAtPath : Json → List String → Except String (List Uuid)
  | value, [] => targetIds parseUuid printJson value
  | value, key :: path =>
    match value.get key with
    | some child => extractAtPath child path
    | none => .ok []

/-- The segments of a path that are not empty. -/
def pathParts (path : String) : List String :=
  ((path.toList.splitOn '/').filter fun part => part ≠ []).map String.ofList

/-- The ids at all paths, or the first error. -/
def extractArtifactIds (input : Json) : List String → Except String (List Uuid)
  | [] => .ok []
  | path :: paths => do
    let ids ← extractAtPath parseUuid printJson input (pathParts path)
    let ids' ← extractArtifactIds input paths
    return ids ++ ids'

end

/-! ### Paths of plain names -/

/-- A property name that a path can show. -/
def PlainName (key : String) : Prop := key ≠ "" ∧ '/' ∉ key.toList

lemma pathParts_childPath {key : String} (h : PlainName key) (current_path : String) :
    pathParts (childPath current_path key) = pathParts current_path ++ [key] := by
  have hkey : key.toList.splitOn '/' = [key.toList] := List.splitOn_eq_singleton h.2
  have hne : key.toList ≠ [] := by
    intro hnil
    apply h.1
    rw [← String.ofList_toList (s := key), hnil]
  have happend : (current_path.toList ++ '/' :: key.toList).splitOn '/' =
      current_path.toList.splitOn '/' ++ [key.toList] := by
    rw [List.splitOn_append_cons_self, hkey]
  have hpath : (childPath current_path key).toList = current_path.toList ++ '/' :: key.toList := by
    by_cases hcurrent : current_path = ""
    · simp [childPath, hcurrent]
    · simp [childPath, hcurrent]
  rw [pathParts, hpath, happend, List.filter_append, List.map_append, pathParts]
  simp [hne]

/-- The value that a path leads to. -/
def follow : Json → List String → Option Json
  | value, [] => some value
  | value, key :: path => (value.get key).bind fun child => follow child path

lemma follow_append (value : Json) (path : List String) (key : String) :
    follow value (path ++ [key]) = (follow value path).bind fun v => v.get key := by
  induction path generalizing value with
  | nil => cases h : value.get key <;> simp [follow, h]
  | cons key' path ih => cases h : value.get key' <;> simp [follow, h, ih]

variable {parseUuid : String → Option Uuid} {printJson : Json → String}

lemma extractAtPath_eq (value : Json) (path : List String) :
    extractAtPath parseUuid printJson value path =
      match follow value path with
      | some target => targetIds parseUuid printJson target
      | none => .ok [] := by
  induction path generalizing value with
  | nil => rfl
  | cons key path ih =>
    cases h : value.get key with
    | none => simp [extractAtPath, follow, h]
    | some child => simp [extractAtPath, follow, h, ih]

end Resolver

end Arbeiterfarm
