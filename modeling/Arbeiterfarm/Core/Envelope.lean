import Arbeiterfarm.Core.Json

/-!
# The answers of tools

A tool in a process of its own answers with an output and with the files that it has produced, or
with an error. An answer is written as an object and read from an object or an array.
-/

namespace Arbeiterfarm

/-! ### Records -/

namespace Json

/-- The fields of a record are those of an object, or the elements of an array in their order. The
last ones may be missing from an array, from `required` on. -/
def asRecord (v : Json) (keys : List String) (required : ℕ) : Option Json :=
  match v with
  | .arr vs =>
    if required ≤ vs.length ∧ vs.length ≤ keys.length then some (.obj (keys.zip vs)) else none
  | v => some v

/-- The tag of a record, with the record of the other fields. -/
def asTagged (v : Json) (tag : String) : Option (String × Json) :=
  match v with
  | .arr (.str name :: vs) => some (name, .arr vs)
  | v => (v.strField tag).map fun name => (name, v)

@[simp] lemma asRecord_obj (fields : List (String × Json)) (keys : List String) (required : ℕ) :
    (obj fields).asRecord keys required = some (.obj fields) := rfl

@[simp] lemma asTagged_obj (fields : List (String × Json)) (tag : String) :
    (obj fields).asTagged tag = ((obj fields).strField tag).map fun name => (name, .obj fields) :=
  rfl

end Json

def optionalStr : Option String → Json
  | some s => .str s
  | none   => .null

/-! ### Answers -/

/-- A file in the scratch directory. Its name and its path are texts, or lists of characters. -/
structure ProducedFileOf (τ : Type) where
  filename : τ
  path : τ
  mime_type : Option String := none
  description : Option String
  deriving DecidableEq, Repr

abbrev ProducedFile := ProducedFileOf String

inductive OopResult where
  | ok (output : Json) (produced_files : List ProducedFile)
  | error (code message : String) (retryable : Bool)
  deriving DecidableEq, Repr

def ProducedFile.toJson (pf : ProducedFile) : Json :=
  .obj ([("filename", .str pf.filename), ("path", .str pf.path),
      ("mime_type", optionalStr pf.mime_type)] ++
    (pf.description.map fun text => ("description", Json.str text)).toList)

def OopResult.toJson : OopResult → Json
  | .ok output produced_files =>
    .obj [("status", .str "ok"), ("output", output),
      ("produced_files", .arr (produced_files.map ProducedFile.toJson))]
  | .error code message retryable =>
    .obj [("status", .str "error"), ("code", .str code), ("message", .str message),
      ("retryable", .bool retryable)]

/-- An `OopResponse` with the result. -/
def responseJson (r : OopResult) : Json := .obj [("result", r.toJson)]

def ProducedFile.ofJson (v : Json) : Option ProducedFile := do
  let v ← v.asRecord ["filename", "path", "mime_type", "description"] 3
  let filename ← v.strField "filename"
  let path ← v.strField "path"
  let mime_type ← v.optionalField "mime_type" Json.asStr
  let description ← v.optionalField "description" Json.asStr
  some ⟨filename, path, mime_type, description⟩

def OopResult.ofJson (v : Json) : Option OopResult := do
  let (status, v) ← v.asTagged "status"
  if status = "ok" then
    let v ← v.asRecord ["output", "produced_files"] 1
    let output ← v.get "output"
    let produced_files ← v.fieldOr "produced_files" (Json.readList ProducedFile.ofJson) []
    some (.ok output produced_files)
  else if status = "error" then
    let v ← v.asRecord ["code", "message", "retryable"] 3
    let code ← v.strField "code"
    let message ← v.strField "message"
    let retryable ← (v.get "retryable").bind Json.asBool
    some (.error code message retryable)
  else none

def readResponse (v : Json) : Option OopResult := do
  let v ← v.asRecord ["result"] 1
  (v.get "result").bind OopResult.ofJson

/-! ### Reading back -/

lemma ofJson_toJson_file (pf : ProducedFile) : ProducedFile.ofJson pf.toJson = some pf := by
  obtain ⟨filename, path, mime_type, description⟩ := pf
  cases mime_type <;> cases description <;> rfl

lemma ofJson_toJson_result (r : OopResult) : readResponse (responseJson r) = some r := by
  cases r with
  | ok output produced_files =>
    have hfiles : Json.readList ProducedFile.ofJson
        (.arr (produced_files.map ProducedFile.toJson)) = some produced_files :=
      Json.readList_map fun pf _ => ofJson_toJson_file pf
    show OopResult.ofJson (OopResult.ok output produced_files).toJson = _
    have htag : (OopResult.ok output produced_files).toJson.asTagged "status" =
        some ("ok", (OopResult.ok output produced_files).toJson) := rfl
    have hread : (OopResult.ok output produced_files).toJson.fieldOr "produced_files"
        (Json.readList ProducedFile.ofJson) [] = some produced_files := hfiles
    unfold OopResult.ofJson
    rw [htag]
    show (do
      let v ← some (OopResult.ok output produced_files).toJson
      let output ← v.get "output"
      let produced_files ← v.fieldOr "produced_files" (Json.readList ProducedFile.ofJson) []
      some (OopResult.ok output produced_files)) = _
    rw [Option.bind_eq_bind, Option.bind_some, hread]
    rfl
  | error code message retryable => rfl

/-- A tool may answer with arrays. -/
example : readResponse (.arr [.arr [.str "ok", .null, .arr [.arr [.str "a", .str "d/a", .null]]]]) =
    some (.ok .null [⟨"a", "d/a", none, none⟩]) := by
  decide

end Arbeiterfarm
