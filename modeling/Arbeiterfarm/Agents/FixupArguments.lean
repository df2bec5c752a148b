import Arbeiterfarm.Core.Json
import Arbeiterfarm.Core.Text
import Arbeiterfarm.Foundation.KeyEdits

/-!
# Argument fixups

Before the arguments of a tool call are validated, `fixup_arguments` corrects common mistakes: a
missing property takes the value of its singular form, and values are coerced, clamped or stripped.
All that is to be corrected is collected first, from the arguments as they were sent.
-/

namespace Arbeiterfarm.Agents

open Foundation
open Std (ExtTreeMap)

/-- `serde_json::Map`. -/
abbrev Fields := ExtTreeMap String Json

/-- The arguments of a call: an object or some other value. -/
inductive Arguments where
  | object (obj : Fields)
  | other (v : Json) (h : ∀ fields, v ≠ .obj fields)
  deriving DecidableEq

def Arguments.value : Arguments → Json
  | .object obj => .obj obj.toList
  | .other v _ => v

/-! ### The schema -/

def schemaProperties (schema : Json) : Option Fields :=
  match schema.get "properties" with
  | some (.obj fields) => some (.ofList fields)
  | _ => none

def requiredFields (schema : Json) : List String :=
  match (schema.get "required").bind Json.asArray with
  | some arr => arr.filterMap Json.asStr
  | none => []

def schemaType (prop_schema : Json) : String := (prop_schema.strField "type").getD ""

/-- `trim_end_matches('s')`, which trims all of them. -/
def singularForm (prop_name : String) : String :=
  String.ofList (trimEndMatches (· = 's') prop_name.toList)

/-- The minimum of the property, if the value is less. -/
def violatedMinimum (prop_schema val : Json) : Option ℤ :=
  if schemaType prop_schema = "integer" ∨ schemaType prop_schema = "number" then
    ((prop_schema.get "minimum").bind Json.asI64).bind fun min_val =>
      val.asI64.bind fun n => if n < min_val then some min_val else none
  else none

/-! ### What is to be corrected -/

section

variable (props : Fields) (required : List String) (obj : Fields)

/-- A missing property whose singular form is there: the wrong key and the correct one. -/
def renameFor (prop_name : String) : Option (String × String) :=
  if obj.contains prop_name then none
  else
    let singular := singularForm prop_name
    if singular ≠ prop_name ∧ obj.contains singular then some (singular, prop_name) else none

def renames : List (String × String) :=
  props.toList.filterMap fun (prop_name, _) => renameFor obj prop_name

def typeCoercion : String × Json → Option String
  | (prop_name, prop_schema) =>
    obj[prop_name]?.bind fun val =>
      if schemaType prop_schema = "array" ∧ val.isString then some prop_name else none

def numToStr : String × Json → Option String
  | (prop_name, prop_schema) =>
    obj[prop_name]?.bind fun val =>
      if schemaType prop_schema = "string" ∧ val.isNumber then some prop_name else none

/-- A required field is clamped. -/
def minClamp : String × Json → Option (String × ℤ)
  | (prop_name, prop_schema) =>
    obj[prop_name]?.bind fun val =>
      (violatedMinimum prop_schema val).bind fun min_val =>
        if prop_name ∈ required then some (prop_name, min_val) else none

/-- An optional field is stripped. -/
def minStrip : String × Json → Option String
  | (prop_name, prop_schema) =>
    obj[prop_name]?.bind fun val =>
      (violatedMinimum prop_schema val).bind fun _ =>
        if prop_name ∈ required then none else some prop_name

end

/-! ### The corrections -/

/-- The value of a renamed argument; a string becomes an array if the property is one. -/
def renamedValue (props : Fields) (correct : String) (val : Json) : Json :=
  if (props[correct]?.map schemaType).getD "" = "array" ∧ val.isString then .arr [val] else val

def rename (props obj : Fields) (fixup : String × String) : Fields :=
  match obj[fixup.1]? with
  | none => obj
  | some val => (obj.erase fixup.1).insert fixup.2 (renamedValue props fixup.2 val)

/-- The value of the key is removed and the new one is inserted. -/
def replaceValue (f : Json → Json) (obj : Fields) (key : String) : Fields :=
  match obj[key]? with
  | none => obj
  | some val => (obj.erase key).insert key (f val)

def coerceToArray : Fields → String → Fields := replaceValue fun val => .arr [val]

def strip (obj : Fields) (key : String) : Fields := obj.erase key

def clamp (obj : Fields) (fixup : String × ℤ) : Fields :=
  match obj[fixup.1]? with
  | none => obj
  | some _ => obj.insert fixup.1 (.num (.int fixup.2))

/-- `0x{:08X}`. -/
def hexAddress (n : ℕ) : String :=
  let digits := (Nat.toDigits 16 n).map Char.toUpper
  "0x" ++ String.ofList (List.replicate (8 - digits.length) '0' ++ digits)

/-- The text of a number. Likely addresses are written in hexadecimal; `text` is how values other
than integers print. -/
def numberText (text : Json → String) (val : Json) : String :=
  match val.asU64 with
  | some n => if 0x1000 ≤ n ∧ n % 0x10 = 0 then hexAddress n else toString n
  | none =>
    match val.asI64 with
    | some n => toString n
    | none => text val

def coerceToString (text : Json → String) : Fields → String → Fields :=
  replaceValue fun val => .str (numberText text val)

def fixupFields (text : Json → String) (props : Fields) (required : List String)
    (obj : Fields) : Fields :=
  let fixups := renames props obj
  let type_coercions := props.toList.filterMap (typeCoercion obj)
  let num_to_str := props.toList.filterMap (numToStr obj)
  let min_clamps := props.toList.filterMap (minClamp required obj)
  let min_strips := props.toList.filterMap (minStrip required obj)
  let obj := fixups.foldl (rename props) obj
  let obj := type_coercions.foldl coerceToArray obj
  let obj := min_strips.foldl strip obj
  let obj := min_clamps.foldl clamp obj
  num_to_str.foldl (coerceToString text) obj

def fixupArguments (text : Json → String) (args : Arguments) (schema : Json) : Arguments :=
  match schemaProperties schema, args with
  | some props, .object obj => .object (fixupFields text props (requiredFields schema) obj)
  | _, args => args

end Arbeiterfarm.Agents
