import Arbeiterfarm.Agents.SlidingWindow
import Arbeiterfarm.Core.SchemaMeaning
import Arbeiterfarm.Core.Text
import Mathlib.Data.String.Basic

/-!
# Inlined references

The description of a tool has its input schema with the references to `$defs` inlined, and without
`$defs`. A definition is inlined as it stands: the references in it are not.
-/

namespace Arbeiterfarm.Agents.PromptBuilder

/-! ### Inlining -/

/-- The name in a reference `#/$defs/Name` of the object. -/
def refName (fields : List (String × Json)) : Option String :=
  ((fields.lookup "$ref").bind Json.asStr).bind fun ref_val =>
    (stripPrefix "#/$defs/".toList ref_val.toList).map String.ofList

def refTarget (defs : Json) (fields : List (String × Json)) : Option Json :=
  (refName fields).bind defs.get

mutual

def inlineRefs (defs : Json) : Json → Json
  | .obj fields =>
    match refTarget defs fields with
    | some definition => definition
    | none => .obj (inlineFields defs fields)
  | .arr vs => .arr (inlineList defs vs)
  | v => v

def inlineFields (defs : Json) : List (String × Json) → List (String × Json)
  | [] => []
  | (k, v) :: fields => (k, inlineRefs defs v) :: inlineFields defs fields

def inlineList (defs : Json) : List Json → List Json
  | [] => []
  | v :: vs => inlineRefs defs v :: inlineList defs vs

end

def definitions (schema : Json) : Json := (schema.get "$defs").getD .null

def inlineSchemaRefs (schema : Json) : Json :=
  match definitions schema with
  | .null => schema
  | defs => inlineRefs defs schema

def removeDefs : Json → Json
  | .obj fields => .obj (fields.filter fun f => f.1 ≠ "$defs")
  | v => v

structure ToolSpec where
  name : String
  description : String
  input_schema : Json

def buildOneToolDescription (spec : ToolSpec) : ToolDescription where
  name := spec.name
  description := spec.description
  parameters := removeDefs (inlineSchemaRefs spec.input_schema)

/-! ### References -/

mutual

/-- An object of the value has a reference to `$defs`. -/
def hasRef : Json → Bool
  | .obj fields => (refName fields).isSome || fieldsHaveRef fields
  | .arr vs => listHasRef vs
  | _ => false

def fieldsHaveRef : List (String × Json) → Bool
  | [] => false
  | (_, v) :: fields => hasRef v || fieldsHaveRef fields

def listHasRef : List Json → Bool
  | [] => false
  | v :: vs => hasRef v || listHasRef vs

end

mutual

/-- Each reference names a definition, and there is no reference in the definition. -/
def closed (defs : Json) : Json → Bool
  | .obj fields =>
    match refName fields with
    | some name => (defs.get name).any fun definition => !hasRef definition
    | none => closedFields defs fields
  | .arr vs => closedList defs vs
  | _ => true

def closedFields (defs : Json) : List (String × Json) → Bool
  | [] => true
  | (_, v) :: fields => closed defs v && closedFields defs fields

def closedList (defs : Json) : List Json → Bool
  | [] => true
  | v :: vs => closed defs v && closedList defs vs

end

/-- The references of the schema outside of its definitions are closed. -/
def closedOutside (schema : Json) : Bool :=
  match schema with
  | .obj fields =>
    match refName fields with
    | some name =>
      ((definitions schema).get name).any fun definition => !hasRef (removeDefs definition)
    | none => closedFields (definitions schema) (fields.filter fun f => f.1 ≠ "$defs")
  | v => closed .null v

/-! ### What is inlined -/

variable {defs : Json}

lemma inlineFields_eq_map (fields : List (String × Json)) :
    inlineFields defs fields = fields.map fun f => (f.1, inlineRefs defs f.2) := by
  induction fields with
  | nil => rfl
  | cons f fields ih => rw [inlineFields, ih, List.map_cons]

lemma inlineList_eq_map (vs : List Json) : inlineList defs vs = vs.map (inlineRefs defs) := by
  induction vs with
  | nil => rfl
  | cons v vs ih => rw [inlineList, ih, List.map_cons]

lemma lookup_inlineFields (fields : List (String × Json)) (k : String) :
    (inlineFields defs fields).lookup k = (fields.lookup k).map (inlineRefs defs) := by
  induction fields with
  | nil => rfl
  | cons f fields ih =>
    obtain ⟨k', v⟩ := f
    rw [inlineFields, List.lookup_cons, List.lookup_cons, ih]
    cases k == k' <;> rfl

/-- The definitions are schemas. -/
def SchemaDefs (defs : Json) : Prop :=
  ∀ name definition, defs.get name = some definition → JsonSchema.isSchema definition

lemma isSchema_of_refTarget (hdefs : SchemaDefs defs) {fields : List (String × Json)}
    {definition : Json} (h : refTarget defs fields = some definition) :
    JsonSchema.isSchema definition := by
  obtain ⟨name, -, hdefinition⟩ := Option.bind_eq_some_iff.mp h
  exact hdefs name definition hdefinition

lemma asStr_inlineRefs (hdefs : SchemaDefs defs) (v : Json) :
    (inlineRefs defs v).asStr = v.asStr := by
  cases v with
  | obj fields =>
    rw [inlineRefs]
    cases htarget : refTarget defs fields with
    | none => rfl
    | some definition =>
      have hschema := isSchema_of_refTarget hdefs htarget
      cases definition with
      | obj _ => rfl
      | bool _ => rfl
      | _ => cases hschema
  | _ => rfl

/-- Inlining makes no object a reference. -/
lemma refName_inlineFields (hdefs : SchemaDefs defs) (fields : List (String × Json)) :
    refName (inlineFields defs fields) = refName fields := by
  rw [refName, refName, lookup_inlineFields]
  cases fields.lookup "$ref" with
  | none => rfl
  | some v =>
    rw [Option.map_some, Option.bind_some, Option.bind_some, asStr_inlineRefs hdefs]

mutual

lemma hasRef_inlineRefs (hdefs : SchemaDefs defs) (v : Json) :
    hasRef (inlineRefs defs v) = !closed defs v := by
  match v with
  | .obj fields =>
    rw [inlineRefs, closed, refTarget]
    cases hname : refName fields with
    | none =>
      simp only [Option.bind_none]
      rw [hasRef, refName_inlineFields hdefs, hname, Option.isSome_none, Bool.false_or]
      exact fieldsHaveRef_inlineFields hdefs fields
    | some name =>
      rw [Option.bind_some]
      cases hdefinition : defs.get name with
      | none =>
        simp only [hdefinition, Option.any_none, Bool.not_false]
        rw [hasRef, refName_inlineFields hdefs, hname, Option.isSome_some, Bool.true_or]
      | some definition => simp only [hdefinition, Option.any_some, Bool.not_not]
  | .arr vs =>
    rw [inlineRefs, hasRef, closed]
    exact listHasRef_inlineList hdefs vs
  | .null => rfl
  | .bool _ => rfl
  | .num _ => rfl
  | .str _ => rfl

lemma fieldsHaveRef_inlineFields (hdefs : SchemaDefs defs) (fields : List (String × Json)) :
    fieldsHaveRef (inlineFields defs fields) = !closedFields defs fields := by
  match fields with
  | [] => rfl
  | (k, v) :: fields =>
    rw [inlineFields, fieldsHaveRef, closedFields, hasRef_inlineRefs hdefs v,
      fieldsHaveRef_inlineFields hdefs fields, Bool.not_and]

lemma listHasRef_inlineList (hdefs : SchemaDefs defs) (vs : List Json) :
    listHasRef (inlineList defs vs) = !closedList defs vs := by
  match vs with
  | [] => rfl
  | v :: vs =>
    rw [inlineList, listHasRef, closedList, hasRef_inlineRefs hdefs v,
      listHasRef_inlineList hdefs vs, Bool.not_and]

end

mutual

/-- What has no reference stays as it is. -/
lemma inlineRefs_of_hasRef_eq_false (defs v : Json) (h : hasRef v = false) :
    inlineRefs defs v = v := by
  match v with
  | .obj fields =>
    rw [hasRef, Bool.or_eq_false_iff, Option.isSome_eq_false_iff, Option.isNone_iff_eq_none] at h
    rw [inlineRefs, refTarget, h.1]
    simp only [Option.bind_none]
    rw [inlineFields_of_hasRef_eq_false defs fields h.2]
  | .arr vs =>
    rw [hasRef] at h
    rw [inlineRefs, inlineList_of_hasRef_eq_false defs vs h]
  | .null => rfl
  | .bool _ => rfl
  | .num _ => rfl
  | .str _ => rfl

lemma inlineFields_of_hasRef_eq_false (defs : Json) (fields : List (String × Json))
    (h : fieldsHaveRef fields = false) : inlineFields defs fields = fields := by
  match fields with
  | [] => rfl
  | (k, v) :: fields =>
    rw [fieldsHaveRef, Bool.or_eq_false_iff] at h
    rw [inlineFields, inlineRefs_of_hasRef_eq_false defs v h.1,
      inlineFields_of_hasRef_eq_false defs fields h.2]

lemma inlineList_of_hasRef_eq_false (defs : Json) (vs : List Json) (h : listHasRef vs = false) :
    inlineList defs vs = vs := by
  match vs with
  | [] => rfl
  | v :: vs =>
    rw [listHasRef, Bool.or_eq_false_iff] at h
    rw [inlineList, inlineRefs_of_hasRef_eq_false defs v h.1,
      inlineList_of_hasRef_eq_false defs vs h.2]

end

mutual

/-- Without definitions nothing is inlined. -/
lemma inlineRefs_null (v : Json) : inlineRefs .null v = v := by
  match v with
  | .obj fields =>
    have hnone : refTarget .null fields = none := by
      rw [refTarget, Option.bind_eq_none_iff]
      intro name _
      rfl
    rw [inlineRefs, hnone]
    simp only
    rw [inlineFields_null fields]
  | .arr vs => rw [inlineRefs, inlineList_null vs]
  | .null => rfl
  | .bool _ => rfl
  | .num _ => rfl
  | .str _ => rfl

lemma inlineFields_null (fields : List (String × Json)) : inlineFields .null fields = fields := by
  match fields with
  | [] => rfl
  | (k, v) :: fields => rw [inlineFields, inlineRefs_null v, inlineFields_null fields]

lemma inlineList_null (vs : List Json) : inlineList .null vs = vs := by
  match vs with
  | [] => rfl
  | v :: vs => rw [inlineList, inlineRefs_null v, inlineList_null vs]

end

lemma inlineSchemaRefs_eq (schema : Json) :
    inlineSchemaRefs schema = inlineRefs (definitions schema) schema := by
  rw [inlineSchemaRefs]
  cases hdefs : definitions schema with
  | null => rw [inlineRefs_null]
  | _ => rfl

/-! ### What is emitted -/

lemma filter_inlineFields (defs : Json) (p : String → Bool) (fields : List (String × Json)) :
    (inlineFields defs fields).filter (fun f => p f.1) =
      inlineFields defs (fields.filter fun f => p f.1) := by
  rw [inlineFields_eq_map, inlineFields_eq_map, List.filter_map]
  rfl

lemma lookup_removeDefs {k : String} (hk : k ≠ "$defs") (fields : List (String × Json)) :
    (fields.filter fun f => f.1 ≠ "$defs").lookup k = fields.lookup k := by
  induction fields with
  | nil => rfl
  | cons f fields ih =>
    obtain ⟨k', v⟩ := f
    rw [List.filter_cons]
    by_cases hdefs : k' = "$defs"
    · have hne : (k == k') = false := by
        rw [beq_eq_false_iff_ne, hdefs]
        exact hk
      rw [if_neg (by simp [hdefs]), ih, List.lookup_cons, hne]
    · rw [if_pos (by simp [hdefs]), List.lookup_cons, List.lookup_cons, ih]

lemma refName_removeDefs (fields : List (String × Json)) :
    refName (fields.filter fun f => f.1 ≠ "$defs") = refName fields := by
  rw [refName, refName, lookup_removeDefs (by decide)]

/-- The emitted schema has no reference to `$defs` exactly when the references outside of the
definitions are closed. -/
lemma hasRef_emitted (schema : Json) (hdefs : SchemaDefs (definitions schema)) :
    hasRef (removeDefs (inlineRefs (definitions schema) schema)) = !closedOutside schema := by
  cases schema with
  | obj fields =>
    rw [closedOutside, inlineRefs, refTarget]
    have hfilter := filter_inlineFields (definitions (.obj fields)) (fun k => k ≠ "$defs") fields
    cases hname : refName fields with
    | none =>
      simp only [Option.bind_none, removeDefs]
      rw [hfilter, hasRef, refName_inlineFields hdefs, refName_removeDefs, hname,
        Option.isSome_none, Bool.false_or]
      exact fieldsHaveRef_inlineFields hdefs _
    | some name =>
      rw [Option.bind_some]
      cases hdefinition : (definitions (.obj fields)).get name with
      | none =>
        simp only [hdefinition, Option.any_none, Bool.not_false, removeDefs]
        rw [hfilter, hasRef, refName_inlineFields hdefs, refName_removeDefs, hname,
          Option.isSome_some, Bool.true_or]
      | some definition => simp only [hdefinition, Option.any_some, Bool.not_not]
  | arr vs => exact hasRef_inlineRefs (fun _ _ h => by cases h) (.arr vs)
  | _ => rfl

end Arbeiterfarm.Agents.PromptBuilder
