import Arbeiterfarm.Agents.ArgumentRepair

/-!
# When the repair is conservative

Valid arguments stay as they are unless a missing property has its singular form among them. A
second repair changes nothing unless the first one has moved a value to a property that it does not
suit, or has stripped a property whose singular form stays.
-/

namespace Arbeiterfarm.Agents

open Foundation
open Std (ExtTreeMap)

variable {text : Json → String} {props obj : Fields} {required : List String}

/-- The value is the argument of a property with this schema. -/
def IsArgument (schema : Json) (obj : Fields) (prop_schema val : Json) : Prop :=
  ∃ (props : Fields) (k : String), schemaProperties schema = some props ∧
    props[k]? = some prop_schema ∧ obj[k]? = some val

/-- What a validator of JSON schemas (of the draft 2020-12, its default) guarantees for the
properties of an object. -/
structure ChecksProperties (valid : Json → Json → Prop) : Prop where
  array : ∀ {schema : Json} {obj : Fields} {s val : Json},
    valid schema (Arguments.object obj).value → IsArgument schema obj s val →
      schemaType s = "array" → ∃ vs, val = .arr vs
  string : ∀ {schema : Json} {obj : Fields} {s val : Json},
    valid schema (Arguments.object obj).value → IsArgument schema obj s val →
      schemaType s = "string" → ∃ t, val = .str t
  minimum : ∀ {schema : Json} {obj : Fields} {s val : Json} {m n : ℤ},
    valid schema (Arguments.object obj).value → IsArgument schema obj s val →
      (s.get "minimum").bind Json.asI64 = some m → val.asI64 = some n → m ≤ n

/-- The value suits the property, up to a string for an array. -/
def Suits (prop_schema val : Json) : Prop :=
  ¬(schemaType prop_schema = "string" ∧ val.isNumber) ∧ violatedMinimum prop_schema val = none

/-- The optional property is below its minimum. -/
def Stripped (props : Fields) (required : List String) (obj : Fields) (k : String) : Prop :=
  ∃ s val, props[k]? = some s ∧ obj[k]? = some val ∧ (violatedMinimum s val).isSome ∧ k ∉ required

/-- A second repair has nothing to do. -/
structure RepairedAtOnce (props : Fields) (required : List String) (obj : Fields) : Prop where
  moved : ∀ w p s val, Arrives props obj w p → props[p]? = some s → obj[w]? = some val →
    Suits s val
  stripped : ∀ p, Stripped props required obj p → singularForm p ≠ p →
    obj[singularForm p]? = none ∨ (∃ p', Arrives props obj (singularForm p) p') ∨
      Stripped props required obj (singularForm p)

/-- No missing property has its singular form among the arguments. -/
def NoSingular (props obj : Fields) : Prop :=
  ∀ p s, props[p]? = some s → obj[p]? = none → singularForm p ≠ p → obj[singularForm p]? = none

/-! ### One value -/

lemma asI64_num_of_eq_some {v : Json} {n : ℤ} (h : v.asI64 = some n) :
    (Json.num (.int n)).asI64 = some n := by
  rw [Json.asI64.eq_def] at h
  split at h
  · split_ifs at h with hn
    obtain rfl := Option.some.inj h
    rw [Json.asI64, if_pos hn]
  · cases h

lemma violatedMinimum_eq_some_iff {s val : Json} {m : ℤ} : violatedMinimum s val = some m ↔
    (schemaType s = "integer" ∨ schemaType s = "number") ∧
      (s.get "minimum").bind Json.asI64 = some m ∧ ∃ n, val.asI64 = some n ∧ n < m := by
  rw [violatedMinimum]
  by_cases htype : schemaType s = "integer" ∨ schemaType s = "number"
  · rw [if_pos htype, and_iff_right htype, Option.bind_eq_some_iff]
    constructor
    · rintro ⟨m', hm, h⟩
      obtain ⟨n, hn, h⟩ := Option.bind_eq_some_iff.mp h
      split_ifs at h with hlt
      obtain rfl := Option.some.inj h
      exact ⟨hm, n, hn, hlt⟩
    · rintro ⟨hm, n, hn, hlt⟩
      refine ⟨m, hm, ?_⟩
      rw [hn, Option.bind_some, if_pos hlt]
  · rw [if_neg htype]
    simp [htype]

/-- A minimum that has been clamped to is not violated. -/
lemma violatedMinimum_clamped {s val : Json} {m : ℤ} (h : violatedMinimum s val = some m) :
    violatedMinimum s (.num (.int m)) = none := by
  obtain ⟨htype, hm, -⟩ := violatedMinimum_eq_some_iff.mp h
  obtain ⟨v, -, hv⟩ := Option.bind_eq_some_iff.mp hm
  rw [violatedMinimum, if_pos htype, hm, Option.bind_some, asI64_num_of_eq_some hv,
    Option.bind_some, if_neg (lt_irrefl m)]

lemma repair_of_suits {s val : Json} {is_required : Bool}
    (harray : ¬(schemaType s = "array" ∧ val.isString)) (h : Suits s val) :
    repair text s is_required val = some val := by
  rw [repair, if_neg harray, if_neg h.1, h.2]

/-- The three outcomes for a value that is neither a string for an array nor a number for a
string. -/
lemma repair_of_not {s val : Json} (harray : ¬(schemaType s = "array" ∧ val.isString))
    (hstring : ¬(schemaType s = "string" ∧ val.isNumber)) (is_required : Bool) :
    repair text s is_required val = match violatedMinimum s val with
      | none => some val
      | some min_val => if is_required then some (.num (.int min_val)) else none := by
  rw [repair]
  exact (if_neg harray).trans (if_neg hstring)

lemma suits_of_array {s : Json} (h : schemaType s = "array") (val : Json) : Suits s val :=
  ⟨by simp [h], violatedMinimum_eq_none val (.inl h)⟩

/-- What has been repaired is in order. -/
lemma repair_repaired {s val val' : Json} {is_required : Bool}
    (h : repair text s is_required val = some val') :
    repair text s is_required val' = some val' := by
  by_cases harray : schemaType s = "array" ∧ val.isString
  · rw [repair, if_pos harray] at h
    obtain rfl := Option.some.inj h
    exact repair_of_suits (by simp [Json.isString]) (suits_of_array harray.1 _)
  by_cases hstring : schemaType s = "string" ∧ val.isNumber
  · rw [repair, if_neg harray, if_pos hstring] at h
    obtain rfl := Option.some.inj h
    refine repair_of_suits (by simp [hstring.1]) ⟨?_, violatedMinimum_eq_none _ (.inr hstring.1)⟩
    simp [Json.isNumber]
  rw [repair_of_not harray hstring] at h
  cases hmin : violatedMinimum s val with
  | none =>
    rw [hmin] at h
    obtain rfl := Option.some.inj h
    exact repair_of_suits harray ⟨hstring, hmin⟩
  | some m =>
    obtain ⟨htype, -⟩ := violatedMinimum_eq_some_iff.mp hmin
    rw [hmin] at h
    cases is_required with
    | false => cases h
    | true =>
      obtain rfl := Option.some.inj h
      refine repair_of_suits (by simp [Json.isString]) ⟨?_, violatedMinimum_clamped hmin⟩
      rcases htype with htype | htype <;> simp [htype]

lemma repair_eq_none_iff {s val : Json} {is_required : Bool} :
    repair text s is_required val = none ↔
      (violatedMinimum s val).isSome ∧ is_required = false := by
  by_cases harray : schemaType s = "array" ∧ val.isString
  · rw [repair, if_pos harray]
    simp [violatedMinimum_eq_none val (.inl harray.1)]
  by_cases hstring : schemaType s = "string" ∧ val.isNumber
  · rw [repair, if_neg harray, if_pos hstring]
    simp [violatedMinimum_eq_none val (.inr hstring.1)]
  rw [repair_of_not harray hstring]
  cases violatedMinimum s val with
  | none => simp
  | some m => cases is_required <;> simp

/-- A value that has moved is in order exactly when it suits the property. -/
lemma repair_renamedValue_iff {p : String} {s val : Json} {is_required : Bool}
    (hs : props[p]? = some s) :
    repair text s is_required (renamedValue props p val) = some (renamedValue props p val) ↔
      Suits s val := by
  rw [renamedValue, hs, Option.map_some, Option.getD_some]
  by_cases harray : schemaType s = "array" ∧ val.isString
  · rw [if_pos harray, iff_true_right (suits_of_array harray.1 val)]
    exact repair_of_suits (by simp [Json.isString]) (suits_of_array harray.1 _)
  rw [if_neg harray]
  refine ⟨?_, repair_of_suits harray⟩
  intro h
  by_cases hstring : schemaType s = "string" ∧ val.isNumber
  · rw [repair, if_neg harray, if_pos hstring] at h
    have hnumber := hstring.2
    rw [← Option.some.inj h] at hnumber
    cases hnumber
  · refine ⟨hstring, ?_⟩
    rw [repair_of_not harray hstring] at h
    cases hmin : violatedMinimum s val with
    | none => rfl
    | some m =>
      rw [hmin] at h
      cases is_required with
      | false => cases h
      | true =>
        obtain rfl := Option.some.inj h
        rw [violatedMinimum_clamped hmin] at hmin
        cases hmin

/-! ### Repairing once -/

lemma repairAt_repaired {k : String} {val val' : Json}
    (h : repairAt text props required k val = some val') :
    repairAt text props required k val' = some val' := by
  rw [repairAt] at h ⊢
  cases hs : props[k]? with
  | none => rfl
  | some s =>
    rw [hs] at h
    exact repair_repaired h

lemma repairAt_eq_none_iff {k : String} {val : Json} (hval : obj[k]? = some val) :
    repairAt text props required k val = none ↔ Stripped props required obj k := by
  rw [repairAt, Stripped]
  cases hs : props[k]? with
  | none => simp
  | some s => simp [repair_eq_none_iff, hval]

/-- No value arrives at a key that is there, or that is a singular form. -/
lemma not_arrives_of_some {w p : String} {val : Json} (hval : obj[p]? = some val) :
    ¬Arrives props obj w p := by
  intro h
  obtain ⟨-, hnone, -⟩ := mem_renames.mp h.mem
  rw [hval] at hnone
  cases hnone

lemma not_arrives_at_singular {w p : String} (hp : singularForm p = p) :
    ¬Arrives props obj w p := by
  intro h
  obtain ⟨-, -, hsingular, hne, -⟩ := mem_renames.mp h.mem
  exact hne (hsingular.symm.trans hp)

lemma not_arrives_from_plural {p p' : String} (hp : singularForm p ≠ p) :
    ¬Arrives props obj p p' := by
  intro h
  obtain ⟨-, -, rfl, -⟩ := mem_renames.mp h.mem
  exact hp (singularForm_singularForm p')

/-- A singular form is missing after the repair when it was before, when it has been renamed, or
when it has been stripped. -/
lemma getElem?_singular_eq_none_iff (text : Json → String) (props : Fields)
    (required : List String) (obj : Fields) {w : String} (hw : singularForm w = w) :
    (fixupFields text props required obj)[w]? = none ↔
      obj[w]? = none ∨ (∃ p, Arrives props obj w p) ∨ Stripped props required obj w := by
  by_cases hmoved : ∃ p, Arrives props obj w p
  · obtain ⟨p, h⟩ := hmoved
    exact iff_of_true (getElem?_fixupFields_of_moved text required h) (.inr (.inl ⟨p, h⟩))
  · rw [getElem?_fixupFields_of_stays text required (not_exists.mp hmoved)
      fun _ => not_arrives_at_singular hw, or_iff_right hmoved]
    cases hval : obj[w]? with
    | none => simp
    | some val =>
      rw [Option.bind_some, repairAt_eq_none_iff hval]
      simp

/-- After the repair no property is to be renamed unless one has been stripped. -/
lemma renames_fixupFields_eq_nil_iff :
    renames props (fixupFields text props required obj) = [] ↔
      ∀ p, Stripped props required obj p → singularForm p ≠ p →
        obj[singularForm p]? = none ∨ (∃ p', Arrives props obj (singularForm p) p') ∨
          Stripped props required obj (singularForm p) := by
  have hsingular (p : String) :=
    getElem?_singular_eq_none_iff text props required obj (singularForm_singularForm p)
  constructor
  · intro hnone p hstripped hne
    obtain ⟨s, val, hs, hval, -⟩ := id hstripped
    rw [← hsingular, Option.eq_none_iff_forall_ne_some]
    intro val' hval'
    have hmissing : (fixupFields text props required obj)[p]? = none := by
      rw [getElem?_fixupFields_of_stays text required (fun _ => not_arrives_from_plural hne)
        fun _ => not_arrives_of_some hval, hval, Option.bind_some, repairAt_eq_none_iff hval]
      exact hstripped
    have hmem : (singularForm p, p) ∈ renames props (fixupFields text props required obj) :=
      mem_renames.mpr ⟨⟨s, hs⟩, hmissing, rfl, hne, val', hval'⟩
    rw [hnone] at hmem
    cases hmem
  · intro h
    rw [List.eq_nil_iff_forall_not_mem]
    rintro ⟨w, p⟩ hmem
    obtain ⟨⟨s, hs⟩, hmissing, rfl, hne, val', hval'⟩ := mem_renames.mp hmem
    have hstays : ¬(fixupFields text props required obj)[singularForm p]? = none := by
      rw [hval']
      exact Option.some_ne_none _
    cases hval : obj[p]? with
    | some val =>
      refine hstays ((hsingular p).mpr (h p ?_ hne))
      rw [getElem?_fixupFields_of_stays text required (fun _ => not_arrives_from_plural hne)
        fun _ => not_arrives_of_some hval, hval, Option.bind_some,
        repairAt_eq_none_iff hval] at hmissing
      exact hmissing
    | none =>
      -- the singular form was there before the repair too, and would have been renamed
      rw [hsingular, not_or, not_or] at hstays
      obtain ⟨val, hval'⟩ := Option.ne_none_iff_exists'.mp hstays.1
      exact hstays.2.1 (exists_arrives (mem_renames.mpr ⟨⟨s, hs⟩, hval, rfl, hne, val, hval'⟩))

lemma repairAt_fixupFields_iff :
    (∀ k val, (fixupFields text props required obj)[k]? = some val →
        repairAt text props required k val = some val) ↔
      ∀ w p s val, Arrives props obj w p → props[p]? = some s → obj[w]? = some val →
        Suits s val := by
  constructor
  · intro h w p s val harrives hs hval
    have hp := h p _ (getElem?_fixupFields_of_arrives text required harrives hval)
    rw [repairAt, hs] at hp
    exact (repair_renamedValue_iff hs).mp hp
  · intro h k val' hval'
    by_cases harrives : ∃ w, Arrives props obj w k
    · obtain ⟨w, harrives⟩ := harrives
      obtain ⟨⟨s, hs⟩, -, -, -, val, hval⟩ := mem_renames.mp harrives.mem
      rw [getElem?_fixupFields_of_arrives text required harrives hval] at hval'
      obtain rfl := Option.some.inj hval'
      rw [repairAt, hs]
      exact (repair_renamedValue_iff hs).mpr (h w k s val harrives hs hval)
    · have hgone : ∀ p, ¬Arrives props obj k p := by
        intro p hp
        rw [getElem?_fixupFields_of_moved text required hp] at hval'
        cases hval'
      rw [getElem?_fixupFields_of_stays text required hgone (not_exists.mp harrives)] at hval'
      obtain ⟨val, -, hval⟩ := Option.bind_eq_some_iff.mp hval'
      exact repairAt_repaired hval

lemma repairedAtOnce_iff (text : Json → String) :
    fixupFields text props required (fixupFields text props required obj) =
      fixupFields text props required obj ↔ RepairedAtOnce props required obj := by
  rw [fixupFields_eq_self_iff, renames_fixupFields_eq_nil_iff, repairAt_fixupFields_iff]
  constructor
  · rintro ⟨hstripped, hmoved⟩
    exact ⟨hmoved, hstripped⟩
  · rintro ⟨hmoved, hstripped⟩
    exact ⟨hstripped, hmoved⟩

/-! ### Valid arguments -/

lemma suits_of_valid {valid : Json → Json → Prop} (hvalid : ChecksProperties valid)
    {schema s val : Json} (h : valid schema (Arguments.object obj).value)
    (hval : IsArgument schema obj s val) :
    ¬(schemaType s = "array" ∧ val.isString) ∧ Suits s val := by
  refine ⟨?_, ?_, ?_⟩
  · rintro ⟨htype, hstring⟩
    obtain ⟨vs, rfl⟩ := hvalid.array h hval htype
    cases hstring
  · rintro ⟨htype, hnumber⟩
    obtain ⟨t, rfl⟩ := hvalid.string h hval htype
    cases hnumber
  · rw [Option.eq_none_iff_forall_ne_some]
    intro m hmin
    obtain ⟨-, hm, n, hn, hlt⟩ := violatedMinimum_eq_some_iff.mp hmin
    exact absurd (hvalid.minimum h hval hm hn) hlt.not_ge

lemma renames_eq_nil_iff : renames props obj = [] ↔ NoSingular props obj := by
  rw [List.eq_nil_iff_forall_not_mem]
  constructor
  · intro h p s hs hnone hne
    rw [Option.eq_none_iff_forall_ne_some]
    intro val hval
    exact h _ (mem_renames.mpr ⟨⟨s, hs⟩, hnone, rfl, hne, val, hval⟩)
  · rintro h ⟨w, p⟩ hmem
    obtain ⟨⟨s, hs⟩, hnone, rfl, hne, val, hval⟩ := mem_renames.mp hmem
    rw [h p s hs hnone hne] at hval
    cases hval

lemma fixupFields_valid_eq_self_iff {valid : Json → Json → Prop} (hvalid : ChecksProperties valid)
    {schema : Json} (hprops : schemaProperties schema = some props)
    (h : valid schema (Arguments.object obj).value) :
    fixupFields text props required obj = obj ↔ NoSingular props obj := by
  rw [fixupFields_eq_self_iff, renames_eq_nil_iff, and_iff_left]
  intro k val hval
  rw [repairAt]
  cases hs : props[k]? with
  | none => rfl
  | some s =>
    obtain ⟨harray, hsuits⟩ := suits_of_valid hvalid h ⟨props, k, hprops, hs, hval⟩
    exact repair_of_suits harray hsuits

/-- The condition for an object of arguments; other arguments are never repaired. -/
def Conservative (valid : Json → Json → Prop) (schema : Json) (args : Arguments) : Prop :=
  ∀ props obj, schemaProperties schema = some props → args = .object obj →
    (valid schema args.value → NoSingular props obj) ∧
      RepairedAtOnce props (requiredFields schema) obj

/-- Valid arguments are unchanged and the repair is idempotent exactly when no valid argument could
be renamed and the first repair leaves nothing to do. -/
theorem fixupArguments_conservative_iff (text : Json → String) (valid : Json → Json → Prop)
    (hvalid : ChecksProperties valid) (schema : Json) (args : Arguments) :
    (valid schema args.value → fixupArguments text args schema = args) ∧
        fixupArguments text (fixupArguments text args schema) schema =
          fixupArguments text args schema ↔
      Conservative valid schema args := by
  cases hprops : schemaProperties schema with
  | none =>
    have hself (args : Arguments) : fixupArguments text args schema = args := by
      simp only [fixupArguments, hprops]
    refine iff_of_true ⟨fun _ => hself args, hself _⟩ ?_
    intro props obj h
    rw [hprops] at h
    cases h
  | some props =>
    cases args with
    | other v hv =>
      have hself : fixupArguments text (.other v hv) schema = .other v hv := by
        simp only [fixupArguments, hprops]
      refine iff_of_true ⟨fun _ => hself, by rw [hself, hself]⟩ ?_
      intro props obj _ h
      cases h
    | object obj =>
      have hobject (obj : Fields) : fixupArguments text (.object obj) schema =
          .object (fixupFields text props (requiredFields schema) obj) := by
        simp only [fixupArguments, hprops]
      rw [hobject, hobject, Arguments.object.injEq, Arguments.object.injEq, repairedAtOnce_iff]
      have honce : Conservative valid schema (.object obj) ↔
          (valid schema (Arguments.object obj).value → NoSingular props obj) ∧
            RepairedAtOnce props (requiredFields schema) obj := by
        constructor
        · intro h
          exact h props obj hprops rfl
        · intro h props' obj' hprops' hobj
          obtain rfl := Option.some.inj (hprops.symm.trans hprops')
          obtain rfl := Arguments.object.inj hobj
          exact h
      rw [honce]
      refine and_congr_left fun _ => forall_congr' fun h => ?_
      exact fixupFields_valid_eq_self_iff hvalid hprops h

/-! ### Runs on fixed arguments -/

/-- The types that JSON Schema names. -/
def hasType (val : Json) : String → Bool
  | "array" => val.asArray.isSome
  | "string" => val.isString
  | "integer" => val.asI64.isSome
  | "number" => val.isNumber
  | "boolean" => val.asBool.isSome
  | _ => true

def acceptsProperty (prop_schema val : Json) : Bool :=
  hasType val (schemaType prop_schema) &&
    match (prop_schema.get "minimum").bind Json.asI64, val.asI64 with
    | some m, some n => decide (m ≤ n)
    | _, _ => true

/-- The keywords `properties`, `type`, `minimum` and `required` of a JSON schema. -/
def acceptsArguments (schema value : Json) : Bool :=
  match schemaProperties schema, value with
  | some props, .obj fields =>
    ((requiredFields schema).all fun k => fields.any fun f => f.1 = k) &&
      props.toList.all fun e => fields.all fun f => f.1 ≠ e.1 || acceptsProperty e.2 f.2
  | _, _ => true

lemma checksProperties_acceptsArguments :
    ChecksProperties fun schema value => acceptsArguments schema value = true := by
  have haccepts {schema s val : Json} {obj : Fields}
      (h : acceptsArguments schema (Arguments.object obj).value = true)
      (hval : IsArgument schema obj s val) : acceptsProperty s val = true := by
    obtain ⟨props, k, hprops, hs, hval⟩ := hval
    simp only [acceptsArguments, hprops, Arguments.value, Bool.and_eq_true,
      List.all_eq_true] at h
    have hfield := h.2 (k, s) (ExtTreeMap.mem_toList_iff_getElem?_eq_some.mpr hs) (k, val)
      (ExtTreeMap.mem_toList_iff_getElem?_eq_some.mpr hval)
    simpa using hfield
  constructor
  · intro schema obj s val h hval htype
    have hs := haccepts h hval
    rw [acceptsProperty, htype, Bool.and_eq_true] at hs
    cases val with
    | arr vs => exact ⟨vs, rfl⟩
    | _ => cases hs.1
  · intro schema obj s val h hval htype
    have hs := haccepts h hval
    rw [acceptsProperty, htype, Bool.and_eq_true] at hs
    cases val with
    | str t => exact ⟨t, rfl⟩
    | _ => cases hs.1
  · intro schema obj s val m n h hval hm hn
    have hs := haccepts h hval
    rw [acceptsProperty, Bool.and_eq_true, hm, hn] at hs
    simpa using hs.2

def functionSchema : Json :=
  .obj [("properties", .obj [("function", .obj [("type", .str "string")]),
    ("functions", .obj [("type", .str "array")]),
    ("lines", .obj [("minimum", .num (.int 1)), ("type", .str "integer")])])]

def oneArgument (k : String) (val : Json) : Fields := .ofList [(k, val)]

/-- The schema and the argument of the check below meet the condition. -/
lemma conservative_functions :
    Conservative (fun schema value => acceptsArguments schema value = true) functionSchema
      (.object (oneArgument "functions" (.arr [.str "main"]))) := by
  intro props obj hprops hobj
  obtain rfl := Option.some.inj hprops
  obtain rfl := Arguments.object.inj hobj
  exact ⟨fun _ => renames_eq_nil_iff.mp (by decide),
    (repairedAtOnce_iff fun _ => "").mp (by decide)⟩

theorem fixupArguments_conservative_iff_function :
    fixupArguments (fun _ => "") (.object (oneArgument "functions" (.arr [.str "main"])))
      functionSchema = .object (oneArgument "functions" (.arr [.str "main"])) :=
  ((fixupArguments_conservative_iff (fun _ => "") _ checksProperties_acceptsArguments
    functionSchema _).mpr conservative_functions).1 (by decide)

/-- A declared argument is renamed, and a renamed one is stripped by the next repair. -/
theorem declared_key_is_renamed :
    acceptsArguments functionSchema
        (Arguments.object (oneArgument "function" (.str "main"))).value ∧
      fixupArguments (fun _ => "") (.object (oneArgument "function" (.str "main")))
        functionSchema ≠ .object (oneArgument "function" (.str "main")) ∧
      fixupArguments (fun _ => "") (fixupArguments (fun _ => "")
          (.object (oneArgument "line" (.num (.int 0)))) functionSchema) functionSchema ≠
        fixupArguments (fun _ => "") (.object (oneArgument "line" (.num (.int 0))))
          functionSchema := by
  decide

end Arbeiterfarm.Agents
