import Arbeiterfarm.Agents.InlineRefs

/-!
# The emitted schema means the same

Inlining replaces a whole object by the definition that it refers to, wherever it stands, and only
once. The meaning stays when the references stand alone, lead to definitions without references, and
occur only where schemas are read, and when other references do not lead into what is removed.
-/

namespace Arbeiterfarm.Agents.PromptBuilder

open JsonSchema

variable {D : Type*} {sem : Semantics D} {schema : Json}

/-- The value at a path that does not lead into an object that is replaced. -/
def directPath (defs : Json) : Json → List String → Option Json
  | v, [] => some v
  | .obj fields, key :: path =>
    if (refTarget defs fields).isSome then none
    else (fields.lookup key).bind fun v => directPath defs v path
  | .arr vs, key :: path =>
    (key.toNat?.bind fun i => vs[i]?).bind fun v => directPath defs v path
  | _, _ :: _ => none

@[simp] lemma directPath_nil (defs v : Json) : directPath defs v [] = some v := by
  cases v <;> rfl

/-- The object may be replaced, or its keywords may be inlined. -/
structure InlinableAt (sem : Semantics D) (schema : Json) (fields : List (String × Json)) :
    Prop where
  alone : ∀ name definition, refName fields = some name →
    (definitions schema).get name = some definition →
      keywords fields = [("$ref", .str ("#/$defs/" ++ name))] ∧
        sem.pointer ("#/$defs/" ++ name) = some ["$defs", name] ∧ hasRef definition = false
  data : refTarget (definitions schema) fields = none → ∀ f ∈ keywords fields,
    isData f.1 f.2 → hasRef f.2 = false
  named : refTarget (definitions schema) fields = none → ∀ f ∈ keywords fields,
    keywordKind f.1 = .named → ∀ fields', f.2 = .obj fields' →
      refTarget (definitions schema) fields' = none
  others : refTarget (definitions schema) fields = none → ∀ ref,
    ("$ref", .str ref) ∈ keywords fields → isLocal ref → ∃ path t, sem.pointer ref = some path ∧
      path.head? ≠ some "$defs" ∧ directPath (definitions schema) schema path = some t ∧ isSchema t

def Inlinable (sem : Semantics D) (schema : Json) : Prop :=
  ∀ fields, InUse sem schema (.obj fields) → InlinableAt sem schema fields

/-- An object that is no reference to `$defs` has its keywords inlined. -/
lemma inlinableAt_of_refName_eq_none {fields : List (String × Json)} (hname : refName fields = none)
    (hdata : ∀ f ∈ keywords fields, isData f.1 f.2 → hasRef f.2 = false)
    (hothers : "$ref" ∉ (keywords fields).map Prod.fst)
    (hnamed : ∀ f ∈ keywords fields, keywordKind f.1 = .named → ∀ fields', f.2 = .obj fields' →
      refTarget (definitions schema) fields' = none) : InlinableAt sem schema fields := by
  refine ⟨?_, fun _ => hdata, fun _ => hnamed, ?_⟩
  · intro name definition h
    rw [hname] at h
    cases h
  · intro _ ref href
    exact absurd (List.mem_map_of_mem href) hothers

lemma inlinableAt_of_refTarget {fields : List (String × Json)} {definition : Json}
    (htarget : refTarget (definitions schema) fields = some definition)
    (halone : ∀ name, refName fields = some name →
      keywords fields = [("$ref", .str ("#/$defs/" ++ name))] ∧
        sem.pointer ("#/$defs/" ++ name) = some ["$defs", name] ∧ hasRef definition = false) :
    InlinableAt sem schema fields := by
  have hsome : refTarget (definitions schema) fields ≠ none := by
    rw [htarget]
    exact Option.some_ne_none _
  refine ⟨?_, fun h => absurd h hsome, fun h => absurd h hsome, fun h => absurd h hsome⟩
  intro name definition' hname hdefinition
  rw [refTarget, hname, Option.bind_some, hdefinition] at htarget
  obtain rfl := Option.some.inj htarget
  exact halone name hname

def emitted (schema : Json) : Json := removeDefs (inlineRefs (definitions schema) schema)

/-! ### Definitions are ignored -/

lemma keywords_removeDefs (fields : List (String × Json)) :
    keywords (fields.filter fun f => f.1 ≠ "$defs") = keywords fields := by
  rw [keywords, keywords, List.filter_filter]
  apply List.filter_congr
  intro f _
  by_cases hdefs : f.1 = "$defs"
  · simp [hdefs, ignored]
  · simp [hdefs]

lemma meaning_removeDefs (root : Json) (n : ℕ) (s : Json) :
    sem.meaning root n (removeDefs s) = sem.meaning root n s := by
  cases s with
  | obj fields =>
    cases n with
    | zero => rfl
    | succ n => rw [removeDefs, Semantics.meaning, Semantics.meaning, keywords_removeDefs]
  | _ => rfl

lemma keywords_inlineFields (defs : Json) (fields : List (String × Json)) :
    keywords (inlineFields defs fields) =
      (keywords fields).map fun f => (f.1, inlineRefs defs f.2) := by
  rw [keywords, filter_inlineFields defs fun k => !ignored k, inlineFields_eq_map]
  rfl

/-! ### Paths -/

lemma isSchema_inlineRefs {defs : Json} (hdefs : SchemaDefs defs) {s : Json} (h : isSchema s) :
    isSchema (inlineRefs defs s) := by
  cases s with
  | obj fields =>
    rw [inlineRefs]
    cases htarget : refTarget defs fields with
    | none => rfl
    | some definition => exact isSchema_of_refTarget hdefs htarget
  | bool b => rfl
  | _ => cases h

lemma isSchema_removeDefs {s : Json} (h : isSchema s) : isSchema (removeDefs s) := by
  cases s with
  | obj fields => rfl
  | bool b => rfl
  | _ => cases h

/-- A direct path leads to the same place in both documents. -/
lemma atPath_of_directPath {defs s t : Json} {path : List String}
    (h : directPath defs s path = some t) :
    atPath s path = some t ∧ atPath (inlineRefs defs s) path = some (inlineRefs defs t) := by
  induction path generalizing s with
  | nil =>
    obtain rfl := Option.some.inj ((directPath_nil defs s).symm.trans h)
    exact ⟨atPath_nil s, atPath_nil _⟩
  | cons key path ih =>
    cases s with
    | obj fields =>
      rw [directPath] at h
      cases htarget : refTarget defs fields with
      | some definition => simp [htarget] at h
      | none =>
        rw [htarget, Option.isSome_none, if_neg Bool.false_ne_true] at h
        obtain ⟨v, hv, h⟩ := Option.bind_eq_some_iff.mp h
        obtain ⟨hpath, hinline⟩ := ih h
        rw [inlineRefs, htarget]
        simp only [atPath]
        rw [lookup_inlineFields, hv, Option.map_some, Option.bind_some, Option.bind_some]
        exact ⟨hpath, hinline⟩
    | arr vs =>
      rw [directPath] at h
      obtain ⟨v, hv, h⟩ := Option.bind_eq_some_iff.mp h
      obtain ⟨hpath, hinline⟩ := ih h
      obtain ⟨i, hi, hv⟩ := Option.bind_eq_some_iff.mp hv
      rw [inlineRefs, inlineList_eq_map]
      simp only [atPath, hi, Option.bind_some, hv, List.getElem?_map, Option.map_some]
      exact ⟨hpath, hinline⟩
    | _ => cases h

lemma atPath_removeDefs {key : String} (hkey : key ≠ "$defs") (s : Json) (path : List String) :
    atPath (removeDefs s) (key :: path) = atPath s (key :: path) := by
  cases s with
  | obj fields => rw [removeDefs, atPath, atPath, lookup_removeDefs hkey]
  | _ => rfl

/-! ### Corresponding schemas -/

/-- A schema that is read, and one with the meaning of its inlined form in the emitted document. -/
def Inlined (sem : Semantics D) (schema s s' : Json) : Prop :=
  InUse sem schema s ∧ ∀ n, sem.meaning (emitted schema) n s' =
    sem.meaning (emitted schema) n (inlineRefs (definitions schema) s)

lemma eq_ref_of_keywordKind {k : String} (h : keywordKind k = .reference) : k = "$ref" := by
  by_contra hne
  rw [keywordKind, if_neg hne] at h
  split_ifs at h

/-- A reference that does not lead into the definitions leads to the inlined target. -/
lemma resolve_emitted (hdefs : SchemaDefs (definitions schema)) {ref : String} {path : List String}
    {t : Json} (hpath : sem.pointer ref = some path) (hhead : path.head? ≠ some "$defs")
    (ht : directPath (definitions schema) schema path = some t) (hschema : isSchema t) :
    sem.resolve schema ref = some t ∧ ∃ t', sem.resolve (emitted schema) ref = some t' ∧
      ∀ n, sem.meaning (emitted schema) n t' =
        sem.meaning (emitted schema) n (inlineRefs (definitions schema) t) := by
  obtain ⟨hdirect, hinline⟩ := atPath_of_directPath ht
  have hinlined := isSchema_inlineRefs hdefs hschema
  refine ⟨?_, ?_⟩
  · rw [Semantics.resolve, hpath, Option.bind_some, hdirect, Option.filter_some, if_pos hschema]
  · cases path with
    | nil =>
      obtain rfl := Option.some.inj ((directPath_nil _ _).symm.trans ht)
      refine ⟨emitted schema, ?_, fun n => meaning_removeDefs _ n _⟩
      rw [Semantics.resolve, hpath, Option.bind_some, atPath_nil, Option.filter_some]
      exact if_pos (isSchema_removeDefs hinlined)
    | cons key path =>
      have hkey : key ≠ "$defs" := by
        rintro rfl
        exact hhead rfl
      refine ⟨_, ?_, fun n => rfl⟩
      rw [Semantics.resolve, hpath, Option.bind_some, emitted, atPath_removeDefs hkey, hinline,
        Option.filter_some, if_pos hinlined]

/-- The keywords of an object that is not replaced correspond to those of its inlined form. -/
lemma corresponds_inline (hdefs : SchemaDefs (definitions schema)) (hin : Inlinable sem schema)
    {fields : List (String × Json)} (huse : InUse sem schema (.obj fields))
    (hnone : refTarget (definitions schema) fields = none) :
    List.Forall₂ (fun f f' => f.1 = f'.1 ∧ Corresponds (Inlined sem schema) (sem.resolve schema)
      (sem.resolve (emitted schema)) f.1 f.2 f'.2)
        (keywords fields) (keywords (inlineFields (definitions schema) fields)) := by
  rw [keywords_inlineFields, List.forall₂_map_right_iff, List.forall₂_same]
  rintro ⟨k, v⟩ hf
  refine ⟨rfl, ?_⟩
  have hat := hin fields huse
  by_cases hdata : isData k v
  · simp only [inlineRefs_of_hasRef_eq_false _ v (hat.data hnone _ hf hdata)]
    exact .data v hdata
  have hinlined (s : Json) (hs : Subschema k v s) :
      Inlined sem schema s (inlineRefs (definitions schema) s) :=
    ⟨.subschema fields (k, v) s huse hf hs, fun _ => rfl⟩
  rcases cases_of_not_isData hdata with ⟨ref, hkind, rfl, hlocal⟩ | hkind | ⟨vs, hkind, rfl⟩ |
    ⟨fields', hkind, rfl⟩
  · obtain rfl := eq_ref_of_keywordKind hkind
    obtain ⟨path, t, hpath, hhead, ht, hschema⟩ := hat.others hnone ref hf hlocal
    obtain ⟨hres, t', hres', hmeaning⟩ := resolve_emitted hdefs hpath hhead ht hschema
    exact .resolved ref t t' hkind hlocal hres hres'
      ⟨.target fields ref t huse hf hlocal hres, hmeaning⟩
  · exact .schema v _ hkind (hinlined v (.schema v hkind))
  · simp only [inlineRefs, inlineList_eq_map]
    refine .schemas vs _ hkind ?_
    rw [List.forall₂_map_right_iff, List.forall₂_same]
    intro s hs
    exact hinlined s (.schemas vs s hkind hs)
  · have hnone' := hat.named hnone _ hf hkind fields' rfl
    simp only [inlineRefs, hnone', inlineFields_eq_map]
    refine .named fields' _ hkind ?_
    rw [List.forall₂_map_right_iff, List.forall₂_same]
    intro f' hf'
    exact ⟨rfl, hinlined f'.2 (.named fields' f' hkind hf')⟩

lemma isLocal_defs (name : String) : isLocal ("#/$defs/" ++ name) := by
  rw [isLocal, String.toList_append]
  rfl

/-- A reference that is replaced stands alone and means its definition. -/
lemma meaning_of_replaced (hdefs : SchemaDefs (definitions schema)) (hin : Inlinable sem schema)
    {fields : List (String × Json)} {definition : Json} (huse : InUse sem schema (.obj fields))
    (htarget : refTarget (definitions schema) fields = some definition) :
    InUse sem schema definition ∧ hasRef definition = false ∧
      ∀ n, sem.meaning schema (n + 1) (.obj fields) = sem.meaning schema n definition := by
  obtain ⟨name, hname, hdefinition⟩ := Option.bind_eq_some_iff.mp htarget
  obtain ⟨halone, hpointer, hfree⟩ := (hin fields huse).alone name definition hname hdefinition
  have hpath : atPath schema ["$defs", name] = some definition := by
    cases schema with
    | obj fields =>
      rw [definitions, Json.get] at hdefinition
      rw [atPath]
      cases hlookup : fields.lookup "$defs" with
      | none =>
        rw [hlookup] at hdefinition
        cases hdefinition
      | some defs =>
        rw [hlookup, Option.getD_some] at hdefinition
        cases defs with
        | obj _ =>
          rw [Option.bind_some, atPath]
          rw [Json.get] at hdefinition
          rw [hdefinition, Option.bind_some, atPath_nil]
        | _ => cases hdefinition
    | _ => cases hdefinition
  have hres : sem.resolve schema ("#/$defs/" ++ name) = some definition := by
    rw [Semantics.resolve, hpointer, Option.bind_some, hpath, Option.filter_some,
      if_pos (hdefs name definition hdefinition)]
  have hlocal := isLocal_defs name
  refine ⟨?_, hfree, fun n => meaning_of_alone halone hlocal hres n⟩
  refine .target fields _ definition huse ?_ hlocal hres
  rw [halone]
  exact List.mem_singleton_self _

/-! ### Both directions -/

lemma meaning_emitted (hdefs : SchemaDefs (definitions schema)) (hin : Inlinable sem schema)
    {n : ℕ} {s : Json} (huse : InUse sem schema s) {d : D}
    (hd : sem.meaning schema n s = some d) :
    sem.meaning (emitted schema) n (inlineRefs (definitions schema) s) = some d := by
  induction n generalizing s d with
  | zero => cases hd
  | succ n ih =>
    cases s with
    | obj fields =>
      rw [inlineRefs]
      cases htarget : refTarget (definitions schema) fields with
      | none =>
        refine meaning_of_corresponds ?_ (corresponds_inline hdefs hin huse htarget) hd
        rintro a b d ⟨ha, hb⟩ hd
        rw [hb]
        exact ih ha hd
      | some definition =>
        obtain ⟨hdefinition, hfree, hmeaning⟩ := meaning_of_replaced hdefs hin huse htarget
        rw [hmeaning] at hd
        have hd := ih hdefinition hd
        rw [inlineRefs_of_hasRef_eq_false _ definition hfree] at hd
        exact meaning_succ hd
    | bool b => exact hd
    | _ => cases hd

/-- The step back for a schema that is not replaced. -/
lemma meaning_of_emitted_succ (hdefs : SchemaDefs (definitions schema))
    (hin : Inlinable sem schema) {n m : ℕ}
    (ih : ∀ s d, InUse sem schema s →
      sem.meaning (emitted schema) n (inlineRefs (definitions schema) s) = some d →
        sem.meaning schema m s = some d)
    {s : Json} (huse : InUse sem schema s)
    (hnone : ∀ fields, s = .obj fields → refTarget (definitions schema) fields = none) {d : D}
    (hd : sem.meaning (emitted schema) (n + 1) (inlineRefs (definitions schema) s) = some d) :
    sem.meaning schema (m + 1) s = some d := by
  cases s with
  | obj fields =>
    have htarget := hnone fields rfl
    rw [inlineRefs, htarget] at hd
    have hcorresponds := corresponds_inline hdefs hin huse htarget
    refine meaning_of_corresponds (R := fun b a => Inlined sem schema a b) ?_ ?_ hd
    · rintro b a d ⟨ha, hb⟩ hd
      rw [hb] at hd
      exact ih a d ha hd
    · refine hcorresponds.flip.imp ?_
      rintro f' f ⟨hkey, h⟩
      rw [← hkey]
      exact ⟨rfl, h.symm fun _ _ hab => hab⟩
  | bool b => exact hd
  | _ => cases hd

/-- In the original, a reference takes one more level. -/
lemma meaning_of_emitted (hdefs : SchemaDefs (definitions schema)) (hin : Inlinable sem schema)
    {n : ℕ} {s : Json} (huse : InUse sem schema s) {d : D}
    (hd : sem.meaning (emitted schema) n (inlineRefs (definitions schema) s) = some d) :
    sem.meaning schema (2 * n) s = some d := by
  induction n generalizing s d with
  | zero => cases hd
  | succ n ih =>
    by_cases hreplaced : ∃ fields definition, s = .obj fields ∧
        refTarget (definitions schema) fields = some definition
    · obtain ⟨fields, definition, rfl, htarget⟩ := hreplaced
      obtain ⟨hdefinition, hfree, hmeaning⟩ := meaning_of_replaced hdefs hin huse htarget
      have hinline := inlineRefs_of_hasRef_eq_false (definitions schema) definition hfree
      rw [inlineRefs, htarget] at hd
      simp only at hd
      rw [← hinline] at hd
      rw [Nat.mul_succ, hmeaning]
      refine meaning_of_emitted_succ hdefs hin (fun s d hs hd => ih hs hd) hdefinition ?_ hd
      rintro fields rfl
      rw [hasRef, Bool.or_eq_false_iff, Option.isSome_eq_false_iff,
        Option.isNone_iff_eq_none] at hfree
      rw [refTarget, hfree.1, Option.bind_none]
    · refine meaning_succ (meaning_of_emitted_succ hdefs hin (fun s d hs hd => ih hs hd) huse ?_ hd)
      intro fields hs
      rw [Option.eq_none_iff_forall_ne_some]
      intro definition htarget
      exact hreplaced ⟨fields, definition, hs, htarget⟩

/-- The emitted schema has no reference to `$defs` exactly when the references are closed; when they
can be inlined, it accepts the same values. -/
theorem buildOneToolDescription_closed_iff (sem : Semantics D) (spec : ToolSpec)
    (hdefs : SchemaDefs (definitions spec.input_schema)) :
    (hasRef (buildOneToolDescription spec).parameters = false ↔
        closedOutside spec.input_schema) ∧
      (Inlinable sem spec.input_schema → ∀ v,
        sem.Accepts (buildOneToolDescription spec).parameters v ↔
          sem.Accepts spec.input_schema v) := by
  have hemitted : (buildOneToolDescription spec).parameters = emitted spec.input_schema := by
    rw [buildOneToolDescription, emitted, inlineSchemaRefs_eq]
  rw [hemitted]
  refine ⟨?_, ?_⟩
  · rw [emitted, hasRef_emitted _ hdefs, Bool.not_eq_false']
  · intro hin v
    constructor
    · rintro ⟨n, d, hd, hv⟩
      have hd' : sem.meaning (emitted spec.input_schema) n
          (inlineRefs (definitions spec.input_schema) spec.input_schema) = some d := by
        rwa [emitted, meaning_removeDefs] at hd
      exact ⟨2 * n, d, meaning_of_emitted hdefs hin .root hd', hv⟩
    · rintro ⟨n, d, hd, hv⟩
      refine ⟨n, d, ?_, hv⟩
      rw [emitted, meaning_removeDefs]
      exact meaning_emitted hdefs hin .root hd

/-! ### A tool with an artifact -/

def isObject : Json → Bool
  | .obj _ => true
  | _ => false

/-- The types that the schemas name. -/
def hasType (type v : Json) : Bool :=
  if type = .str "string" then v.isString
  else if type = .str "object" then isObject v
  else true

/-- The keywords `$ref`, `properties` and `type` of JSON Schema. -/
def checkKeyword (v : Json) (k : String) : KeywordValue (Json → Bool) → Bool
  | .schema d => if k = "$ref" then d v else true
  | .named ds => if k = "properties" then ds.all fun d => (v.get d.1).all d.2 else true
  | .data t => if k = "type" then hasType t v else true
  | .schemas _ => true

def checkSemantics : Semantics (Json → Bool) where
  leaf b := fun _ => b
  node parts := fun v => parts.all fun p => checkKeyword v p.1 p.2
  holds d v := d v
  pointer ref :=
    match ref.toList with
    | '#' :: '/' :: path => some ((path.splitOn '/').map String.ofList)
    | _ => none
  node_ref d := by
    funext v
    simp [checkKeyword]

def artifactIdRef : List (String × Json) := [("$ref", .str "#/$defs/ArtifactId")]

def artifactIdSchema : List (String × Json) := [("type", .str "string")]

def artifactTool : List (String × Json) :=
  [("$defs", .obj [("ArtifactId", .obj artifactIdSchema)]),
    ("properties", .obj [("artifact_id", .obj artifactIdRef)]), ("type", .str "object")]

lemma keywords_artifactTool : keywords artifactTool =
    [("properties", .obj [("artifact_id", .obj artifactIdRef)]), ("type", .str "object")] := by
  decide

/-- The tool, the reference in it and the definition are all that is read. -/
lemma inUse_artifactTool {s : Json} (h : InUse checkSemantics (.obj artifactTool) s) :
    s = .obj artifactTool ∨ s = .obj artifactIdRef ∨ s = .obj artifactIdSchema := by
  induction h with
  | root => exact .inl rfl
  | subschema fields f s _ hf hs ih =>
    have hproperties : keywordKind "properties" = .named := rfl
    have hreference : keywordKind "$ref" = .reference := rfl
    rcases ih with h | h | h
    · obtain rfl := Json.obj.inj h
      rw [keywords_artifactTool, List.mem_cons, List.mem_singleton] at hf
      rcases hf with rfl | rfl
      · cases hs with
        | named fields f _ hf =>
          obtain rfl := List.mem_singleton.mp hf
          exact .inr (.inl rfl)
        | schema _ hkind => cases hproperties.symm.trans hkind
      · exact absurd rfl hs.not_isData
    · obtain rfl := Json.obj.inj h
      obtain rfl := List.mem_singleton.mp hf
      cases hs with
      | schema _ hkind => cases hreference.symm.trans hkind
    · obtain rfl := Json.obj.inj h
      obtain rfl := List.mem_singleton.mp hf
      exact absurd rfl hs.not_isData
  | target fields ref t _ hf _ ht ih =>
    have hresolve : checkSemantics.resolve (.obj artifactTool) "#/$defs/ArtifactId" =
        some (.obj artifactIdSchema) := by decide
    rcases ih with h | h | h
    · obtain rfl := Json.obj.inj h
      have href : "$ref" ∈ (keywords artifactTool).map Prod.fst := List.mem_map_of_mem hf
      exact absurd href (by decide)
    · obtain rfl := Json.obj.inj h
      obtain ⟨-, href⟩ := Prod.mk.inj (List.mem_singleton.mp hf)
      obtain rfl := Json.str.inj href
      rw [hresolve] at ht
      exact .inr (.inr (Option.some.inj ht).symm)
    · obtain rfl := Json.obj.inj h
      have href : "$ref" ∈ (keywords artifactIdSchema).map Prod.fst := List.mem_map_of_mem hf
      exact absurd href (by decide)

lemma inlinable_artifactTool : Inlinable checkSemantics (.obj artifactTool) := by
  have hdefs : (definitions (.obj artifactTool)).get "ArtifactId" =
      some (.obj artifactIdSchema) := rfl
  intro fields huse
  rcases inUse_artifactTool huse with h | h | h
  · obtain rfl := Json.obj.inj h
    refine inlinableAt_of_refName_eq_none (by decide) (by decide) (by decide) ?_
    intro f hf _ fields' hfields
    rw [keywords_artifactTool, List.mem_cons, List.mem_singleton] at hf
    rcases hf with rfl | rfl
    · obtain rfl := Json.obj.inj hfields
      decide
    · cases hfields
  · obtain rfl := Json.obj.inj h
    have href : refName artifactIdRef = some "ArtifactId" := by decide
    refine inlinableAt_of_refTarget (Option.bind_eq_some_iff.mpr ⟨_, href, hdefs⟩) ?_
    intro name hname
    obtain rfl := Option.some.inj (href.symm.trans hname)
    exact ⟨by decide, by decide, by decide⟩
  · obtain rfl := Json.obj.inj h
    refine inlinableAt_of_refName_eq_none (by decide) (by decide) (by decide) ?_
    intro f hf _ fields' hfields
    obtain rfl := List.mem_singleton.mp hf
    cases hfields

theorem buildOneToolDescription_closed_iff_artifactTool :
    hasRef (buildOneToolDescription ⟨"inspect", "", .obj artifactTool⟩).parameters = false ∧
      ∀ v, checkSemantics.Accepts
        (buildOneToolDescription ⟨"inspect", "", .obj artifactTool⟩).parameters v ↔
          checkSemantics.Accepts (.obj artifactTool) v := by
  have hdefs : SchemaDefs (definitions (.obj artifactTool)) := by
    intro name definition hdefinition
    have hget : (definitions (.obj artifactTool)).get name =
        [("ArtifactId", Json.obj artifactIdSchema)].lookup name := rfl
    rw [hget, List.lookup_cons] at hdefinition
    cases hname : name == "ArtifactId" with
    | true =>
      rw [hname] at hdefinition
      obtain rfl := Option.some.inj hdefinition
      rfl
    | false =>
      rw [hname] at hdefinition
      cases hdefinition
  have htool := buildOneToolDescription_closed_iff checkSemantics
    ⟨"inspect", "", .obj artifactTool⟩ hdefs
  exact ⟨htool.1.mpr (by decide), htool.2 inlinable_artifactTool⟩

/-- Inside a definition there is a reference to another one. -/
def nestedTool : List (String × Json) :=
  [("$defs", .obj [("Artifact", .obj [("properties", .obj [("artifact_id", .obj artifactIdRef)])]),
      ("ArtifactId", .obj artifactIdSchema)]),
    ("properties", .obj [("artifact", .obj [("$ref", .str "#/$defs/Artifact")])])]

def nestedSpec : ToolSpec := ⟨"inspect", "", .obj nestedTool⟩

/-- The reference that is left leads nowhere, and the schema has no meaning. -/
lemma meaning_nestedTool (n : ℕ) :
    checkSemantics.meaning (buildOneToolDescription nestedSpec).parameters n
      (buildOneToolDescription nestedSpec).parameters = none := by
  match n with
  | 0 => rfl
  | 1 => rfl
  | 2 => rfl
  | 3 => rfl
  | n + 4 => rfl

theorem nested_reference_is_left :
    hasRef (buildOneToolDescription nestedSpec).parameters = true ∧
      checkSemantics.Accepts nestedSpec.input_schema (.obj []) ∧
        ∀ v, ¬checkSemantics.Accepts (buildOneToolDescription nestedSpec).parameters v := by
  refine ⟨by decide, ⟨5, _, rfl, rfl⟩, ?_⟩
  rintro v ⟨n, d, hd, -⟩
  rw [meaning_nestedTool] at hd
  cases hd

end Arbeiterfarm.Agents.PromptBuilder
