import Arbeiterfarm.Core.Resolver
import Arbeiterfarm.Foundation.Fallible

/-!
# Where artifact ids stand

An input schema is built from objects, arrays, references to artifact ids, and leaves. What an
extraction finds of a valid input are the ids that are reached through properties, and at last
perhaps as elements of one array; ids deeper in arrays are not found, nor ids too deep in the
schema.
-/

namespace Arbeiterfarm

namespace Resolver

open Foundation.Fallible

/-- Schemas built from objects, arrays and references, over names that meet `P`. -/
inductive InputSchema (P : String → Prop) : Json → Prop
  | artifactId {schema : Json} (href : schema.strField "$ref" = some "#/$defs/ArtifactId") :
    InputSchema P schema
  | artifactIds {schema : Json} (href : schema.strField "$ref" = some "#/$defs/ArtifactIds") :
    InputSchema P schema
  | leaf {schema : Json} (href : isArtifactRef schema = false) (hprops : properties schema = [])
    (hitems : schema.get "items" = none) : InputSchema P schema
  | object {schema : Json} (href : isArtifactRef schema = false)
    (hitems : schema.get "items" = none) (hnames : ∀ p ∈ properties schema, P p.1)
    (hprops : ∀ p ∈ properties schema, InputSchema P p.2) : InputSchema P schema
  | array {schema items : Json} (href : isArtifactRef schema = false)
    (hprops : properties schema = []) (hitems : schema.get "items" = some items)
    (h : InputSchema P items) : InputSchema P schema

section

variable (parseUuid : String → Option Uuid)

/-- A string that is an id. -/
def IsId (value : Json) : Prop := ∃ s, value = .str s ∧ (parseUuid s).isSome = true

/-- An input that is valid for a schema. -/
inductive Valid : Json → Json → Prop
  | artifactId {schema value : Json} (href : schema.strField "$ref" = some "#/$defs/ArtifactId")
    (h : IsId parseUuid value) : Valid schema value
  | artifactIds {schema : Json} {vs : List Json}
    (href : schema.strField "$ref" = some "#/$defs/ArtifactIds")
    (h : ∀ v ∈ vs, IsId parseUuid v) : Valid schema (.arr vs)
  | leaf {schema value : Json} (href : isArtifactRef schema = false)
    (hprops : properties schema = []) (hitems : schema.get "items" = none) : Valid schema value
  | object {schema : Json} {fields : List (String × Json)} (href : isArtifactRef schema = false)
    (hitems : schema.get "items" = none)
    (h : ∀ p ∈ properties schema, ∀ child, (Json.obj fields).get p.1 = some child →
      Valid p.2 child) : Valid schema (.obj fields)
  | array {schema items : Json} {vs : List Json} (href : isArtifactRef schema = false)
    (hprops : properties schema = []) (hitems : schema.get "items" = some items)
    (h : ∀ v ∈ vs, Valid items v) : Valid schema (.arr vs)

end

/-- The text stands in the input at a reference of the schema, so many levels down. -/
inductive ArtifactAt : ℕ → Json → Json → String → Prop
  | id {schema : Json} (s : String)
    (href : schema.strField "$ref" = some "#/$defs/ArtifactId") : ArtifactAt 0 schema (.str s) s
  | ids {schema : Json} {vs : List Json} {s : String}
    (href : schema.strField "$ref" = some "#/$defs/ArtifactIds") (hs : .str s ∈ vs) :
    ArtifactAt 0 schema (.arr vs) s
  | property {n : ℕ} {schema sub value child : Json} {key s : String}
    (href : isArtifactRef schema = false) (hprop : (key, sub) ∈ properties schema)
    (hchild : value.get key = some child) (h : ArtifactAt n sub child s) :
    ArtifactAt (n + 1) schema value s
  | item {n : ℕ} {schema items v : Json} {vs : List Json} {s : String}
    (href : isArtifactRef schema = false) (hitems : schema.get "items" = some items)
    (hv : v ∈ vs) (h : ArtifactAt n items v s) : ArtifactAt (n + 1) schema (.arr vs) s

/-- The text stands at a reference that is reached through properties, and at last perhaps as an
element of an array. -/
inductive DirectAt : ℕ → Json → Json → String → Prop
  | id {schema : Json} (s : String)
    (href : schema.strField "$ref" = some "#/$defs/ArtifactId") : DirectAt 0 schema (.str s) s
  | ids {schema : Json} {vs : List Json} {s : String}
    (href : schema.strField "$ref" = some "#/$defs/ArtifactIds") (hs : .str s ∈ vs) :
    DirectAt 0 schema (.arr vs) s
  | item {schema items : Json} {vs : List Json} {s : String}
    (href : isArtifactRef schema = false) (hitems : schema.get "items" = some items)
    (hid : items.strField "$ref" = some "#/$defs/ArtifactId") (hs : .str s ∈ vs) :
    DirectAt 1 schema (.arr vs) s
  | property {n : ℕ} {schema sub value child : Json} {key s : String}
    (href : isArtifactRef schema = false) (hprop : (key, sub) ∈ properties schema)
    (hchild : value.get key = some child) (h : DirectAt n sub child s) :
    DirectAt (n + 1) schema value s

lemma DirectAt.artifactAt {n : ℕ} {schema value : Json} {s : String}
    (h : DirectAt n schema value s) : ArtifactAt n schema value s := by
  induction h with
  | id s href => exact .id s href
  | ids href hs => exact .ids href hs
  | item href hitems hid hs => exact .item href hitems hs (.id _ hid)
  | property href hprop hchild _ ih => exact .property href hprop hchild ih

lemma isArtifactRef_of_id {schema : Json}
    (h : schema.strField "$ref" = some "#/$defs/ArtifactId") : isArtifactRef schema = true := by
  simp [isArtifactRef, h]

lemma isArtifactRef_of_ids {schema : Json}
    (h : schema.strField "$ref" = some "#/$defs/ArtifactIds") : isArtifactRef schema = true := by
  simp [isArtifactRef, h]

/-! ### Reading ids -/

section

variable {parseUuid : String → Option Uuid} {printJson : Json → String}

lemma parseId_eq_ok {s : String} {id : Uuid} :
    parseId parseUuid s = .ok id ↔ parseUuid s = some id := by
  cases h : parseUuid s with
  | none => simp [parseId, h]
  | some id' => simp [parseId, h]

lemma elementIds_ok {vs : List Json}
    (h : ∀ s, .str s ∈ vs → (parseUuid s).isSome = true) :
    ∃ ids, elementIds parseUuid vs = .ok ids := by
  induction vs with
  | nil => exact ⟨[], rfl⟩
  | cons v vs ih =>
    obtain ⟨ids, hids⟩ := ih fun s hs => h s (List.mem_cons_of_mem _ hs)
    cases v with
    | str s =>
      obtain ⟨id, hid⟩ := Option.isSome_iff_exists.mp (h s List.mem_cons_self)
      exact ⟨id :: ids, bind_eq_ok.mpr ⟨id, parseId_eq_ok.mpr hid, bind_eq_ok.mpr ⟨ids, hids, rfl⟩⟩⟩
    | _ => exact ⟨ids, hids⟩

/-- What an array yields has every id among its elements. -/
lemma mem_elementIds {vs : List Json} {ids : List Uuid} {s : String}
    (h : elementIds parseUuid vs = .ok ids) (hs : .str s ∈ vs) :
    ∃ id ∈ ids, parseUuid s = some id := by
  induction vs generalizing ids with
  | nil => cases hs
  | cons v vs ih =>
    cases v with
    | str s' =>
      obtain ⟨id, hid, h⟩ := bind_eq_ok.mp h
      obtain ⟨rest, hrest, h⟩ := bind_eq_ok.mp h
      obtain rfl := pure_eq_ok.mp h
      rcases List.mem_cons.mp hs with heq | hs
      · obtain rfl := Json.str.inj heq
        exact ⟨id, List.mem_cons_self, parseId_eq_ok.mp hid⟩
      · obtain ⟨id', hmem, hid'⟩ := ih hrest hs
        exact ⟨id', List.mem_cons_of_mem _ hmem, hid'⟩
    | _ =>
      rcases List.mem_cons.mp hs with heq | hs
      · cases heq
      · exact ih h hs

/-- The extraction succeeds when it does at every path, and finds what it finds at each. -/
lemma extractArtifactIds_ok {input : Json} {paths : List String}
    (h : ∀ path ∈ paths, ∃ ids,
      extractAtPath parseUuid printJson input (pathParts path) = .ok ids) :
    ∃ ids, extractArtifactIds parseUuid printJson input paths = .ok ids := by
  induction paths with
  | nil => exact ⟨[], rfl⟩
  | cons path paths ih =>
    obtain ⟨ids, hids⟩ := h path List.mem_cons_self
    obtain ⟨ids', hids'⟩ := ih fun path hpath => h path (List.mem_cons_of_mem _ hpath)
    exact ⟨ids ++ ids', bind_eq_ok.mpr ⟨ids, hids, bind_eq_ok.mpr ⟨ids', hids', rfl⟩⟩⟩

lemma mem_extractArtifactIds {input : Json} {paths : List String} {ids : List Uuid}
    {P : Uuid → Prop} (h : extractArtifactIds parseUuid printJson input paths = .ok ids)
    {path : String} (hpath : path ∈ paths)
    (hid : ∀ ids, extractAtPath parseUuid printJson input (pathParts path) = .ok ids →
      ∃ id ∈ ids, P id) : ∃ id ∈ ids, P id := by
  induction paths generalizing ids with
  | nil => cases hpath
  | cons path' paths ih =>
    obtain ⟨first, hfirst, h⟩ := bind_eq_ok.mp h
    obtain ⟨rest, hrest, h⟩ := bind_eq_ok.mp h
    obtain rfl := pure_eq_ok.mp h
    rcases List.mem_cons.mp hpath with rfl | hpath
    · obtain ⟨id, hmem, hP⟩ := hid first hfirst
      exact ⟨id, List.mem_append_left _ hmem, hP⟩
    · obtain ⟨id, hmem, hP⟩ := ih hrest hpath
      exact ⟨id, List.mem_append_right _ hmem, hP⟩

/-! ### Valid inputs are read without errors -/

lemma not_id_of_isArtifactRef {schema : Json} (href : isArtifactRef schema = false) :
    schema.strField "$ref" ≠ some "#/$defs/ArtifactId" := by
  intro hid
  rw [isArtifactRef_of_id hid] at href
  cases href

lemma not_ids_of_isArtifactRef {schema : Json} (href : isArtifactRef schema = false) :
    schema.strField "$ref" ≠ some "#/$defs/ArtifactIds" := by
  intro hids
  rw [isArtifactRef_of_ids hids] at href
  cases href

lemma Valid.property {schema value child : Json} {p : String × Json}
    (h : Valid parseUuid schema value) (hp : p ∈ properties schema)
    (hchild : value.get p.1 = some child) : Valid parseUuid p.2 child := by
  cases h with
  | artifactId href hid =>
    obtain ⟨s, rfl, -⟩ := hid
    cases hchild
  | artifactIds => cases hchild
  | leaf href hprops hitems =>
    rw [hprops] at hp
    cases hp
  | object href hitems hvalid => exact hvalid p hp child hchild
  | array => cases hchild

lemma Valid.elements {schema items value : Json} (h : Valid parseUuid schema value)
    (href : isArtifactRef schema = false) (hitems : schema.get "items" = some items) :
    ∃ vs, value = .arr vs ∧ ∀ v ∈ vs, Valid parseUuid items v := by
  cases h with
  | artifactId hid => exact absurd hid (not_id_of_isArtifactRef href)
  | artifactIds hids => exact absurd hids (not_ids_of_isArtifactRef href)
  | leaf _ _ hnone | object _ hnone =>
    rw [hnone] at hitems
    cases hitems
  | array _ _ hitems' hvalid =>
    obtain rfl := Option.some.inj (hitems.symm.trans hitems')
    exact ⟨_, rfl, hvalid⟩

/-- A value of a reference is an id, or an array of ids. -/
lemma Valid.ids {schema value : Json} (h : Valid parseUuid schema value)
    (href : isArtifactRef schema = true) :
    IsId parseUuid value ∨ ∃ vs, value = .arr vs ∧ ∀ v ∈ vs, IsId parseUuid v := by
  cases h with
  | artifactId _ hid => exact .inl hid
  | artifactIds _ hids => exact .inr ⟨_, rfl, hids⟩
  | leaf hfalse | object hfalse | array hfalse =>
    rw [href] at hfalse
    cases hfalse

/-- So many layers of arrays around values that are valid. -/
def ValidUnder (parseUuid : String → Option Uuid) : ℕ → Json → Json → Prop
  | 0, schema, value => Valid parseUuid schema value
  | k + 1, schema, value => ∃ vs, value = .arr vs ∧ ∀ v ∈ vs, ValidUnder parseUuid k schema v

lemma ValidUnder.elements {k : ℕ} {schema items value : Json}
    (h : ValidUnder parseUuid k schema value) (href : isArtifactRef schema = false)
    (hitems : schema.get "items" = some items) : ValidUnder parseUuid (k + 1) items value := by
  induction k generalizing value with
  | zero => exact Valid.elements h href hitems
  | succ k ih =>
    obtain ⟨vs, rfl, hvs⟩ := h
    exact ⟨vs, rfl, fun v hv => ih (hvs v hv)⟩

/-- A string below a reference, or below arrays of references, is an id. -/
lemma ValidUnder.isSome_parseUuid {k : ℕ} {schema : Json} {s : String}
    (h : ValidUnder parseUuid k schema (.str s)) (href : isArtifactRef schema = true) :
    (parseUuid s).isSome = true := by
  cases k with
  | zero =>
    rcases Valid.ids h href with ⟨s', heq, hs⟩ | ⟨vs, heq, -⟩
    · obtain rfl := Json.str.inj heq
      exact hs
    · cases heq
  | succ k =>
    obtain ⟨vs, heq, -⟩ := h
    cases heq

lemma ValidUnder.targetIds_ok {k : ℕ} {schema value : Json}
    (h : ValidUnder parseUuid k schema value) (href : isArtifactRef schema = true) :
    ∃ ids, targetIds parseUuid printJson value = .ok ids := by
  have hstr {s : String} (hs : (parseUuid s).isSome = true) :
      ∃ ids, targetIds parseUuid printJson (.str s) = .ok ids := by
    obtain ⟨id, hid⟩ := Option.isSome_iff_exists.mp hs
    exact ⟨[id], map_eq_ok.mpr ⟨id, parseId_eq_ok.mpr hid, rfl⟩⟩
  cases k with
  | zero =>
    rcases Valid.ids h href with ⟨s, rfl, hs⟩ | ⟨vs, rfl, hvs⟩
    · exact hstr hs
    · apply elementIds_ok
      intro s hs
      obtain ⟨s', heq, hsome⟩ := hvs _ hs
      obtain rfl := Json.str.inj heq
      exact hsome
  | succ k =>
    obtain ⟨vs, rfl, hvs⟩ := h
    apply elementIds_ok
    intro s hs
    exact (hvs _ hs).isSome_parseUuid href

lemma walkSchema_of_ref {schema : Json} (href : isArtifactRef schema = true) (levels : ℕ)
    (current_path : String) : walkSchema (levels + 1) schema current_path = [current_path] := by
  rw [walkSchema, if_pos href]

lemma mem_walkSchema {schema : Json} (href : isArtifactRef schema = false) {levels : ℕ}
    {current_path path : String} : path ∈ walkSchema (levels + 1) schema current_path ↔
      (∃ p ∈ properties schema, path ∈ walkSchema levels p.2 (childPath current_path p.1)) ∨
      ∃ items, schema.get "items" = some items ∧ path ∈ walkSchema levels items current_path := by
  rw [walkSchema, if_neg (by simp [href]), List.mem_append, List.mem_flatMap]
  refine or_congr Iff.rfl ?_
  cases schema.get "items" with
  | none => simp
  | some items => simp

/-- At every path of a schema over plain names, the ids of a valid input can be read. -/
lemma extractAtPath_ok {input schema : Json} (hschema : InputSchema PlainName schema)
    {levels k : ℕ} {current_path : String}
    (h : ∀ v, follow input (pathParts current_path) = some v → ValidUnder parseUuid k schema v)
    {path : String} (hpath : path ∈ walkSchema levels schema current_path) :
    ∃ ids, extractAtPath parseUuid printJson input (pathParts path) = .ok ids := by
  induction levels generalizing schema k current_path with
  | zero => cases hpath
  | succ levels ih =>
    have hitems' {items : Json} (href : isArtifactRef schema = false)
        (hitems : schema.get "items" = some items) (hsub : InputSchema PlainName items)
        (hpath : path ∈ walkSchema levels items current_path) :
        ∃ ids, extractAtPath parseUuid printJson input (pathParts path) = .ok ids := by
      apply ih hsub (k := k + 1) _ hpath
      intro v hv
      exact (h v hv).elements href hitems
    by_cases href : isArtifactRef schema = true
    · rw [walkSchema_of_ref href, List.mem_singleton] at hpath
      rw [hpath, extractAtPath_eq]
      cases hv : follow input (pathParts current_path) with
      | none => exact ⟨[], rfl⟩
      | some v => exact (h v hv).targetIds_ok href
    · rw [Bool.not_eq_true] at href
      rw [mem_walkSchema href] at hpath
      cases hschema with
      | artifactId hid => exact absurd hid (not_id_of_isArtifactRef href)
      | artifactIds hids => exact absurd hids (not_ids_of_isArtifactRef href)
      | leaf _ hprops hitems =>
        rw [hprops, hitems] at hpath
        simp at hpath
      | object _ hitems hnames hprops =>
        rcases hpath with ⟨p, hp, hpath⟩ | ⟨items, hsome, -⟩
        · apply ih (hprops p hp) (k := 0) _ hpath
          intro child hchild
          rw [pathParts_childPath (hnames p hp), follow_append] at hchild
          obtain ⟨v, hv, hget⟩ := Option.bind_eq_some_iff.mp hchild
          have hvalid := h v hv
          -- a property of an array leads nowhere
          cases k with
          | zero => exact Valid.property hvalid hp hget
          | succ k =>
            obtain ⟨vs, rfl, -⟩ := hvalid
            cases hget
        · rw [hitems] at hsome
          cases hsome
      | array _ hprops hitems hsub =>
        rcases hpath with ⟨p, hp, -⟩ | ⟨items, hsome, hpath⟩
        · rw [hprops] at hp
          cases hp
        · obtain rfl := Option.some.inj (hitems.symm.trans hsome)
          exact hitems' href hitems hsub hpath

/-! ### Ids that are found -/

lemma InputSchema.property {P : String → Prop} {schema : Json} (h : InputSchema P schema)
    (href : isArtifactRef schema = false) {p : String × Json} (hp : p ∈ properties schema) :
    P p.1 ∧ InputSchema P p.2 := by
  cases h with
  | artifactId hid => exact absurd hid (not_id_of_isArtifactRef href)
  | artifactIds hids => exact absurd hids (not_ids_of_isArtifactRef href)
  | leaf _ hprops =>
    rw [hprops] at hp
    cases hp
  | object _ _ hnames hprops => exact ⟨hnames p hp, hprops p hp⟩
  | array _ hprops =>
    rw [hprops] at hp
    cases hp

lemma mem_targetIds_str {s : String} {ids : List Uuid}
    (h : targetIds parseUuid printJson (.str s) = .ok ids) :
    ∃ id ∈ ids, parseUuid s = some id := by
  obtain ⟨id, hid, rfl⟩ := map_eq_ok.mp h
  exact ⟨id, List.mem_singleton_self id, parseId_eq_ok.mp hid⟩

/-- An id that stands directly at a reference is found at the path of the reference. -/
lemma DirectAt.mem_walkSchema {n : ℕ} {input schema value : Json} {s : String}
    (h : DirectAt n schema value s) (hschema : InputSchema PlainName schema) {levels : ℕ}
    (hlevels : n < levels) {current_path : String}
    (hvalue : follow input (pathParts current_path) = some value) :
    ∃ path ∈ walkSchema levels schema current_path,
      ∀ ids, extractAtPath parseUuid printJson input (pathParts path) = .ok ids →
        ∃ id ∈ ids, parseUuid s = some id := by
  induction h generalizing levels current_path with
  | id s href =>
    obtain ⟨levels, rfl⟩ := Nat.exists_eq_add_of_lt hlevels
    rw [walkSchema_of_ref (isArtifactRef_of_id href)]
    refine ⟨current_path, List.mem_singleton_self _, ?_⟩
    intro ids hids
    rw [extractAtPath_eq, hvalue] at hids
    exact mem_targetIds_str hids
  | ids href hs =>
    obtain ⟨levels, rfl⟩ := Nat.exists_eq_add_of_lt hlevels
    rw [walkSchema_of_ref (isArtifactRef_of_ids href)]
    refine ⟨current_path, List.mem_singleton_self _, ?_⟩
    intro ids hids
    rw [extractAtPath_eq, hvalue] at hids
    exact mem_elementIds hids hs
  | item href hitems hid hs =>
    obtain ⟨levels, rfl⟩ := Nat.exists_eq_add_of_lt hlevels
    refine ⟨current_path, ?_, ?_⟩
    · rw [show 1 + levels + 1 = (levels + 1) + 1 by omega, Resolver.mem_walkSchema href]
      right
      exact ⟨_, hitems, by simp [walkSchema_of_ref (isArtifactRef_of_id hid)]⟩
    · intro ids hids
      rw [extractAtPath_eq, hvalue] at hids
      exact mem_elementIds hids hs
  | property href hprop hchild h ih =>
    obtain ⟨levels, rfl⟩ : ∃ m, levels = m + 1 := Nat.exists_eq_succ_of_ne_zero (by omega)
    obtain ⟨hname, hsub⟩ := hschema.property href hprop
    obtain ⟨path, hpath, hfound⟩ := ih hsub (Nat.lt_of_succ_lt_succ hlevels) (by
      rw [pathParts_childPath hname, follow_append, hvalue]
      exact hchild)
    refine ⟨path, ?_, hfound⟩
    rw [Resolver.mem_walkSchema href]
    exact .inl ⟨_, hprop, hpath⟩

/-- A valid input of a schema over plain names: the extraction succeeds, and it finds every id
that stands directly at a reference and not too deep. -/
lemma extractArtifactIds_spec {schema input : Json} (hschema : InputSchema PlainName schema)
    (hvalid : Valid parseUuid schema input) :
    ∃ ids, extractArtifactIds parseUuid printJson input (resolveSchemaPaths schema) = .ok ids ∧
      ∀ n ≤ maxDepth, ∀ s, DirectAt n schema input s → ∃ id ∈ ids, parseUuid s = some id := by
  have hroot : follow input (pathParts "") = some input := rfl
  obtain ⟨ids, hids⟩ : ∃ ids,
      extractArtifactIds parseUuid printJson input (resolveSchemaPaths schema) = .ok ids := by
    apply extractArtifactIds_ok
    intro path hpath
    apply extractAtPath_ok hschema (k := 0) _ hpath
    intro v hv
    obtain rfl := Option.some.inj (hroot.symm.trans hv)
    exact hvalid
  refine ⟨ids, hids, ?_⟩
  intro n hn s hs
  obtain ⟨path, hpath, hfound⟩ := hs.mem_walkSchema hschema (Nat.lt_succ_of_le hn) hroot
  exact mem_extractArtifactIds hids hpath hfound

end

end Resolver

end Arbeiterfarm
