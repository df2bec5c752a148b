import Arbeiterfarm.Core.Json
import Mathlib.Data.List.Forall2

/-!
# The meaning of a JSON schema

A schema is a boolean or an object of keywords. The value of a keyword is data, a schema, a list of
schemas or schemas by name; a reference means the schema that it leads to, and definitions and
annotations do not count. What the keywords demand is a parameter: whatever is proved here holds for
every semantics in which the meaning of a schema depends on the meanings of its subschemas.
-/

namespace Arbeiterfarm.JsonSchema

/-! ### Keywords -/

inductive KeywordKind where
  | reference
  | schema
  | schemas
  | named
  | data
  deriving DecidableEq, Repr

/-- How the value of a keyword is read. -/
def keywordKind (k : String) : KeywordKind :=
  if k = "$ref" then .reference
  else if k ∈ ["not", "if", "then", "else", "items", "contains", "additionalProperties",
    "propertyNames", "unevaluatedItems", "unevaluatedProperties", "contentSchema"] then .schema
  else if k ∈ ["allOf", "anyOf", "oneOf", "prefixItems"] then .schemas
  else if k ∈ ["properties", "patternProperties", "dependentSchemas"] then .named
  else .data

/-- Definitions and annotations accept every value. -/
def ignored (k : String) : Bool :=
  k ∈ ["$defs", "definitions", "$schema", "$comment", "title", "description", "default",
    "examples", "deprecated", "readOnly", "writeOnly"]

def keywords (fields : List (String × Json)) : List (String × Json) :=
  fields.filter fun f => !ignored f.1

def isSchema : Json → Bool
  | .obj _ => true
  | .bool _ => true
  | _ => false

/-- The reference leads to a place of the same document. -/
def isLocal (ref : String) : Bool := ref.toList.head? = some '#'

/-- The value has no subschema, as a value of the keyword. -/
def isData (k : String) (v : Json) : Bool :=
  match keywordKind k, v with
  | .reference, .str ref => !isLocal ref
  | .schema, _ => false
  | .schemas, .arr _ => false
  | .named, .obj _ => false
  | _, _ => true

/-- The value at a path of keys and indices. -/
def atPath : Json → List String → Option Json
  | v, [] => some v
  | .obj fields, key :: path => (fields.lookup key).bind fun v => atPath v path
  | .arr vs, key :: path => (key.toNat?.bind fun i => vs[i]?).bind fun v => atPath v path
  | _, _ :: _ => none

@[simp] lemma atPath_nil (v : Json) : atPath v [] = some v := by
  cases v <;> rfl

/-! ### Semantics -/

/-- The value of a keyword with the meanings of its subschemas. -/
inductive KeywordValue (D : Type*) where
  | data (v : Json)
  | schema (d : D)
  | schemas (ds : List D)
  | named (ds : List (String × D))

/-- `leaf` is the meaning of a boolean schema, `node` the one of an object with these keywords, and
`pointer` reads a local reference as a path from the root. -/
structure Semantics (D : Type*) where
  leaf : Bool → D
  node : List (String × KeywordValue D) → D
  holds : D → Json → Prop
  pointer : String → Option (List String)
  node_ref : ∀ d, node [("$ref", .schema d)] = d

variable {D : Type*}

def Semantics.resolve (sem : Semantics D) (root : Json) (ref : String) : Option Json :=
  ((sem.pointer ref).bind (atPath root)).filter isSchema

def keywordValue (res : String → Option Json) (m : Json → Option D) (k : String) (v : Json) :
    Option (KeywordValue D) :=
  match keywordKind k, v with
  | .reference, .str ref =>
    if isLocal ref then ((res ref).bind m).map .schema else some (.data (.str ref))
  | .schema, v => (m v).map .schema
  | .schemas, .arr vs => (vs.mapM m).map .schemas
  | .named, .obj fields => (fields.mapM fun f => (m f.2).map (f.1, ·)).map .named
  | _, v => some (.data v)

/-- The meaning of a schema, as far as at most `n` levels of subschemas and references are
followed. -/
def Semantics.meaning (sem : Semantics D) (root : Json) : (n : ℕ) → Json → Option D
  | 0, _ => none
  | n + 1, .obj fields =>
    ((keywords fields).mapM fun f =>
      (keywordValue (sem.resolve root) (sem.meaning root n) f.1 f.2).map (f.1, ·)).map sem.node
  | _ + 1, .bool b => some (sem.leaf b)
  | _ + 1, _ => none

/-- The schema, a document of its own, accepts the value. -/
def Semantics.Accepts (sem : Semantics D) (root v : Json) : Prop :=
  ∃ n d, sem.meaning root n root = some d ∧ sem.holds d v

/-! ### Schemas with the same meaning -/

lemma mapM_eq_some_of_forall₂ {α β γ : Type*} {R : α → β → Prop} {f : α → Option γ}
    {g : β → Option γ} (hR : ∀ a b c, R a b → f a = some c → g b = some c) {as : List α}
    {bs : List β} (h : List.Forall₂ R as bs) {cs : List γ} (hf : as.mapM f = some cs) :
    bs.mapM g = some cs := by
  induction h generalizing cs with
  | nil => exact hf
  | cons hab _ ih =>
    rw [List.mapM_cons] at hf ⊢
    obtain ⟨c, hc, hf⟩ := Option.bind_eq_some_iff.mp hf
    obtain ⟨cs', hcs, hf⟩ := Option.bind_eq_some_iff.mp hf
    rw [hR _ _ c hab hc, ih hcs]
    exact hf

/-- The two values of a keyword agree up to subschemas that are related by `R`. -/
inductive Corresponds (R : Json → Json → Prop) (res res' : String → Option Json) (k : String) :
    Json → Json → Prop where
  | data (v : Json) : isData k v → Corresponds R res res' k v v
  | resolved (ref : String) (t t' : Json) : keywordKind k = .reference → isLocal ref →
      res ref = some t → res' ref = some t' → R t t' →
        Corresponds R res res' k (.str ref) (.str ref)
  | unresolved (ref : String) : keywordKind k = .reference → isLocal ref → res ref = none →
      res' ref = none → Corresponds R res res' k (.str ref) (.str ref)
  | schema (v v' : Json) : keywordKind k = .schema → R v v' → Corresponds R res res' k v v'
  | schemas (vs vs' : List Json) : keywordKind k = .schemas → List.Forall₂ R vs vs' →
      Corresponds R res res' k (.arr vs) (.arr vs')
  | named (fields fields' : List (String × Json)) : keywordKind k = .named →
      List.Forall₂ (fun f f' => f.1 = f'.1 ∧ R f.2 f'.2) fields fields' →
        Corresponds R res res' k (.obj fields) (.obj fields')

variable {R : Json → Json → Prop} {res res' : String → Option Json} {k : String} {v v' : Json}

lemma Corresponds.symm {R' : Json → Json → Prop} (hR : ∀ a b, R a b → R' b a)
    (h : Corresponds R res res' k v v') : Corresponds R' res' res k v' v := by
  cases h with
  | data v hdata => exact .data v hdata
  | resolved ref t t' hkind hlocal ht ht' h =>
    exact .resolved ref t' t hkind hlocal ht' ht (hR _ _ h)
  | unresolved ref hkind hlocal h h' => exact .unresolved ref hkind hlocal h' h
  | schema v v' hkind h => exact .schema v' v hkind (hR _ _ h)
  | schemas vs vs' hkind h => exact .schemas vs' vs hkind (h.flip.imp fun _ _ => hR _ _)
  | named fields fields' hkind h =>
    refine .named fields' fields hkind (h.flip.imp ?_)
    rintro f f' ⟨hkey, h⟩
    exact ⟨hkey.symm, hR _ _ h⟩

lemma keywordValue_of_isData (m : Json → Option D) (h : isData k v) :
    keywordValue res m k v = some (.data v) := by
  cases hkind : keywordKind k with
  | reference => cases v <;> simp_all [isData, keywordValue]
  | schema => simp [isData, hkind] at h
  | schemas => cases v <;> simp_all [isData, keywordValue]
  | named => cases v <;> simp_all [isData, keywordValue]
  | data => simp [keywordValue, hkind]

/-- What is not data has subschemas, or is a reference to one. -/
lemma cases_of_not_isData (h : ¬isData k v) :
    (∃ ref, keywordKind k = .reference ∧ v = .str ref ∧ isLocal ref) ∨
      keywordKind k = .schema ∨ (∃ vs, keywordKind k = .schemas ∧ v = .arr vs) ∨
        ∃ fields, keywordKind k = .named ∧ v = .obj fields := by
  cases hkind : keywordKind k with
  | reference => cases v <;> simp_all [isData]
  | schema => exact .inr (.inl rfl)
  | schemas => cases v <;> simp_all [isData]
  | named => cases v <;> simp_all [isData]
  | data => simp [isData, hkind] at h

/-- Values that correspond mean the same. -/
lemma keywordValue_of_corresponds {m m' : Json → Option D}
    (hR : ∀ a b d, R a b → m a = some d → m' b = some d) (h : Corresponds R res res' k v v')
    {x : KeywordValue D} (hx : keywordValue res m k v = some x) :
    keywordValue res' m' k v' = some x := by
  cases h with
  | data v hdata => rwa [keywordValue_of_isData _ hdata] at hx ⊢
  | resolved ref t t' hkind hlocal ht ht' h =>
    simp only [keywordValue, hkind, if_pos hlocal, ht, ht', Option.bind_some] at hx ⊢
    obtain ⟨d, hd, rfl⟩ := Option.map_eq_some_iff.mp hx
    rw [hR t t' d h hd, Option.map_some]
  | unresolved ref hkind hlocal h h' =>
    simp only [keywordValue, hkind, if_pos hlocal, h, Option.bind_none, Option.map_none] at hx
    cases hx
  | schema v v' hkind h =>
    simp only [keywordValue, hkind] at hx ⊢
    obtain ⟨d, hd, rfl⟩ := Option.map_eq_some_iff.mp hx
    rw [hR v v' d h hd, Option.map_some]
  | schemas vs vs' hkind h =>
    simp only [keywordValue, hkind] at hx ⊢
    obtain ⟨ds, hds, rfl⟩ := Option.map_eq_some_iff.mp hx
    rw [mapM_eq_some_of_forall₂ hR h hds, Option.map_some]
  | named fields fields' hkind h =>
    simp only [keywordValue, hkind] at hx ⊢
    obtain ⟨ds, hds, rfl⟩ := Option.map_eq_some_iff.mp hx
    rw [mapM_eq_some_of_forall₂ ?_ h hds, Option.map_some]
    rintro f f' x ⟨hkey, h⟩ hx
    obtain ⟨d, hd, rfl⟩ := Option.map_eq_some_iff.mp hx
    rw [hR _ _ d h hd, Option.map_some, hkey]

/-- The rule for objects: keywords that correspond give the same meaning. -/
lemma meaning_of_corresponds {sem : Semantics D} {root root' : Json} {n n' : ℕ}
    (hR : ∀ a b d, R a b → sem.meaning root n a = some d → sem.meaning root' n' b = some d)
    {fields fields' : List (String × Json)}
    (h : List.Forall₂ (fun f f' => f.1 = f'.1 ∧
      Corresponds R (sem.resolve root) (sem.resolve root') f.1 f.2 f'.2)
        (keywords fields) (keywords fields')) {d : D}
    (hd : sem.meaning root (n + 1) (.obj fields) = some d) :
    sem.meaning root' (n' + 1) (.obj fields') = some d := by
  rw [Semantics.meaning] at hd ⊢
  obtain ⟨parts, hparts, rfl⟩ := Option.map_eq_some_iff.mp hd
  rw [mapM_eq_some_of_forall₂ ?_ h hparts, Option.map_some]
  rintro f f' x ⟨hkey, h⟩ hx
  obtain ⟨p, hp, rfl⟩ := Option.map_eq_some_iff.mp hx
  rw [← hkey, keywordValue_of_corresponds hR h hp, Option.map_some]

lemma corresponds_self (res : String → Option Json) (k : String) (v : Json) :
    Corresponds Eq res res k v v := by
  by_cases hdata : isData k v
  · exact .data v hdata
  rcases cases_of_not_isData hdata with ⟨ref, hkind, rfl, hlocal⟩ | hkind | ⟨vs, hkind, rfl⟩ |
    ⟨fields, hkind, rfl⟩
  · cases href : res ref with
    | none => exact .unresolved ref hkind hlocal href href
    | some t => exact .resolved ref t t hkind hlocal href href rfl
  · exact .schema v v hkind rfl
  · exact .schemas vs vs hkind (List.forall₂_same.mpr fun _ _ => rfl)
  · exact .named fields fields hkind (List.forall₂_same.mpr fun _ _ => ⟨rfl, rfl⟩)

lemma meaning_succ {sem : Semantics D} {root s : Json} {n : ℕ} {d : D}
    (h : sem.meaning root n s = some d) : sem.meaning root (n + 1) s = some d := by
  induction n generalizing s d with
  | zero => cases h
  | succ n ih =>
    cases s with
    | obj fields =>
      refine meaning_of_corresponds (R := Eq) ?_ ?_ h
      · rintro a _ d rfl ha
        exact ih ha
      · exact List.forall₂_same.mpr fun f _ => ⟨rfl, corresponds_self _ _ _⟩
    | _ => exact h

/-- A reference that stands alone means the schema that it leads to. -/
lemma meaning_of_alone {sem : Semantics D} {root t : Json} {fields : List (String × Json)}
    {ref : String} (halone : keywords fields = [("$ref", .str ref)]) (hlocal : isLocal ref)
    (ht : sem.resolve root ref = some t) (n : ℕ) :
    sem.meaning root (n + 1) (.obj fields) = sem.meaning root n t := by
  have hkind : keywordKind "$ref" = .reference := rfl
  rw [Semantics.meaning, halone]
  simp only [List.mapM_cons, List.mapM_nil, keywordValue, hkind, if_pos hlocal, ht,
    Option.bind_some]
  cases hd : sem.meaning root n t with
  | none => rfl
  | some d =>
    show some (sem.node [("$ref", .schema d)]) = some d
    rw [sem.node_ref]

/-! ### The schemas of a document -/

/-- The value of the keyword has this subschema. -/
inductive Subschema (k : String) : Json → Json → Prop where
  | schema (v : Json) : keywordKind k = .schema → Subschema k v v
  | schemas (vs : List Json) (v : Json) : keywordKind k = .schemas → v ∈ vs →
      Subschema k (.arr vs) v
  | named (fields : List (String × Json)) (f : String × Json) : keywordKind k = .named →
      f ∈ fields → Subschema k (.obj fields) f.2

lemma Subschema.not_isData {s : Json} (h : Subschema k v s) : ¬isData k v := by
  cases h with
  | schema v hkind => simp [isData, hkind]
  | schemas vs v hkind hv => simp [isData, hkind]
  | named fields f hkind hf => simp [isData, hkind]

/-- The values that are read as schemas. -/
inductive InUse (sem : Semantics D) (root : Json) : Json → Prop where
  | root : InUse sem root root
  | subschema (fields : List (String × Json)) (f : String × Json) (s : Json) :
      InUse sem root (.obj fields) → f ∈ keywords fields → Subschema f.1 f.2 s → InUse sem root s
  | target (fields : List (String × Json)) (ref : String) (t : Json) :
      InUse sem root (.obj fields) → ("$ref", .str ref) ∈ keywords fields → isLocal ref →
        sem.resolve root ref = some t → InUse sem root t

end Arbeiterfarm.JsonSchema
