import Arbeiterfarm.Core.Json
import Arbeiterfarm.Core.Text

/-!
# Evidence references

A reference to a record, as it is written in a message, and the resolvers that plugins register
for references of their own.
-/

namespace Arbeiterfarm

/-- A reference to a piece of evidence. -/
inductive EvidenceRef where
  | artifact (id : Uuid)
  | toolRun (id : Uuid)
  | message (id : Uuid)
  | plugin (namespace_ kind id : String)
  deriving DecidableEq, Repr

namespace EvidenceRef

section Parse

variable (parseUuid : String → Option Uuid)

/-- The two parts after the prefix. -/
def ofParts (ns rest : List Char) : Option EvidenceRef :=
  if ns = "artifact".toList then (parseUuid (String.ofList rest)).map .artifact
  else if ns = "tool_run".toList then (parseUuid (String.ofList rest)).map .toolRun
  else if ns = "message".toList then (parseUuid (String.ofList rest)).map .message
  else (splitAround [':'] rest).map fun (kind, id) =>
    .plugin (String.ofList ns) (String.ofList kind) (String.ofList id)

def parse (s : List Char) : Option EvidenceRef := do
  let (ns, rest) ← splitAround [':'] (← stripPrefix "evidence:".toList s)
  ofParts parseUuid ns rest

def toInline (printUuid : Uuid → String) : EvidenceRef → List Char
  | .artifact id => "evidence:".toList ++ ("artifact".toList ++ ':' :: (printUuid id).toList)
  | .toolRun id  => "evidence:".toList ++ ("tool_run".toList ++ ':' :: (printUuid id).toList)
  | .message id  => "evidence:".toList ++ ("message".toList ++ ':' :: (printUuid id).toList)
  | .plugin namespace_ kind id =>
    "evidence:".toList ++ (namespace_.toList ++ ':' :: (kind.toList ++ ':' :: id.toList))

/-- The grammar of a reference. -/
inductive Denotes : List Char → EvidenceRef → Prop
  | artifact {text : String} {id : Uuid} : parseUuid text = some id →
      Denotes ("evidence:".toList ++ ("artifact".toList ++ ':' :: text.toList)) (.artifact id)
  | toolRun {text : String} {id : Uuid} : parseUuid text = some id →
      Denotes ("evidence:".toList ++ ("tool_run".toList ++ ':' :: text.toList)) (.toolRun id)
  | message {text : String} {id : Uuid} : parseUuid text = some id →
      Denotes ("evidence:".toList ++ ("message".toList ++ ':' :: text.toList)) (.message id)
  | plugin {namespace_ kind id : String} : namespace_ ∉ ["artifact", "tool_run", "message"] →
      ':' ∉ namespace_.toList → ':' ∉ kind.toList →
      Denotes ("evidence:".toList ++
        (namespace_.toList ++ ':' :: (kind.toList ++ ':' :: id.toList)))
          (.plugin namespace_ kind id)

lemma parse_append {ns : List Char} (h : ':' ∉ ns) (rest : List Char) :
    parse parseUuid ("evidence:".toList ++ (ns ++ ':' :: rest)) = ofParts parseUuid ns rest := by
  rw [parse, stripPrefix_eq_some_iff.mpr rfl]
  simp only [Option.bind_eq_bind, Option.bind_some]
  rw [splitAround_singleton_iff.mpr ⟨rfl, h⟩]
  rfl

lemma exists_of_parse {s : List Char} {ref : EvidenceRef} (h : parse parseUuid s = some ref) :
    ∃ ns rest, s = "evidence:".toList ++ (ns ++ ':' :: rest) ∧ ':' ∉ ns ∧
      ofParts parseUuid ns rest = some ref := by
  simp only [parse, Option.bind_eq_bind, Option.bind_eq_some_iff] at h
  obtain ⟨after, hprefix, ⟨ns, rest⟩, hsplit, hparts⟩ := h
  obtain ⟨rfl, hns⟩ := splitAround_singleton_iff.mp hsplit
  exact ⟨ns, rest, stripPrefix_eq_some_iff.mp hprefix, hns, hparts⟩

lemma exists_toList_eq (cs : List Char) : ∃ s : String, s.toList = cs :=
  ⟨String.ofList cs, String.toList_ofList⟩

theorem parse_eq_some_iff {s : List Char} {ref : EvidenceRef} :
    parse parseUuid s = some ref ↔ Denotes parseUuid s ref := by
  constructor
  · intro h
    obtain ⟨ns, rest, rfl, hns, hparts⟩ := exists_of_parse parseUuid h
    obtain ⟨ns, rfl⟩ := exists_toList_eq ns
    obtain ⟨rest, rfl⟩ := exists_toList_eq rest
    simp only [ofParts, String.toList_inj, String.ofList_toList] at hparts
    split_ifs at hparts with hartifact htool hmessage
    · obtain ⟨id, hid, rfl⟩ := Option.map_eq_some_iff.mp hparts
      exact hartifact ▸ .artifact hid
    · obtain ⟨id, hid, rfl⟩ := Option.map_eq_some_iff.mp hparts
      exact htool ▸ .toolRun hid
    · obtain ⟨id, hid, rfl⟩ := Option.map_eq_some_iff.mp hparts
      exact hmessage ▸ .message hid
    · obtain ⟨⟨kind, id⟩, hsplit, rfl⟩ := Option.map_eq_some_iff.mp hparts
      obtain ⟨hrest, hkind⟩ := splitAround_singleton_iff.mp hsplit
      have hreserved : ns ∉ ["artifact", "tool_run", "message"] := by
        simp only [List.mem_cons, List.not_mem_nil, or_false, not_or]
        exact ⟨hartifact, htool, hmessage⟩
      obtain ⟨kind, rfl⟩ := exists_toList_eq kind
      obtain ⟨id, rfl⟩ := exists_toList_eq id
      simp only [String.ofList_toList]
      exact hrest ▸ .plugin hreserved hns hkind
  · intro h
    cases h with
    | artifact hid | toolRun hid | message hid =>
      rw [parse_append _ (by decide)]
      simp [ofParts, hid]
    | plugin hreserved hns hkind =>
      rw [parse_append _ hns]
      simp only [List.mem_cons, List.not_mem_nil, or_false, not_or] at hreserved
      simp only [ofParts, String.toList_inj, String.ofList_toList]
      rw [if_neg hreserved.1, if_neg hreserved.2.1, if_neg hreserved.2.2,
        splitAround_singleton_iff.mpr ⟨rfl, hkind⟩]
      simp only [Option.map_some, String.ofList_toList]

/-- A written reference is read back, if the parts of a plugin's can be told apart. -/
lemma parse_toInline {printUuid : Uuid → String}
    (hprint : ∀ id, parseUuid (printUuid id) = some id) {ref : EvidenceRef}
    (href : ∀ ns kind id, ref = .plugin ns kind id →
      ns ∉ ["artifact", "tool_run", "message"] ∧ ':' ∉ ns.toList ∧ ':' ∉ kind.toList) :
    parse parseUuid (ref.toInline printUuid) = some ref := by
  rw [parse_eq_some_iff]
  cases ref with
  | artifact id => exact .artifact (hprint id)
  | toolRun id => exact .toolRun (hprint id)
  | message id => exact .message (hprint id)
  | plugin ns kind id =>
    obtain ⟨hreserved, hns, hkind⟩ := href ns kind id rfl
    exact .plugin hreserved hns hkind

end Parse

end EvidenceRef

/-! ### Kinds of records -/

/-- The kind of record that a reference is to. -/
inductive RefType where
  | artifact | toolRun | message
  | plugin (namespace_ kind : String)

namespace RefType

/-- How the kind is written in a verified reference. -/
def text : RefType → String
  | .artifact => "artifact"
  | .toolRun  => "tool_run"
  | .message  => "message"
  | .plugin namespace_ kind => "plugin:" ++ namespace_ ++ ":" ++ kind

/-- The name of a plugin ends at the first colon. -/
def Separable : RefType → Prop
  | .plugin namespace_ _ => ':' ∉ namespace_.toList
  | _ => True

lemma toList_text_plugin (ns kind : String) :
    (RefType.plugin ns kind).text.toList =
      "plugin:".toList ++ (ns.toList ++ ':' :: kind.toList) := by
  simp [text]

lemma text_plugin_ne {ns kind text : String} (h : ¬ ':' ∈ text.toList) :
    (RefType.plugin ns kind).text ≠ text := by
  rintro rfl
  rw [toList_text_plugin] at h
  exact h (List.mem_append_right _ (List.mem_append_right _ List.mem_cons_self))

lemma text_injective {a b : RefType} (ha : a.Separable) (hb : b.Separable)
    (h : a.text = b.text) : a = b := by
  cases a with
  | plugin ns kind =>
    cases b with
    | plugin ns' kind' =>
      have hlists := congrArg String.toList h
      rw [toList_text_plugin, toList_text_plugin] at hlists
      have hsplit := splitAround_singleton_iff.mpr ⟨List.append_cancel_left hlists, hb⟩
      rw [splitAround_singleton_iff.mpr ⟨rfl, ha⟩] at hsplit
      simp only [Option.some.injEq, Prod.mk.injEq, String.toList_inj] at hsplit
      rw [hsplit.1, hsplit.2]
    | artifact | toolRun | message => exact absurd h (text_plugin_ne (by decide +kernel))
  | artifact | toolRun | message =>
    cases b with
    | plugin ns' kind' => exact absurd h.symm (text_plugin_ne (by decide +kernel))
    | artifact | toolRun | message => first | rfl | exact absurd h (by decide +kernel)

end RefType

namespace EvidenceRef

def refType : EvidenceRef → RefType
  | .artifact _ => .artifact
  | .toolRun _  => .toolRun
  | .message _  => .message
  | .plugin namespace_ kind _ => .plugin namespace_ kind

def refId (parseUuid : String → Option Uuid) : EvidenceRef → Option Uuid
  | .artifact id | .toolRun id | .message id => some id
  | .plugin _ _ id => parseUuid id

/-- The kinds of parsed references are told apart by their text. -/
lemma separable_refType {parseUuid : String → Option Uuid} {s : List Char} {ref : EvidenceRef}
    (h : parse parseUuid s = some ref) : ref.refType.Separable := by
  cases (parse_eq_some_iff parseUuid).mp h with
  | artifact _ | toolRun _ | message _ => trivial
  | plugin _ hns _ => exact hns

end EvidenceRef

/-! ### Resolvers -/

/-- Resolves the references of a plugin. -/
structure EvidenceResolver where
  namespace_ : String
  resolve : String → String → Option String
  /-- A query that finds a row if the record exists and belongs to the project. -/
  existence_query : String → Option String

/-- Registry of evidence resolvers. -/
structure EvidenceResolverRegistry where
  resolvers : List EvidenceResolver

namespace EvidenceResolverRegistry

variable (registry : EvidenceResolverRegistry) (namespace_ kind : String)

def resolve (id : String) : Option String :=
  (registry.resolvers.find? fun r => r.namespace_ = namespace_).bind fun r => r.resolve kind id

def existenceQuery : Option String :=
  (registry.resolvers.find? fun r => r.namespace_ = namespace_).bind fun r =>
    r.existence_query kind

end EvidenceResolverRegistry

end Arbeiterfarm
