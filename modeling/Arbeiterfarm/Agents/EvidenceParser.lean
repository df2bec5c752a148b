import Arbeiterfarm.Core.Evidence

/-!
# Verification of evidence references

The references in the final text of an agent are looked up, each kind by a branch of its own. The
branch of messages looks nothing up.
-/

namespace Arbeiterfarm.Agents

/-- A verified reference. -/
structure VerifiedEvidence where
  ref_type : String
  ref_id : Uuid
  deriving DecidableEq

/-- What lookups find: the project of an artifact, of a tool run, and, through its thread, of a
message; and whether the query of a resolver finds a row for a record and a project. -/
structure EvidenceDb where
  artifacts : Uuid → Option Uuid
  tool_runs : Uuid → Option Uuid
  messages : Uuid → Option Uuid
  rows : String → Uuid → Uuid → Bool

/-- The punctuation that is stripped from a word. -/
def isSurrounding (c : Char) : Bool := c ∈ "`'\",.".toList

section Verify

variable (parseUuid : String → Option Uuid) (db : EvidenceDb) (project_id : Uuid)
  (evidence_resolvers : Option EvidenceResolverRegistry)

/-- A lookup of the project of a record; `down` says that the database does not answer. -/
def verifyRecord (down : Bool) (found : Option Uuid) (ref_type : String) (id : Uuid) :
    Option VerifiedEvidence :=
  if down = false ∧ found = some project_id then some ⟨ref_type, id⟩ else none

def verifyRef (down : Bool) : EvidenceRef → Option VerifiedEvidence
  | .artifact id => verifyRecord project_id down (db.artifacts id) "artifact" id
  | .toolRun id  => verifyRecord project_id down (db.tool_runs id) "tool_run" id
  | .message id  => some ⟨"message", id⟩
  | .plugin ns kind id => do
    let resolvers ← evidence_resolvers
    let _ ← resolvers.resolve ns kind id
    let ref_id ← parseUuid id
    let ref_type := "plugin:" ++ ns ++ ":" ++ kind
    match resolvers.existenceQuery ns kind with
    | some sql =>
      if down = false ∧ db.rows sql ref_id project_id then some ⟨ref_type, ref_id⟩ else none
    | none => some ⟨ref_type, ref_id⟩

/-- Word `i` is looked up while the database is `down i`. -/
def parseAndVerify (down : ℕ → Bool) (content : List Char) : List VerifiedEvidence :=
  (splitWhitespace content).zipIdx.filterMap fun (word, i) => do
    let evidence_ref ← EvidenceRef.parse parseUuid (trimMatches isSurrounding word)
    verifyRef parseUuid db project_id evidence_resolvers (down i) evidence_ref

end Verify

/-! ### Records -/

variable (db : EvidenceDb) (project_id : Uuid)
  (evidence_resolvers : Option EvidenceResolverRegistry)

/-- The existence of such records can be checked. -/
def Checked : RefType → Prop
  | .plugin ns kind =>
    ∃ resolvers, evidence_resolvers = some resolvers ∧ (resolvers.existenceQuery ns kind).isSome
  | _ => True

/-- The record exists and belongs to the project. -/
def InProject : RefType → Uuid → Prop
  | .artifact, id => db.artifacts id = some project_id
  | .toolRun, id  => db.tool_runs id = some project_id
  | .message, id  => db.messages id = some project_id
  | .plugin ns kind, id =>
    ∃ resolvers sql, evidence_resolvers = some resolvers ∧
      resolvers.existenceQuery ns kind = some sql ∧ db.rows sql id project_id

/-- The resolver of the plugin accepts the reference. -/
def Resolves (evidence_resolvers : Option EvidenceResolverRegistry) : EvidenceRef → Prop
  | .plugin ns kind id =>
    ∃ resolvers, evidence_resolvers = some resolvers ∧ (resolvers.resolve ns kind id).isSome
  | _ => True

/-! ### What is returned -/

section Verified

variable {parseUuid : String → Option Uuid} {db : EvidenceDb} {project_id : Uuid}
  {evidence_resolvers : Option EvidenceResolverRegistry}

/-- What a branch requires of a record before it is returned. -/
def Passes (db : EvidenceDb) (project_id : Uuid)
    (evidence_resolvers : Option EvidenceResolverRegistry) (down : Bool) (type : RefType)
    (id : Uuid) : Prop :=
  type = .message ∨ ¬ Checked evidence_resolvers type ∨
    down = false ∧ InProject db project_id evidence_resolvers type id

lemma some_eq_some_iff {ref_type : String} {id : Uuid} {v : VerifiedEvidence} :
    some ⟨ref_type, id⟩ = some v ↔ v.ref_type = ref_type ∧ v.ref_id = id := by
  obtain ⟨v_type, v_id⟩ := v
  simp [eq_comm]

lemma verifyRecord_eq_some_iff {down : Bool} {found : Option Uuid} {ref_type : String}
    {id : Uuid} {v : VerifiedEvidence} :
    verifyRecord project_id down found ref_type id = some v ↔
      v.ref_type = ref_type ∧ v.ref_id = id ∧ down = false ∧ found = some project_id := by
  simp only [verifyRecord]
  split_ifs with h
  · rw [some_eq_some_iff]
    simp [h]
  · simp [h]

lemma passes_of_checked {down : Bool} {type : RefType} {id : Uuid} (hmessage : type ≠ .message)
    (hchecked : Checked evidence_resolvers type) :
    Passes db project_id evidence_resolvers down type id ↔
      down = false ∧ InProject db project_id evidence_resolvers type id := by
  simp [Passes, hmessage, hchecked]

/-- A reference that the resolver accepts is looked up if the resolver has a query. -/
lemma verifyRef_plugin_iff {resolvers : EvidenceResolverRegistry} {down : Bool}
    {ns kind id described : String} {ref_id : Uuid} {v : VerifiedEvidence}
    (hresolve : resolvers.resolve ns kind id = some described) (hid : parseUuid id = some ref_id) :
    verifyRef parseUuid db project_id (some resolvers) down (.plugin ns kind id) = some v ↔
      Resolves (some resolvers) (.plugin ns kind id) ∧
        v.ref_type = (RefType.plugin ns kind).text ∧
        (EvidenceRef.plugin ns kind id).refId parseUuid = some v.ref_id ∧
        Passes db project_id (some resolvers) down (.plugin ns kind) v.ref_id := by
  have hresolves : Resolves (some resolvers) (.plugin ns kind id) :=
    ⟨resolvers, rfl, by rw [hresolve]; rfl⟩
  simp only [hresolves, EvidenceRef.refId, hid, Option.some.injEq, true_and]
  cases hquery : resolvers.existenceQuery ns kind with
  | none =>
    have hpasses : ∀ id', Passes db project_id (some resolvers) down (.plugin ns kind) id' :=
      fun _ => .inr (.inl (by simp [Checked, hquery]))
    simp only [verifyRef, Option.bind_eq_bind, Option.bind_some, hresolve, hid, hquery]
    rw [some_eq_some_iff]
    constructor
    · rintro ⟨htype, rfl⟩
      exact ⟨htype, rfl, hpasses _⟩
    · rintro ⟨htype, rfl, -⟩
      exact ⟨htype, rfl⟩
  | some sql =>
    have hchecked : Checked (some resolvers) (.plugin ns kind) :=
      ⟨resolvers, rfl, by rw [hquery]; rfl⟩
    have hrows : ∀ id', InProject db project_id (some resolvers) (.plugin ns kind) id' ↔
        db.rows sql id' project_id := by
      simp [InProject, hquery]
    simp only [verifyRef, Option.bind_eq_bind, Option.bind_some, hresolve, hid, hquery]
    rw [passes_of_checked (by rintro ⟨⟩) hchecked, hrows]
    split_ifs with hanswers
    · rw [some_eq_some_iff]
      constructor
      · rintro ⟨htype, rfl⟩
        exact ⟨htype, rfl, hanswers⟩
      · rintro ⟨htype, rfl, -⟩
        exact ⟨htype, rfl⟩
    · constructor
      · intro h
        cases h
      · rintro ⟨-, rfl, hanswers'⟩
        exact absurd hanswers' hanswers

lemma verifyRef_eq_some_iff {down : Bool} {ref : EvidenceRef} {v : VerifiedEvidence} :
    verifyRef parseUuid db project_id evidence_resolvers down ref = some v ↔
      Resolves evidence_resolvers ref ∧ v.ref_type = ref.refType.text ∧
        ref.refId parseUuid = some v.ref_id ∧
        Passes db project_id evidence_resolvers down ref.refType v.ref_id := by
  cases ref with
  | artifact id | toolRun id =>
    simp only [verifyRef, EvidenceRef.refType, EvidenceRef.refId, Resolves, true_and]
    rw [verifyRecord_eq_some_iff, passes_of_checked (by rintro ⟨⟩) (by trivial)]
    constructor
    · rintro ⟨htype, hid, hanswers⟩
      exact ⟨htype, congrArg some hid.symm, hid ▸ hanswers⟩
    · rintro ⟨htype, hid, hanswers⟩
      cases hid
      exact ⟨htype, rfl, hanswers⟩
  | message id =>
    simp only [verifyRef, EvidenceRef.refType, EvidenceRef.refId, Resolves, Passes, RefType.text,
      true_and, true_or, and_true]
    rw [some_eq_some_iff, Option.some_inj, eq_comm (a := id)]
  | plugin ns kind id =>
    cases evidence_resolvers with
    | none => simp [verifyRef, Resolves]
    | some resolvers =>
      cases hresolve : resolvers.resolve ns kind id with
      | none => simp [verifyRef, Resolves, hresolve]
      | some described =>
        cases hid : parseUuid id with
        | none => simp [verifyRef, EvidenceRef.refId, hid]
        | some ref_id =>
          exact verifyRef_plugin_iff hresolve hid

/-- Word `i` of the text is the reference, up to the punctuation around it. -/
def Mentions (parseUuid : String → Option Uuid) (content : List Char) (i : ℕ)
    (ref : EvidenceRef) : Prop :=
  ∃ word s, (splitWhitespace content)[i]? = some word ∧ Surrounds isSurrounding word s ∧
    EvidenceRef.Denotes parseUuid s ref

variable {down : ℕ → Bool} {content : List Char}

lemma mentions_iff {i : ℕ} {ref : EvidenceRef} :
    Mentions parseUuid content i ref ↔
      ∃ word, (splitWhitespace content)[i]? = some word ∧
        EvidenceRef.parse parseUuid (trimMatches isSurrounding word) = some ref := by
  constructor
  · rintro ⟨word, s, hword, hsurrounds, hdenotes⟩
    have hne : s ≠ [] := by
      rintro rfl
      have := (EvidenceRef.parse_eq_some_iff parseUuid).mpr hdenotes
      simp [EvidenceRef.parse, stripPrefix] at this
    refine ⟨word, hword, ?_⟩
    rw [hsurrounds.trimMatches_eq hne]
    exact (EvidenceRef.parse_eq_some_iff parseUuid).mpr hdenotes
  · rintro ⟨word, hword, hparse⟩
    exact ⟨word, _, hword, surrounds_trimMatches _ _,
      (EvidenceRef.parse_eq_some_iff parseUuid).mp hparse⟩

lemma Mentions.separable {i : ℕ} {ref : EvidenceRef} (h : Mentions parseUuid content i ref) :
    ref.refType.Separable := by
  obtain ⟨word, -, hparse⟩ := mentions_iff.mp h
  exact EvidenceRef.separable_refType hparse

lemma mem_parseAndVerify_iff {v : VerifiedEvidence} :
    v ∈ parseAndVerify parseUuid db project_id evidence_resolvers down content ↔
      ∃ i ref, Mentions parseUuid content i ref ∧ Resolves evidence_resolvers ref ∧
        v.ref_type = ref.refType.text ∧ ref.refId parseUuid = some v.ref_id ∧
        Passes db project_id evidence_resolvers (down i) ref.refType v.ref_id := by
  simp only [parseAndVerify, List.mem_filterMap, Prod.exists, List.mem_zipIdx_iff_getElem?,
    Option.bind_eq_bind, Option.bind_eq_some_iff, verifyRef_eq_some_iff, mentions_iff]
  constructor
  · rintro ⟨word, i, hword, ref, hparse, hverified⟩
    exact ⟨i, ref, ⟨word, hword, hparse⟩, hverified⟩
  · rintro ⟨i, ref, ⟨word, hword, hparse⟩, hverified⟩
    exact ⟨word, i, hword, ref, hparse, hverified⟩

variable (parseUuid db project_id evidence_resolvers down content)

/-- What is returned exists in the project, if the existence of such records can be checked, and
what is mentioned and exists in the project is returned. -/
structure VerifiesRecords : Prop where
  sound : ∀ v ∈ parseAndVerify parseUuid db project_id evidence_resolvers down content,
    ∀ type : RefType, type.Separable → v.ref_type = type.text → Checked evidence_resolvers type →
      InProject db project_id evidence_resolvers type v.ref_id
  complete : ∀ i ref id, Mentions parseUuid content i ref → ref.refId parseUuid = some id →
    Checked evidence_resolvers ref.refType →
    InProject db project_id evidence_resolvers ref.refType id →
    ⟨ref.refType.text, id⟩ ∈
      parseAndVerify parseUuid db project_id evidence_resolvers down content

/-- Every message that is mentioned is one of the project; and of any other record of the project
that is mentioned, some mention is accepted by its resolver and looked up with success. -/
structure Verifiable : Prop where
  messages : ∀ i id, Mentions parseUuid content i (.message id) → db.messages id = some project_id
  answered : ∀ i ref id, Mentions parseUuid content i ref → ref.refId parseUuid = some id →
    ref.refType ≠ .message → Checked evidence_resolvers ref.refType →
    InProject db project_id evidence_resolvers ref.refType id →
    ∃ j ref', Mentions parseUuid content j ref' ∧ ref'.refType = ref.refType ∧
      ref'.refId parseUuid = some id ∧ Resolves evidence_resolvers ref' ∧ down j = false

/-- The branch of messages trusts every reference, and the other branches look records up. -/
theorem verifiesRecords_iff_verifiable :
    VerifiesRecords parseUuid db project_id evidence_resolvers down content ↔
      Verifiable parseUuid db project_id evidence_resolvers down content := by
  constructor
  · rintro ⟨hsound, hcomplete⟩
    refine ⟨?_, ?_⟩
    · intro i id hmentions
      refine hsound ⟨"message", id⟩ ?_ .message trivial rfl trivial
      exact mem_parseAndVerify_iff.mpr ⟨i, _, hmentions, trivial, rfl, rfl, .inl rfl⟩
    · intro i ref id hmentions hid hmessage hchecked hproject
      obtain ⟨j, ref', hmentions', hresolves, htext, hid', hpasses⟩ :=
        mem_parseAndVerify_iff.mp (hcomplete i ref id hmentions hid hchecked hproject)
      have htype := RefType.text_injective hmentions.separable hmentions'.separable htext
      rw [← htype, passes_of_checked hmessage hchecked] at hpasses
      exact ⟨j, ref', hmentions', htype.symm, hid', hresolves, hpasses.1⟩
  · rintro ⟨hmessages, hanswered⟩
    refine ⟨?_, ?_⟩
    · intro v hv type hseparable htext hchecked
      obtain ⟨i, ref, hmentions, hresolves, htext', hid, hpasses⟩ := mem_parseAndVerify_iff.mp hv
      obtain rfl := RefType.text_injective hseparable hmentions.separable (htext.symm.trans htext')
      rcases hpasses with hmessage | hunchecked | hfound
      · cases ref with
        | message id =>
          cases hid
          exact hmessages i _ hmentions
        | artifact id | toolRun id | plugin ns kind id => cases hmessage
      · exact absurd hchecked hunchecked
      · exact hfound.2
    · intro i ref id hmentions hid hchecked hproject
      rw [mem_parseAndVerify_iff]
      cases ref with
      | message id' => exact ⟨i, _, hmentions, trivial, rfl, hid, .inl rfl⟩
      | artifact id' | toolRun id' | plugin ns kind id' =>
        obtain ⟨j, ref', hmentions', htype, hid', hresolves, hdown⟩ :=
          hanswered i _ id hmentions hid (by rintro ⟨⟩) hchecked hproject
        refine ⟨j, ref', hmentions', hresolves, by rw [htype], hid', ?_⟩
        rw [htype]
        exact .inr (.inr ⟨hdown, hproject⟩)

end Verified

/-- A message that is not there is returned as verified. -/
theorem not_verifiesRecords_missingMessage :
    ¬ VerifiesRecords (fun s => if s = "6f9619ff-8b86-d011-b42d-00cf4fc964ff" then some 7 else none)
      ⟨fun _ => none, fun _ => none, fun _ => none, fun _ _ _ => false⟩ 1 none (fun _ => false)
      "See evidence:message:6f9619ff-8b86-d011-b42d-00cf4fc964ff.".toList := by
  intro h
  have := h.sound ⟨"message", 7⟩ (by decide +kernel) .message trivial rfl trivial
  cases this

end Arbeiterfarm.Agents
