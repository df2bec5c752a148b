import Arbeiterfarm.Core.Chat
import Arbeiterfarm.Foundation.Linked
import Arbeiterfarm.Llm.Anthropic

/-!
# The contents of a Vertex request

Gemini knows the roles `user` and `model`, and rejects consecutive contents of the same role. Tool
results are contents of the user; consecutive contents of the user are merged.
-/

namespace Arbeiterfarm.Llm

open Foundation

inductive VertexRole where
  | user | model
  deriving DecidableEq, Repr

inductive VertexPart where
  | text (text : String)
  | inlineData (mimeType data : String)
  | functionCall (name : String) (args : Json)
  | functionResponse (name : String) (response : Json)
  deriving DecidableEq, Repr

structure VertexContent where
  role : VertexRole
  parts : List VertexPart
  deriving DecidableEq, Repr

namespace Vertex

section

-- `serde_json::from_str`
variable (parseJson : String → Option Json)

def contentPart : ContentPart → VertexPart
  | .text text => .text text
  | .image data media_type => .inlineData media_type data

def functionCall (tc : ToolCallInfo) : VertexPart := .functionCall tc.name tc.arguments

/-- The value in the content of a tool message; other text is wrapped. -/
def responseVal (content : String) : Json :=
  (parseJson content).getD (.obj [("result", .str content)])

/-- The content for a message; system messages have none. -/
def contentOf (msg : ChatMessage) : Option VertexContent :=
  match msg.role with
  | .system => none
  | .user =>
    if msg.hasParts then some ⟨.user, (msg.content_parts.getD []).map contentPart⟩
    else some ⟨.user, [.text msg.content]⟩
  | .assistant =>
    if msg.tool_calls.isEmpty then some ⟨.model, [.text msg.content]⟩
    else
      let text := if msg.content.isEmpty then [] else [.text msg.content]
      some ⟨.model, text ++ msg.tool_calls.map functionCall⟩
  | .tool =>
    let name := msg.name.getD "tool"
    some ⟨.user, [.functionResponse name (responseVal parseJson msg.content)]⟩

def bothUsers (last msg : VertexContent) : Bool := msg.role = .user ∧ last.role = .user

/-- Append the parts, which are an array in every content. -/
def merge (last msg : VertexContent) : VertexContent :=
  { last with parts := last.parts ++ msg.parts }

/-- The system instruction is the last system message. -/
def buildContents (msgs : List ChatMessage) : Option String × List VertexContent :=
  (systemPrompt msgs, mergeAdjacent bothUsers merge (msgs.filterMap (contentOf parseJson)))

/-! ### What Gemini requires -/

def IsObject (v : Json) : Prop := ∃ fields, v = .obj fields

/-- The contents alternate between the roles, the results of tools are objects, and no part of a
message is lost or moved. -/
structure WellFormed (msgs : List ChatMessage) : Prop where
  alternates : (buildContents parseJson msgs).2.IsChain fun last next => last.role ≠ next.role
  objects : ∀ content ∈ (buildContents parseJson msgs).2, ∀ name response,
    .functionResponse name response ∈ content.parts → IsObject response
  parts : (buildContents parseJson msgs).2.flatMap (·.parts) =
    msgs.flatMap fun msg => (contentOf parseJson msg).toList.flatMap (·.parts)

/-- No assistant message follows another one, except for system messages between them. -/
def NoAdjacentAssistants (msgs : List ChatMessage) : Prop :=
  (msgs.filter (·.role ≠ .system)).IsChain fun last next =>
    ¬(last.role = .assistant ∧ next.role = .assistant)

/-- A tool result that is JSON text is an object. -/
def ObjectResults (msgs : List ChatMessage) : Prop :=
  ∀ msg ∈ msgs, msg.role = .tool → ∀ v, parseJson msg.content = some v → IsObject v

variable {parseJson}

/-! ### The roles -/

/-- Merged contents alternate if no two contents of the model are adjacent before the pass. -/
lemma alternates_mergeAdjacent_iff (contents : List VertexContent) :
    (mergeAdjacent bothUsers merge contents).IsChain (fun last next => last.role ≠ next.role) ↔
      contents.IsChain fun last next => ¬(last.role = .model ∧ next.role = .model) := by
  refine isChain_mergeAdjacent_iff (fun w x y hxy => ?_) (fun x y z hxy => ?_)
    (fun x y hxy => ?_) (fun x y hxy => ?_) contents
  · rfl
  · obtain ⟨hy, hx⟩ := of_decide_eq_true hxy
    simp [merge, hx, hy]
  · obtain ⟨hy, hx⟩ := of_decide_eq_true hxy
    simp [hx]
  · have hne : ¬(y.role = .user ∧ x.role = .user) := of_decide_eq_false hxy
    cases hx : x.role <;> cases hy : y.role <;> simp_all

/-- Tool results count as contents of the user. -/
def roleOf (msg : ChatMessage) : VertexRole := if msg.role = .assistant then .model else .user

lemma map_role_contents (msgs : List ChatMessage) :
    (msgs.filterMap (contentOf parseJson)).map (·.role) =
      (msgs.filter (·.role ≠ .system)).map roleOf := by
  induction msgs with
  | nil => rfl
  | cons msg msgs ih =>
    cases hrole : msg.role with
    | system => simpa [contentOf, hrole] using ih
    | user =>
      by_cases hparts : msg.hasParts
      · simpa [contentOf, hrole, hparts, roleOf] using ih
      · simpa [contentOf, hrole, hparts, roleOf] using ih
    | assistant =>
      by_cases hcalls : msg.tool_calls.isEmpty
      · simpa [contentOf, hrole, hcalls, roleOf] using ih
      · simpa [contentOf, hrole, hcalls, roleOf] using ih
    | tool => simpa [contentOf, hrole, roleOf] using ih

lemma isChain_contents_iff (msgs : List ChatMessage) :
    ((msgs.filterMap (contentOf parseJson)).IsChain fun last next =>
        ¬(last.role = .model ∧ next.role = .model)) ↔ NoAdjacentAssistants msgs := by
  have hroles := List.isChain_map (R := fun last next : VertexRole =>
    ¬(last = .model ∧ next = .model)) (·.role) (l := msgs.filterMap (contentOf parseJson))
  rw [← hroles, map_role_contents, List.isChain_map, NoAdjacentAssistants]
  simp [roleOf]

/-! ### The parts -/

lemma flatMap_parts_merged (contents : List VertexContent) :
    (mergeAdjacent bothUsers merge contents).flatMap (·.parts) = contents.flatMap (·.parts) :=
  flatMap_mergeAdjacent (fun _ _ _ => rfl) contents

lemma flatMap_parts_contents (msgs : List ChatMessage) :
    (buildContents parseJson msgs).2.flatMap (·.parts) =
      msgs.flatMap fun msg => (contentOf parseJson msg).toList.flatMap (·.parts) := by
  rw [buildContents, flatMap_parts_merged]
  induction msgs with
  | nil => rfl
  | cons msg msgs ih =>
    rw [List.filterMap_cons, List.flatMap_cons, ← ih]
    cases contentOf parseJson msg with
    | none => rfl
    | some content => simp

/-- The parts that are tool results come from the tool messages. -/
lemma functionResponse_mem_iff {msg : ChatMessage} {name : String} {response : Json} :
    .functionResponse name response ∈ (contentOf parseJson msg).toList.flatMap (·.parts) ↔
      msg.role = .tool ∧ name = msg.name.getD "tool" ∧
        response = responseVal parseJson msg.content := by
  cases hrole : msg.role with
  | system => simp [contentOf, hrole]
  | user =>
    have hparts (part : ContentPart) : contentPart part ≠ .functionResponse name response := by
      cases part <;> simp [contentPart]
    by_cases hhas : msg.hasParts
    · simp [contentOf, hrole, hhas, hparts]
    · simp [contentOf, hrole, hhas]
  | assistant =>
    by_cases hcalls : msg.tool_calls.isEmpty
    · simp [contentOf, hrole, hcalls]
    · by_cases htext : msg.content.isEmpty
      · simp [contentOf, hrole, hcalls, htext, functionCall]
      · simp [contentOf, hrole, hcalls, htext, functionCall]
  | tool => simp [contentOf, hrole]

lemma isObject_responseVal_iff {content : String} : IsObject (responseVal parseJson content) ↔
    ∀ v, parseJson content = some v → IsObject v := by
  cases hparse : parseJson content with
  | none => simp [responseVal, hparse, IsObject]
  | some v => simp [responseVal, hparse]

lemma objects_iff (msgs : List ChatMessage) :
    (∀ content ∈ (buildContents parseJson msgs).2, ∀ name response,
      .functionResponse name response ∈ content.parts → IsObject response) ↔
      ObjectResults parseJson msgs := by
  constructor
  · intro h msg hmsg hrole
    have hpart : .functionResponse (msg.name.getD "tool") (responseVal parseJson msg.content) ∈
        (buildContents parseJson msgs).2.flatMap (·.parts) := by
      rw [flatMap_parts_contents]
      exact List.mem_flatMap.mpr ⟨msg, hmsg, functionResponse_mem_iff.mpr ⟨hrole, rfl, rfl⟩⟩
    obtain ⟨content, hcontent, hmem⟩ := List.mem_flatMap.mp hpart
    exact isObject_responseVal_iff.mp (h content hcontent _ _ hmem)
  · intro h content hcontent name response hpart
    have hmem : .functionResponse name response ∈
        (buildContents parseJson msgs).2.flatMap (·.parts) :=
      List.mem_flatMap.mpr ⟨content, hcontent, hpart⟩
    rw [flatMap_parts_contents] at hmem
    obtain ⟨msg, hmsg, hmem⟩ := List.mem_flatMap.mp hmem
    obtain ⟨hrole, -, rfl⟩ := functionResponse_mem_iff.mp hmem
    exact isObject_responseVal_iff.mpr (h msg hmsg hrole)

/-- The contents of a Vertex request are well formed if no assistant message follows another one
and the results that are JSON text are objects. -/
theorem wellFormed_iff (parseJson : String → Option Json) (msgs : List ChatMessage) :
    WellFormed parseJson msgs ↔ NoAdjacentAssistants msgs ∧ ObjectResults parseJson msgs := by
  constructor
  · intro h
    exact ⟨(isChain_contents_iff msgs).mp ((alternates_mergeAdjacent_iff _).mp h.alternates),
      (objects_iff msgs).mp h.objects⟩
  · rintro ⟨hroles, hobjects⟩
    exact ⟨(alternates_mergeAdjacent_iff _).mpr ((isChain_contents_iff msgs).mpr hroles),
      (objects_iff msgs).mpr hobjects, flatMap_parts_contents msgs⟩

/-- What two agents say after each other stays two contents of the model. -/
theorem not_wellFormed_two_assistants :
    ¬WellFormed (fun _ => none)
      [{ role := .user, content := "Analyze it." },
        { role := .assistant, content := "It is packed." },
        { role := .assistant, content := "I agree." }] := by
  intro h
  have halternates := h.alternates
  revert halternates
  decide +kernel

end

end Vertex

end Arbeiterfarm.Llm
