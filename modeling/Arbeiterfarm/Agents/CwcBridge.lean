import Arbeiterfarm.Agents.Compaction

/-!
# The bridge to the context compactor

The messages of a conversation are handed to a session library that may drop some of them, and are
read back. A session message has no multi-modal parts; they are attached again to the messages with
the same role and text. So a message gets its own parts back only if no message with its role and
text has others.
-/

namespace Arbeiterfarm.Agents

/-! ### The model -/

structure MessageFlags where
  preserve : Bool := false
  is_nudge : Bool := false
  is_memory : Bool := false
  deriving DecidableEq, Repr

structure SessionToolResult where
  call_id : String
  tool_name : String
  output : String
  is_error : Bool
  deriving DecidableEq, Repr

structure SessionMessage where
  role : ChatRole
  content : String
  tool_calls : List ToolCallInfo := []
  tool_result : Option SessionToolResult := none
  flags : MessageFlags := {}
  deriving DecidableEq, Repr

def chatToSession (msg : ChatMessage) : SessionMessage where
  role := msg.role
  content := msg.content
  tool_calls := msg.tool_calls
  tool_result :=
    if msg.role = .tool then some ⟨msg.tool_call_id.getD "", msg.name.getD "", msg.content, false⟩
    else none
  flags :=
    { preserve := msg.role = .system
      is_nudge := isNudgeOrReinforcement msg.content
      is_memory := startsWith msg.content "[Thread Memory" }

def sessionToChat (sm : SessionMessage) : ChatMessage where
  role := sm.role
  content := sm.content
  tool_call_id := sm.tool_result.map (·.call_id)
  name := sm.tool_result.map (·.tool_name)
  tool_calls := sm.tool_calls
  content_parts := none

def chatMessagesToSession (msgs : List ChatMessage) : List SessionMessage := msgs.map chatToSession

def sessionToChatMessages (session : List SessionMessage) : List ChatMessage :=
  session.map sessionToChat

/-- The original has parts, and the role and the text of the message. -/
def isOriginalOf (opt_msg orig : ChatMessage) : Bool :=
  orig.hasParts && orig.role = opt_msg.role && orig.content = opt_msg.content

/-- The parts of the first original that matches. -/
def matchingParts (originals : List ChatMessage) (opt_msg : ChatMessage) :
    Option (List ContentPart) :=
  (originals.find? (isOriginalOf opt_msg)).bind (·.content_parts)

def restoreContentParts (optimized originals : List ChatMessage) : List ChatMessage :=
  optimized.map fun opt_msg =>
    if opt_msg.content_parts.isSome then opt_msg
    else { opt_msg with content_parts := matchingParts originals opt_msg }

/-- `optimize` is what the library does to a session. -/
def cwcOptimize (optimize : List SessionMessage → List SessionMessage)
    (messages : List ChatMessage) : List ChatMessage :=
  restoreContentParts (sessionToChatMessages (optimize (chatMessagesToSession messages))) messages

/-! ### What the session keeps of a message -/

section

variable {messages kept originals : List ChatMessage} {m : ChatMessage}

/-- The fields for tool results are set on tool messages and on no others. -/
def ToolFieldsOk (m : ChatMessage) : Prop :=
  m.tool_call_id.isSome = (m.role = .tool : Bool) ∧ m.name.isSome = (m.role = .tool : Bool)

/-- A message that has been through the session and got its parts back. -/
def bridged (originals : List ChatMessage) (m : ChatMessage) : ChatMessage :=
  { sessionToChat (chatToSession m) with content_parts := matchingParts originals m }

lemma cwcOptimize_eq {optimize : List SessionMessage → List SessionMessage}
    (h : optimize (chatMessagesToSession messages) = chatMessagesToSession kept) :
    cwcOptimize optimize messages = kept.map (bridged messages) := by
  rw [cwcOptimize, h, chatMessagesToSession, sessionToChatMessages, restoreContentParts,
    List.map_map, List.map_map]
  rfl

lemma bridged_eq_iff :
    bridged originals m = m ↔ ToolFieldsOk m ∧ matchingParts originals m = m.content_parts := by
  obtain ⟨role, content, tool_call_id, name, tool_calls, content_parts⟩ := m
  cases role <;> cases tool_call_id <;> cases name <;>
    simp [bridged, sessionToChat, chatToSession, ToolFieldsOk]

/-- The messages have one role and one text, which is all that the restoration looks at. -/
def SameText (m m' : ChatMessage) : Prop := m.role = m'.role ∧ m.content = m'.content

lemma hasParts_iff : m.hasParts = true ↔ ∃ parts, m.content_parts = some parts ∧ parts ≠ [] := by
  rw [ChatMessage.hasParts]
  cases m.content_parts with
  | none => simp
  | some parts => simp

lemma isOriginalOf_iff {orig : ChatMessage} :
    isOriginalOf m orig = true ↔ orig.hasParts = true ∧ SameText orig m := by
  simp only [isOriginalOf, Bool.and_eq_true, decide_eq_true_eq, SameText, and_assoc]

lemma matchingParts_eq_some {parts : List ContentPart}
    (h : matchingParts originals m = some parts) :
    ∃ orig ∈ originals, SameText orig m ∧ orig.content_parts = some parts ∧ parts ≠ [] := by
  obtain ⟨orig, hfind, hparts⟩ := Option.bind_eq_some_iff.mp h
  obtain ⟨hhas, hsame⟩ := isOriginalOf_iff.mp (List.find?_some hfind)
  obtain ⟨parts', hparts', hne⟩ := hasParts_iff.mp hhas
  rw [hparts] at hparts'
  cases hparts'
  exact ⟨orig, List.mem_of_find?_eq_some hfind, hsame, hparts, hne⟩

lemma matchingParts_eq_none (h : matchingParts originals m = none) :
    ∀ orig ∈ originals, SameText orig m → ¬ orig.hasParts = true := by
  intro orig horig hsame hhas
  cases hfind : originals.find? (isOriginalOf m) with
  | none =>
    exact List.find?_eq_none.mp hfind orig horig (isOriginalOf_iff.mpr ⟨hhas, hsame⟩)
  | some found =>
    obtain ⟨hhas, -⟩ := isOriginalOf_iff.mp (List.find?_some hfind)
    obtain ⟨parts, hparts, -⟩ := hasParts_iff.mp hhas
    rw [matchingParts, hfind, Option.bind_some, hparts] at h
    cases h

lemma matchingParts_congr {m' : ChatMessage} (h : SameText m m') :
    matchingParts originals m = matchingParts originals m' := by
  have horiginal : isOriginalOf m = isOriginalOf m' := by
    funext orig
    rw [isOriginalOf, isOriginalOf, h.1, h.2]
  rw [matchingParts, matchingParts, horiginal]

/-- All messages get their own parts back just when the text determines the parts. -/
lemma matchingParts_own_iff : (∀ m ∈ messages, matchingParts messages m = m.content_parts) ↔
    (∀ m ∈ messages, m.content_parts ≠ some []) ∧
      ∀ m ∈ messages, ∀ m' ∈ messages, SameText m m' → m.content_parts = m'.content_parts := by
  constructor
  · intro hown
    constructor
    · intro m hm hempty
      rw [← hown m hm] at hempty
      obtain ⟨-, -, -, -, hne⟩ := matchingParts_eq_some hempty
      exact hne rfl
    · intro m hm m' hm' hsame
      rw [← hown m hm, ← hown m' hm', matchingParts_congr hsame]
  · rintro ⟨hnonempty, hsame⟩ m hm
    cases hmatch : matchingParts messages m with
    | some parts =>
      obtain ⟨orig, horig, htext, hparts, -⟩ := matchingParts_eq_some hmatch
      rw [← hsame orig horig m hm htext, hparts]
    | none =>
      have hhas := matchingParts_eq_none hmatch m hm ⟨rfl, rfl⟩
      cases hparts : m.content_parts with
      | none => rfl
      | some parts =>
        refine absurd (hasParts_iff.mpr ⟨parts, hparts, ?_⟩) hhas
        rintro rfl
        exact hnonempty m hm hparts

end

/-! ### When the bridge changes nothing -/

/-- The message has its own parts or none. -/
def NoForeignParts (m m' : ChatMessage) : Prop :=
  m'.content_parts = none ∨ m'.content_parts = m.content_parts

/-- The bridge returns the messages that the library keeps unchanged, and gives no message the parts
of another, just when the messages are well formed and those with one role and text have the same
parts. -/
theorem cwcOptimize_faithful_iff (messages : List ChatMessage) :
    ((∀ optimize, optimize (chatMessagesToSession messages) = chatMessagesToSession messages →
        cwcOptimize optimize messages = messages) ∧
      ∀ optimize kept, kept.Sublist messages →
        optimize (chatMessagesToSession messages) = chatMessagesToSession kept →
          List.Forall₂ NoForeignParts kept (cwcOptimize optimize messages)) ↔
    (∀ m ∈ messages, ToolFieldsOk m ∧ m.content_parts ≠ some []) ∧
      ∀ m ∈ messages, ∀ m' ∈ messages, SameText m m' → m.content_parts = m'.content_parts := by
  have hunchanged : messages.map (bridged messages) = messages ↔ ∀ m ∈ messages,
      ToolFieldsOk m ∧ matchingParts messages m = m.content_parts := by
    have heq := List.map_inj_left (l := messages) (f := bridged messages) (g := id)
    rw [List.map_id] at heq
    rw [heq]
    simp only [id, bridged_eq_iff]
  constructor
  · rintro ⟨hreturns, -⟩
    have hall : cwcOptimize id messages = messages := hreturns id rfl
    have hbridged : cwcOptimize id messages = messages.map (bridged messages) := cwcOptimize_eq rfl
    rw [hbridged, hunchanged] at hall
    obtain ⟨hnonempty, hsame⟩ := matchingParts_own_iff.mp fun m hm => (hall m hm).2
    exact ⟨fun m hm => ⟨(hall m hm).1, hnonempty m hm⟩, hsame⟩
  · rintro ⟨hwell, hsame⟩
    have hown := matchingParts_own_iff.mpr ⟨fun m hm => (hwell m hm).2, hsame⟩
    constructor
    · intro optimize hoptimize
      rw [cwcOptimize_eq hoptimize, hunchanged]
      exact fun m hm => ⟨(hwell m hm).1, hown m hm⟩
    · intro optimize kept hkept hoptimize
      rw [cwcOptimize_eq hoptimize, List.forall₂_map_right_iff, List.forall₂_same]
      intro m hm
      right
      exact hown m (hkept.subset hm)

/-- Two images are sent without a text. -/
def twoImages : List ChatMessage :=
  [{ role := .user, content := "", content_parts := some [.image "first" "image/png"] },
    { role := .user, content := "", content_parts := some [.image "second" "image/png"] }]

/-- The second message gets the image of the first one. -/
theorem first_image_twice : cwcOptimize id twoImages ≠ twoImages ∧
    cwcOptimize (List.drop 1) twoImages =
      [{ role := .user, content := "", content_parts := some [.image "first" "image/png"] }] := by
  decide

end Arbeiterfarm.Agents
