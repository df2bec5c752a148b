import Arbeiterfarm.Llm.Anthropic

/-!
# Pairing of tool calls and tool results

Each repair pass is specified by the relation that it establishes between neighbours, and the
next passes keep it: after pass 1 every call is answered by the next message, after pass 2 every
result refers to the message before it, and pass 3 only ever merges assistant messages.
-/

namespace Arbeiterfarm.Llm

open Foundation

/-! ### Ids of a message -/

lemma extractToolUseIds_eq (msg : ApiMessage) :
    extractToolUseIds msg = msg.content.blocks.filterMap Block.toolUseId? := by
  simp only [extractToolUseIds]
  split <;> simp_all [Block.toolUseId?]

lemma extractToolResultIds_user {msg : ApiMessage} (h : msg.role = .user) :
    extractToolResultIds msg = msg.content.blocks.filterMap Block.toolResultId? := by
  simp only [extractToolResultIds]
  rw [if_pos h]
  split <;> simp_all [Block.toolResultId?]

lemma extractToolResultIds_assistant {msg : ApiMessage} (h : msg.role = .assistant) :
    extractToolResultIds msg = [] := by simp [extractToolResultIds, h]

/-- The results in a message, if there is one. -/
def resultIds : Option ApiMessage → List String
  | some msg => extractToolResultIds msg
  | none => []

@[simp] lemma resultIds_some (msg : ApiMessage) :
    resultIds (some msg) = extractToolResultIds msg := rfl

lemma pendingIds_user {msg : ApiMessage} (h : msg.role = .user) : pendingIds (some msg) = [] := by
  simp [pendingIds, h]

lemma pendingIds_assistant {msg : ApiMessage} (h : msg.role = .assistant) :
    pendingIds (some msg) = extractToolUseIds msg := by simp [pendingIds, h]

lemma role_of_mem_pendingIds {msg : ApiMessage} {id : String} (h : id ∈ pendingIds (some msg)) :
    msg.role = .assistant := by
  by_contra hrole
  simp [pendingIds, hrole] at h

lemma role_of_mem_extractToolResultIds {msg : ApiMessage} {id : String}
    (h : id ∈ extractToolResultIds msg) : msg.role = .user := by
  by_contra hrole
  simp [extractToolResultIds, hrole] at h

lemma role_eq_user {msg : ApiMessage} (h : msg.role ≠ .assistant) : msg.role = .user := by
  cases hrole : msg.role with
  | user => rfl
  | assistant => exact absurd hrole h

lemma mem_toolResultIds {id : String} {blocks : List Block} :
    id ∈ blocks.filterMap Block.toolResultId? ↔ ∃ c, Block.tool_result id c ∈ blocks := by
  rw [List.mem_filterMap]
  constructor
  · rintro ⟨block, hmem, hid⟩
    cases block with
    | tool_result id' c =>
      obtain rfl := Option.some.inj hid
      exact ⟨c, hmem⟩
    | _ => simp [Block.toolResultId?] at hid
  · rintro ⟨c, hmem⟩
    exact ⟨_, hmem, rfl⟩

lemma filterMap_unavailable (ids : List String) :
    (ids.map unavailable).filterMap Block.toolResultId? = ids := by
  induction ids with
  | nil => rfl
  | cons id ids ih => simpa [unavailable, Block.toolResultId?] using ih

/-! ### Relations between neighbours -/

/-- The next message answers every call of the one before it. -/
def Answers (prev next : Option ApiMessage) : Prop := ∀ id ∈ pendingIds prev, id ∈ resultIds next

/-- Every result refers to a call of the assistant message before it. -/
def Refers (prev next : Option ApiMessage) : Prop := ∀ id ∈ resultIds next, id ∈ pendingIds prev

def NotBothUsers (prev next : Option ApiMessage) : Prop :=
  ∀ x ∈ prev, ∀ y ∈ next, bothUsers x y = false

lemma bothUsers_eq_false {x y : ApiMessage} :
    bothUsers x y = false ↔ (x.role = .user → y.role = .assistant) := by
  cases hx : x.role <;> cases hy : y.role <;> simp [bothUsers, hx, hy]

lemma Answers.of_nil {prev next : Option ApiMessage} (h : pendingIds prev = []) :
    Answers prev next := by simp [Answers, h]

lemma Refers.of_nil {prev next : Option ApiMessage} (h : resultIds next = []) :
    Refers prev next := by simp [Refers, h]

/-- `NotBothUsers` depends on the roles alone. -/
lemma NotBothUsers.congr_right {prev : Option ApiMessage} {x y : ApiMessage}
    (h : NotBothUsers prev (some x)) (hrole : y.role = x.role) : NotBothUsers prev (some y) := by
  intro p hp z hz
  obtain rfl := Option.mem_some_iff.mp hz
  rw [bothUsers_eq_false, hrole, ← bothUsers_eq_false]
  exact h p hp x rfl

lemma NotBothUsers.congr_left {next : Option ApiMessage} {x y : ApiMessage}
    (h : NotBothUsers (some x) next) (hrole : y.role = x.role) : NotBothUsers (some y) next := by
  intro p hp z hz
  obtain rfl := Option.mem_some_iff.mp hp
  rw [bothUsers_eq_false, hrole, ← bothUsers_eq_false]
  exact h x rfl z hz

lemma notBothUsers_of_pending {prev next : Option ApiMessage} {id : String}
    (h : id ∈ pendingIds prev) : NotBothUsers prev next := by
  intro x hx y _
  obtain rfl := Option.mem_def.mp hx
  simp [bothUsers_eq_false, role_of_mem_pendingIds h]

lemma notBothUsers_of_assistant {prev : Option ApiMessage} {msg : ApiMessage}
    (h : msg.role = .assistant) : NotBothUsers prev (some msg) := by
  intro x _ y hy
  obtain rfl := Option.mem_some_iff.mp hy
  exact bothUsers_eq_false.mpr fun _ => h

/-- A message after a user message is not a user message, so it may follow anything. -/
lemma NotBothUsers.of_user {prev next : Option ApiMessage} {msg : ApiMessage}
    (h : NotBothUsers (some msg) next) (hrole : msg.role = .user) : NotBothUsers prev next := by
  intro x _ y hy
  exact bothUsers_eq_false.mpr fun _ => bothUsers_eq_false.mp (h msg rfl y hy) hrole

/-! ### Building the list -/

lemma bothUsers_merge (p x y : ApiMessage) : bothUsers p (x.merge y) = bothUsers p x := rfl

lemma sameRole_merge (p x y : ApiMessage) : sameRole p (x.merge y) = sameRole p x := rfl

lemma linked_mergedMessages (msgs : List ChatMessage) :
    Linked NotBothUsers none (mergedMessages msgs) := by
  have htrue : Linked (fun _ _ => True) none (msgs.filterMap apiMessage) := by
    generalize (none : Option ApiMessage) = p
    induction msgs.filterMap apiMessage generalizing p with
    | nil => trivial
    | cons msg msgs ih => exact ⟨trivial, ih _⟩
  have happart : Linked (Apart bothUsers fun _ _ => True) none (mergedMessages msgs) :=
    linked_mergeAdjacent (fun p x y _ => bothUsers_merge p x y) (fun _ _ _ _ _ _ => trivial)
      (fun _ _ _ _ _ _ => trivial) htrue
  exact happart.imp fun p q h => h.2

/-! ### Pass 1 -/

/-- What pass 1 establishes. -/
def Answered (prev next : Option ApiMessage) : Prop := Answers prev next ∧ NotBothUsers prev next

lemma answered_of_user {msg : ApiMessage} {next : Option ApiMessage} (hrole : msg.role = .user)
    (h : NotBothUsers (some msg) next) : Answered (some msg) next :=
  ⟨.of_nil (pendingIds_user hrole), h⟩

lemma extractToolResultIds_synthetic (ids : List String) (blocks : List Block) :
    extractToolResultIds ⟨.user, .array (ids.map unavailable ++ blocks)⟩ =
      ids ++ blocks.filterMap Block.toolResultId? := by
  rw [extractToolResultIds_user rfl, Content.blocks_array, List.filterMap_append,
    filterMap_unavailable]

lemma linked_injectMissing {prev : Option ApiMessage} {msgs : List ApiMessage}
    (h : Linked NotBothUsers prev msgs) : Linked Answered prev (injectMissing prev msgs) := by
  induction msgs generalizing prev with
  | nil =>
    simp only [injectMissing]
    split_ifs with hpending
    · exact ⟨.of_nil hpending, h⟩
    · obtain ⟨id, hid⟩ := List.exists_mem_of_ne_nil _ hpending
      refine ⟨⟨?_, notBothUsers_of_pending hid⟩, ?_⟩
      · intro id hid
        have := extractToolResultIds_synthetic (pendingIds prev) []
        simp only [List.append_nil, List.filterMap_nil] at this
        simpa [this] using hid
      · exact answered_of_user rfl (by simp [NotBothUsers])
  | cons msg msgs ih =>
    obtain ⟨hmsg, hmsgs⟩ := h
    unfold injectMissing
    simp only
    split_ifs with hmissing hrole
    · refine ⟨⟨?_, hmsg⟩, ih hmsgs⟩
      intro id hid
      by_contra hid'
      exact List.filter_eq_nil_iff.mp hmissing id hid (by simpa using hid')
    · refine ⟨⟨?_, hmsg.congr_right (hrole ▸ rfl)⟩,
        ih (hmsgs.imp_head fun h => h.congr_left (hrole ▸ rfl))⟩
      intro id hid
      rw [resultIds_some, extractToolResultIds_synthetic, List.mem_append,
        ← extractToolResultIds_user hrole, List.mem_filter]
      by_cases hid' : id ∈ extractToolResultIds msg
      · exact .inr hid'
      · exact .inl ⟨hid, by simpa using hid'⟩
    · -- the next message is an assistant message, so nothing is answered yet
      have hassistant : msg.role = .assistant := by
        by_contra hne
        exact hrole (role_eq_user hne)
      obtain ⟨id, hid⟩ := List.exists_mem_of_ne_nil _ hmissing
      refine ⟨⟨?_, notBothUsers_of_pending (List.mem_of_mem_filter hid)⟩, ?_, ih hmsgs⟩
      · intro id hid
        have := extractToolResultIds_synthetic (pendingIds prev) []
        simp only [List.append_nil, List.filterMap_nil] at this
        simpa [extractToolResultIds_assistant hassistant, this] using hid
      · exact answered_of_user rfl (notBothUsers_of_assistant hassistant)

/-! ### Pass 2 -/

/-- What pass 2 establishes. -/
def Paired (prev next : Option ApiMessage) : Prop :=
  Answers prev next ∧ Refers prev next ∧ NotBothUsers prev next

lemma keepBlock_nil (block : Block) : keepBlock [] block = !block.isToolResult := by
  cases block <;> simp [keepBlock, Block.isToolResult]

/-- Both filters of pass 2 keep the results of the calls before the message. -/
lemma filtered_eq (ids : List String) (content : List Block) :
    (if ids ≠ [] then content.filter (keepBlock ids)
      else content.filter fun block => !block.isToolResult) = content.filter (keepBlock ids) := by
  split_ifs with h
  · rfl
  · obtain rfl := not_not.mp h
    exact List.filter_congr fun block _ => (keepBlock_nil block).symm

lemma mem_resultIds_filter {ids : List String} {content : List Block} {id : String} :
    id ∈ extractToolResultIds ⟨.user, .array (content.filter (keepBlock ids))⟩ ↔
      id ∈ extractToolResultIds ⟨.user, .array content⟩ ∧ id ∈ ids := by
  simp only [extractToolResultIds_user, Content.blocks_array, mem_toolResultIds, List.mem_filter,
    keepBlock, decide_eq_true_eq, exists_and_right]

lemma linked_stripOrphaned {prev : Option ApiMessage} {msgs : List ApiMessage}
    (h : Linked Answered prev msgs) : Linked Paired prev (stripOrphaned prev msgs) := by
  induction msgs generalizing prev with
  | nil => exact ⟨h.1, .of_nil rfl, h.2⟩
  | cons msg msgs ih =>
    obtain ⟨⟨hans, husers⟩, hmsgs⟩ := h
    have hkeep (hnil : resultIds (some msg) = []) :
        Linked Paired prev (msg :: stripOrphaned (some msg) msgs) :=
      ⟨⟨hans, .of_nil hnil, husers⟩, ih hmsgs⟩
    obtain ⟨role, content⟩ := msg
    cases role with
    | assistant => exact hkeep (extractToolResultIds_assistant rfl)
    | user =>
      cases content with
      | string s => exact hkeep rfl
      | array content =>
        simp only [stripOrphaned, filtered_eq]
        split_ifs with hany hfiltered
        · -- a call before the message would have kept its result in it
          have hnil : pendingIds prev = [] := by
            by_contra hne
            obtain ⟨id, hid⟩ := List.exists_mem_of_ne_nil _ hne
            have := mem_resultIds_filter.mpr ⟨hans id hid, hid⟩
            simp [hfiltered, extractToolResultIds] at this
          exact ih (hmsgs.imp_head fun h => ⟨.of_nil hnil, h.2.of_user rfl⟩)
        · refine ⟨⟨?_, ?_, husers.congr_right rfl⟩,
            ih (hmsgs.imp_head fun h => answered_of_user rfl (h.2.congr_left rfl))⟩
          · intro id hid
            exact mem_resultIds_filter.mpr ⟨hans id hid, hid⟩
          · intro id hid
            exact (mem_resultIds_filter.mp hid).2
        · refine hkeep ?_
          rw [resultIds_some, extractToolResultIds_user rfl, List.filterMap_eq_nil_iff]
          intro block hblock
          cases block with
          | tool_result id c =>
            exact absurd (List.any_eq_true.mpr ⟨_, hblock, rfl⟩) hany
          | _ => rfl

/-! ### Pass 3 -/

/-- Only assistant messages become neighbours of the same role, and the first one calls nothing. -/
lemma Paired.assistants {x y : ApiMessage} (hs : sameRole x y)
    (h : Paired (some x) (some y)) :
    x.role = .assistant ∧ y.role = .assistant ∧ pendingIds (some x) = [] := by
  have hrole : x.role = y.role := by simpa [sameRole] using hs
  have hy : y.role = .assistant := by
    by_contra hne
    have huser := role_eq_user hne
    exact hne (bothUsers_eq_false.mp (h.2.2 x rfl y rfl) (hrole.trans huser))
  refine ⟨hrole.trans hy, hy, List.eq_nil_iff_forall_not_mem.mpr ?_⟩
  intro id hid
  have := h.1 id hid
  simp [extractToolResultIds_assistant hy] at this

lemma Paired.merge_left {prev : Option ApiMessage} {x y : ApiMessage} (hs : sameRole x y)
    (h : Paired prev (some x)) (hxy : Paired (some x) (some y)) :
    Paired prev (some (x.merge y)) := by
  have hx := (hxy.assistants hs).1
  have hnil : resultIds (some (x.merge y)) = [] := extractToolResultIds_assistant hx
  refine ⟨?_, .of_nil hnil, h.2.2.congr_right rfl⟩
  intro id hid
  have := h.1 id hid
  simp [extractToolResultIds_assistant hx] at this

lemma Paired.merge_right {next : Option ApiMessage} {x y : ApiMessage} (hs : sameRole x y)
    (hxy : Paired (some x) (some y)) (h : Paired (some y) next) :
    Paired (some (x.merge y)) next := by
  obtain ⟨hx, hy, hnil⟩ := hxy.assistants hs
  have hmerge : (x.merge y).role = .assistant := hx
  have hids : pendingIds (some (x.merge y)) = pendingIds (some y) := by
    rw [pendingIds_assistant hx, extractToolUseIds_eq] at hnil
    rw [pendingIds_assistant hmerge, pendingIds_assistant hy, extractToolUseIds_eq,
      extractToolUseIds_eq, ApiMessage.merge, Content.blocks_array, List.filterMap_append, hnil,
      List.nil_append]
  refine ⟨fun id hid => h.1 id (hids ▸ hid), fun id hid => hids ▸ h.2.1 id hid, ?_⟩
  exact h.2.2.congr_left (hx.trans hy.symm)

lemma linked_fixOrphanedToolUse {msgs : List ApiMessage} (h : Linked NotBothUsers none msgs) :
    Linked (Apart sameRole Paired) none (fixOrphanedToolUse msgs) := by
  simp only [fixOrphanedToolUse]
  exact linked_mergeAdjacent (fun p x y _ => sameRole_merge p x y)
    (fun _ _ _ => Paired.merge_left) (fun _ _ _ => Paired.merge_right)
    (linked_stripOrphaned (linked_injectMissing h))

/-! ### The blocks that are kept -/

/-- The blocks that meet `k`, with the role of their message, in order. -/
def blocksWhere (k : ApiRole → Block → Bool) (msgs : List ApiMessage) : List (ApiRole × Block) :=
  msgs.flatMap fun msg => (msg.content.blocks.filter (k msg.role)).map (msg.role, ·)

section Kept

variable {k : ApiRole → Block → Bool}

@[simp] lemma blocksWhere_cons (msg : ApiMessage) (msgs : List ApiMessage) :
    blocksWhere k (msg :: msgs) =
      (msg.content.blocks.filter (k msg.role)).map (msg.role, ·) ++ blocksWhere k msgs := rfl

lemma blocksWhere_mergeAdjacent {same : ApiMessage → ApiMessage → Bool}
    (hsame : ∀ x y, same x y → y.role = x.role) (msgs : List ApiMessage) :
    blocksWhere k (mergeAdjacent same ApiMessage.merge msgs) = blocksWhere k msgs := by
  refine flatMap_mergeAdjacent (fun x y hxy => ?_) msgs
  simp [ApiMessage.merge, hsame x y hxy]

variable (hk : ∀ id c, k .user (.tool_result id c) = false)
include hk

lemma filter_unavailable (ids : List String) :
    (ids.map unavailable).filter (k .user) = [] := by
  simp [unavailable, hk]

lemma blocksWhere_injectMissing (prev : Option ApiMessage) (msgs : List ApiMessage) :
    blocksWhere k (injectMissing prev msgs) = blocksWhere k msgs := by
  induction msgs generalizing prev with
  | nil =>
    simp only [injectMissing]
    split_ifs <;> simp [filter_unavailable hk]
  | cons msg msgs ih =>
    unfold injectMissing
    simp only
    split_ifs with _ hrole
    · simp [ih]
    · simp [ih, filter_unavailable hk, hrole]
    · simp [ih, filter_unavailable hk]

lemma filter_keepBlock (ids : List String) (content : List Block) :
    (content.filter (keepBlock ids)).filter (k .user) = content.filter (k .user) := by
  rw [List.filter_filter]
  apply List.filter_congr
  intro block _
  cases block <;> simp [keepBlock, hk]

lemma blocksWhere_stripOrphaned (prev : Option ApiMessage) (msgs : List ApiMessage) :
    blocksWhere k (stripOrphaned prev msgs) = blocksWhere k msgs := by
  induction msgs generalizing prev with
  | nil => rfl
  | cons msg msgs ih =>
    obtain ⟨role, content⟩ := msg
    cases role with
    | assistant => simp [stripOrphaned, ih]
    | user =>
      cases content with
      | string s => simp [stripOrphaned, ih]
      | array content =>
        simp only [stripOrphaned, filtered_eq]
        split_ifs with hany hfiltered
        · rw [ih, blocksWhere_cons, Content.blocks_array,
            ← filter_keepBlock hk (pendingIds prev), hfiltered]
          rfl
        · simp only [blocksWhere_cons, Content.blocks_array, filter_keepBlock hk, ih]
        · simp [ih]

/-- The repair changes nothing but the results in user messages. -/
lemma blocksWhere_fixOrphanedToolUse (msgs : List ApiMessage) :
    blocksWhere k (fixOrphanedToolUse msgs) = blocksWhere k msgs := by
  simp only [fixOrphanedToolUse]
  rw [blocksWhere_mergeAdjacent (fun x y hxy => ?_), blocksWhere_stripOrphaned hk,
    blocksWhere_injectMissing hk]
  simpa [sameRole, eq_comm] using hxy

end Kept

/-! ### Well-formed requests -/

/-- What the API requires of a message list. -/
structure WellFormed (msgs : List ApiMessage) : Prop where
  answered : ∀ pre msg post, msgs = pre ++ msg :: post → msg.role = .assistant →
    extractToolUseIds msg ≠ [] → ∃ next ∈ post.head?, next.role = .user ∧
      ∀ id ∈ extractToolUseIds msg, id ∈ extractToolResultIds next
  refers : ∀ pre msg post, msgs = pre ++ msg :: post →
    ∀ id c, Block.tool_result id c ∈ msg.content.blocks →
      ∃ prev ∈ pre.getLast?, prev.role = .assistant ∧ id ∈ extractToolUseIds prev
  alternates : msgs.IsChain fun msg next => msg.role ≠ next.role

/-- The results in assistant messages; the builder makes none. -/
def assistantResult (role : ApiRole) (block : Block) : Bool :=
  role = .assistant && block.isToolResult

lemma blocksWhere_apiMessage (msgs : List ChatMessage) :
    blocksWhere assistantResult (msgs.filterMap apiMessage) = [] := by
  induction msgs with
  | nil => rfl
  | cons msg msgs ih =>
    rw [List.filterMap_cons]
    cases hrole : msg.role with
    | system => simpa [apiMessage, hrole] using ih
    | tool => simpa [apiMessage, hrole, assistantResult] using ih
    | user =>
      simp only [apiMessage, hrole]
      split_ifs <;> simpa [assistantResult] using ih
    | assistant =>
      simp only [apiMessage, hrole]
      split_ifs <;> simpa [assistantResult, toolUseBlock, Block.isToolResult] using ih

lemma no_assistantResult (msgs : List ChatMessage) {msg : ApiMessage}
    (h : msg ∈ fixOrphanedToolUse (mergedMessages msgs)) (hrole : msg.role = .assistant)
    {block : Block} (hblock : block ∈ msg.content.blocks) : block.isToolResult = false := by
  have hnil : blocksWhere assistantResult (fixOrphanedToolUse (mergedMessages msgs)) = [] := by
    rw [blocksWhere_fixOrphanedToolUse (by simp [assistantResult]), mergedMessages,
      blocksWhere_mergeAdjacent (fun x y hxy => ?_), blocksWhere_apiMessage]
    simp_all [bothUsers]
  have := List.flatMap_eq_nil_iff.mp hnil msg h
  simp only [List.map_eq_nil_iff, List.filter_eq_nil_iff] at this
  simpa [assistantResult, hrole] using this block hblock

lemma wellFormed_fixOrphanedToolUse (msgs : List ChatMessage) :
    WellFormed (fixOrphanedToolUse (mergedMessages msgs)) := by
  have hlinked := linked_fixOrphanedToolUse (linked_mergedMessages msgs)
  refine ⟨?_, ?_, ?_⟩
  · intro pre msg post hsplit hrole hids
    rw [hsplit] at hlinked
    have hans : Answers (some msg) post.head? := hlinked.split.2.1.1
    rw [Answers, pendingIds_assistant hrole] at hans
    obtain ⟨id, hid⟩ := List.exists_mem_of_ne_nil _ hids
    cases hnext : post.head? with
    | none =>
      rw [hnext] at hans
      exact absurd (hans id hid) List.not_mem_nil
    | some next =>
      rw [hnext] at hans
      exact ⟨next, rfl, role_of_mem_extractToolResultIds (hans id hid), hans⟩
  · intro pre msg post hsplit id c hblock
    have huser : msg.role = .user := by
      by_contra hne
      have hassistant : msg.role = .assistant := by
        by_contra hne'
        exact hne (role_eq_user hne')
      have := no_assistantResult msgs (hsplit ▸ by simp) hassistant hblock
      simp [Block.isToolResult] at this
    rw [hsplit] at hlinked
    have href : Refers (pre.getLast?.or none) (some msg) := hlinked.split.1.1.2.1
    have hid : id ∈ pendingIds (pre.getLast?.or none) := by
      refine href id ?_
      rw [resultIds_some, extractToolResultIds_user huser]
      exact mem_toolResultIds.mpr ⟨c, hblock⟩
    rw [Option.or_none] at hid
    cases hprev : pre.getLast? with
    | none => simp [hprev, pendingIds] at hid
    | some prev =>
      rw [hprev] at hid
      have hassistant := role_of_mem_pendingIds hid
      exact ⟨prev, rfl, hassistant, pendingIds_assistant hassistant ▸ hid⟩
  · exact hlinked.isChain fun x y h => by simpa [sameRole] using h.2 x rfl y rfl

/-- Every message list that the builder makes is repaired to a well-formed one, and the repair
keeps the role and the order of all blocks that are not tool results. -/
theorem fixOrphanedToolUse_spec (msgs : List ChatMessage) :
    WellFormed (fixOrphanedToolUse (mergedMessages msgs)) ∧
      blocksWhere (fun _ block => !block.isToolResult)
          (fixOrphanedToolUse (mergedMessages msgs)) =
        blocksWhere (fun _ block => !block.isToolResult) (mergedMessages msgs) :=
  ⟨wellFormed_fixOrphanedToolUse msgs,
    blocksWhere_fixOrphanedToolUse (by simp [Block.isToolResult]) _⟩

end Arbeiterfarm.Llm
