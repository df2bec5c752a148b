import Arbeiterfarm.Agents.History
import Mathlib.Data.List.Infix

/-!
# Context compaction

Three functions shorten the message list of the loop: `tryCompact` replaces the middle by a
summary of the model, `localContextReset` and `slidingWindowTrim` replace it by the thread
memory. Each finds the index of the first message that it keeps, marks the rows up to the one
that the index maps to, and stores a summary row.

Token estimates, the summary of the model and the stored memory are inputs.
-/

namespace Arbeiterfarm.Agents

/-- A message that the loop holds, and the number of the row it was stored in or read from. The
number is not part of the program's message; it records which row belongs to which message. -/
structure Held where
  msg : ChatMessage
  row : Option ℕ := none
  deriving DecidableEq

/-- The list that the loop builds from the history. -/
def heldHistory (system_prompt : String) (history : List MessageRow) : List Held :=
  { msg := systemMessage system_prompt } ::
    history.filterMap fun row => row.toMessage.map fun m => ⟨m, some row.seq⟩

/-- The memory message goes after the system prompt. -/
def heldMemory (memory : List (String × String)) : List Held :=
  (buildMemoryMessage memory).toList.map fun m => { msg := m }

/-! ### Selection of the tail -/

/-- The index of the last element that meets `p`. -/
def rposition {α : Type*} (p : α → Bool) (l : List α) : Option ℕ :=
  (l.reverse.findIdx? p).map (l.length - 1 - ·)

lemma rposition_lt {α : Type*} {p : α → Bool} {l : List α} {i : ℕ} (h : rposition p l = some i) :
    i < l.length := by
  obtain ⟨j, hj, rfl⟩ := Option.map_eq_some_iff.mp h
  obtain ⟨hlt, -⟩ := List.findIdx?_eq_some_iff_getElem.mp hj
  rw [List.length_reverse] at hlt
  omega

lemma rposition_eq_some {α : Type*} {p : α → Bool} {l : List α} {i : ℕ}
    (h : rposition p l = some i) :
    (∃ a, l[i]? = some a ∧ p a) ∧ ∀ k a, l[k]? = some a → p a → k ≤ i := by
  have hlt := rposition_lt h
  obtain ⟨j, hj, rfl⟩ := Option.map_eq_some_iff.mp h
  obtain ⟨hjlt, hp, hlast⟩ := List.findIdx?_eq_some_iff_getElem.mp hj
  rw [List.length_reverse] at hjlt
  refine ⟨⟨l[l.length - 1 - j], List.getElem?_eq_getElem hlt, ?_⟩, ?_⟩
  · rwa [List.getElem_reverse] at hp
  · intro k a hk ha
    obtain ⟨hklt, rfl⟩ := List.getElem?_eq_some_iff.mp hk
    by_contra hgt
    have := hlast (l.length - 1 - k) (by omega)
    rw [List.getElem_reverse] at this
    simp only [show l.length - 1 - (l.length - 1 - k) = k by omega] at this
    exact this ha

/-- The message belongs to the tool-call group that starts before the boundary. -/
def joinsGroup (messages : List ChatMessage) (prev : ℕ) : Bool :=
  match messages[prev]? with
  | none => false
  | some m =>
    m.role = .tool || (m.role = .assistant && !m.tool_calls.isEmpty) ||
      (m.role = .user && 1 < prev && (messages[prev - 1]?).any fun m => m.role = .tool)

/-- Walk backward from the boundary over the tool-call groups before it. -/
def walkBack (messages : List ChatMessage) : ℕ → ℕ
  | 0 => 0
  | 1 => 1
  | boundary + 2 =>
    if joinsGroup messages (boundary + 1) then walkBack messages (boundary + 1) else boundary + 2

lemma walkBack_le (messages : List ChatMessage) (boundary : ℕ) :
    walkBack messages boundary ≤ boundary := by
  fun_induction walkBack messages boundary with
  | case1 => exact Nat.le_refl _
  | case2 => exact Nat.le_refl _
  | case3 boundary _ ih => exact Nat.le_succ_of_le ih
  | case4 => exact Nat.le_refl _

/-- The messages `compact_start..compact_end` are compacted. -/
structure CompactionPlan where
  compact_start : ℕ
  compact_end : ℕ
  message_count : ℕ
  deriving DecidableEq

def selectMessagesForCompaction (messages : List ChatMessage) : Option CompactionPlan :=
  if messages.length < 4 then none
  else
    match rposition (fun m => m.role = .user) messages with
    | none => none
    | some last_user_idx =>
      let boundary := walkBack messages last_user_idx
      if boundary ≤ 1 then none else some ⟨1, boundary, boundary - 1⟩

lemma selectMessagesForCompaction_bounds {messages : List ChatMessage} {plan : CompactionPlan}
    (h : selectMessagesForCompaction messages = some plan) :
    2 ≤ plan.compact_end ∧ plan.compact_end < messages.length := by
  unfold selectMessagesForCompaction at h
  split_ifs at h
  split at h
  · cases h
  · rename_i last_user_idx hlast
    have hle := walkBack_le messages last_user_idx
    have hlt := rposition_lt hlast
    simp only at h
    split_ifs at h with hboundary
    cases h
    simp only
    omega

/-! ### Turns -/

/-- The content of a synthetic user message. -/
def isNudgeOrReinforcement (content : String) : Bool :=
  startsWith content "[Thread Memory" || startsWith content "[SYSTEM REMINDER]"
    || startsWith content "[Context Summary" || startsWith content "[Sliding window trim"
    || startsWith content "[Context reset" || startsWith content "---\nContinue your analysis"

def isRealUser (m : ChatMessage) : Bool := m.role = .user && !isNudgeOrReinforcement m.content

/-- Where the body starts: after the system prompt and the memory message. -/
def detectBodyStart (messages : List ChatMessage) : ℕ :=
  if (messages[1]?).any fun m => m.role = .user && startsWith m.content "[Thread Memory" then 2
  else 1

def ContentPart.estimateTokens : ContentPart → ℕ
  | .text text => text.utf8ByteSize / 4
  | .image _ _ => 516

def estimateContentTokens (m : ChatMessage) : ℕ :=
  match m.content_parts with
  | some parts => (parts.map ContentPart.estimateTokens).sum
  | none       => m.content.utf8ByteSize / 4

/-- A group of messages that is not split, from `start` up to `end_`. -/
structure Turn where
  start : ℕ
  end_ : ℕ
  tokens : ℕ
  has_user_request : Bool
  deriving DecidableEq

/-- The turns from index `i` on; the current turn starts at `start`. -/
def parseTurns.go (i start tokens : ℕ) (has_user : Bool) : List ChatMessage → List Turn
  | [] => if start < i then [⟨start, i, tokens, has_user⟩] else []
  | m :: ms =>
    let cost := estimateContentTokens m + 4
    if isRealUser m ∧ start < i then ⟨start, i, tokens, has_user⟩ :: go (i + 1) i cost true ms
    else go (i + 1) start (tokens + cost) (has_user || isRealUser m) ms

def parseTurns (messages : List ChatMessage) (body_start : ℕ) : List Turn :=
  parseTurns.go body_start body_start 0 false (messages.drop body_start)

lemma parseTurns.go_start {i start tokens : ℕ} {has_user : Bool} {ms : List ChatMessage}
    (h : start ≤ i) {turn : Turn} (hturn : turn ∈ go i start tokens has_user ms) :
    start ≤ turn.start ∧ turn.start < i + ms.length := by
  induction ms generalizing i start tokens has_user with
  | nil =>
    simp only [go] at hturn
    split_ifs at hturn with hlt
    · obtain rfl := List.mem_singleton.mp hturn
      simpa using hlt
    · cases hturn
  | cons m ms ih =>
    unfold go at hturn
    simp only at hturn
    rw [List.length_cons]
    split_ifs at hturn with hnew
    · obtain rfl | hturn := List.mem_cons.mp hturn
      · simp only
        omega
      · have := ih (by omega) hturn
        omega
    · have := ih (by omega) hturn
      omega

lemma parseTurns_start {messages : List ChatMessage} {body_start : ℕ} {turn : Turn}
    (hturn : turn ∈ parseTurns messages body_start) :
    body_start ≤ turn.start ∧ turn.start < messages.length := by
  have := parseTurns.go_start (Nat.le_refl _) hturn
  rw [List.length_drop] at this
  omega

def slidingWindowTailTokens : ℕ := 6000

def slidingWindowMinTurns : ℕ := 2

/-- Walk the turns from the last one; the result is the index of the first turn of the tail. -/
def tailBoundary.go (tokens count : ℕ) (has_user : Bool) : List Turn → ℕ
  | [] => 0
  | turn :: before =>
    let tokens := tokens + turn.tokens
    let count := count + 1
    let has_user := has_user || turn.has_user_request
    if slidingWindowTailTokens ≤ tokens ∧ slidingWindowMinTurns ≤ count ∧ has_user then
      before.length
    else go tokens count has_user before

def tailBoundary (turns : List Turn) : ℕ := tailBoundary.go 0 0 false turns.reverse

/-- The first message that the sliding window keeps, if it trims anything. -/
def safeTrimEnd (messages : List ChatMessage) : Option ℕ :=
  let body_start := detectBodyStart messages
  let turns := parseTurns messages body_start
  if turns.length < 2 ∨ tailBoundary turns = 0 then none
  else
    match turns[tailBoundary turns]? with
    | none => none
    | some turn => if turn.start - body_start = 0 then none else some turn.start

lemma detectBodyStart_pos (messages : List ChatMessage) : 1 ≤ detectBodyStart messages := by
  simp only [detectBodyStart]
  split_ifs <;> decide

lemma safeTrimEnd_bounds {messages : List ChatMessage} {e : ℕ} (h : safeTrimEnd messages = some e) :
    2 ≤ e ∧ e < messages.length := by
  unfold safeTrimEnd at h
  simp only at h
  split_ifs at h
  split at h
  · cases h
  · rename_i turn hturn
    obtain ⟨-, hlt⟩ := parseTurns_start (List.mem_of_getElem? hturn)
    have := detectBodyStart_pos messages
    split_ifs at h with htrim
    cases h
    omega

/-! ### Rows -/

/-- The number of the row that the last message before `exclusive_end` maps to: message `i` is
taken to be row `i - 1` of the history. -/
def mapIndexToSeq (exclusive_end : ℕ) (history : List MessageRow) : Option ℕ :=
  ((if 2 ≤ exclusive_end then history[exclusive_end - 2]? else none).or history.getLast?).map
    (·.seq)

/-- The write that fails. -/
inductive DbFault where
  | mark | summary
  deriving DecidableEq, Repr

/-- Mark the rows and store the summary; the result is the number of the summary row. -/
def persist (t : Thread) (fault : Option DbFault) (up_to_seq : ℕ) (summary : String)
    (compacted_count : ℕ) (agent_name : Option String) : Thread × Option ℕ :=
  let marked := t.markMessagesCompacted up_to_seq
  match fault with
  | some .mark    => (t, none)
  | some .summary => (marked, none)
  | none =>
    (marked.insertCompactionSummary summary compacted_count up_to_seq agent_name,
      some marked.nextSeq)

def contextSummary (message_count : ℕ) (summary : String) : ChatMessage where
  role := .user
  content := "[Context Summary — " ++ toString message_count ++
    " earlier messages were summarized]\n\n" ++ summary

def memoryKeys (memory : List (String × String)) : String :=
  String.intercalate "," (memory.map (·.1))

section Trims

variable (t : Thread) (history : List MessageRow) (agent_name : Option String)
  (fault : Option DbFault) (messages : List Held)

/-- The common end of the three functions: persist the cut at `e`, and put `inserted`, which may
refer to the summary row, between the system prompt and the tail. -/
def trimAt (e : ℕ) (summary : String) (compacted_count : ℕ) (inserted : ℕ → List Held) :
    Thread × Option (List Held) :=
  match mapIndexToSeq e history with
  | none => (t, none)
  | some up_to_seq =>
    match persist t fault up_to_seq summary compacted_count agent_name with
    | (t, none)     => (t, none)
    | (t, some seq) => (t, some (messages.take 1 ++ inserted seq ++ messages.drop e))

/-- The summary of the model is `none` when the request for it fails. -/
def tryCompact (summary : Option String) : Thread × Option (List Held) :=
  match selectMessagesForCompaction (messages.map (·.msg)), summary with
  | some plan, some summary =>
    trimAt t history agent_name fault messages plan.compact_end summary plan.message_count
      fun seq => [⟨contextSummary plan.message_count summary, some seq⟩]
  | _, _ => (t, none)

def localContextReset (estimated : ℕ) (memory : List (String × String)) :
    Thread × Option (List Held) :=
  match selectMessagesForCompaction (messages.map (·.msg)) with
  | none => (t, none)
  | some plan =>
    let marker := "[Context reset | reason=threshold_reset | pre_tokens=" ++ toString estimated
      ++ " | memory_keys=" ++ memoryKeys memory ++ "]"
    trimAt t history agent_name fault messages plan.compact_end marker plan.message_count
      fun _ => heldMemory memory

/-- Nothing is trimmed while the estimate is within the trigger. -/
def slidingWindowTrim (estimated trigger : ℕ) (memory : List (String × String)) :
    Thread × Option (List Held) :=
  let msgs := messages.map (·.msg)
  match (if estimated ≤ trigger then none else safeTrimEnd msgs) with
  | none => (t, none)
  | some safe_trim_end =>
    let turns := parseTurns msgs (detectBodyStart msgs)
    let turns_trimmed := tailBoundary turns
    let marker := "[Sliding window trim | reason=sliding_window | pre_tokens="
      ++ toString estimated ++ " | turns_trimmed=" ++ toString turns_trimmed
      ++ " | turns_kept=" ++ toString (turns.length - turns_trimmed)
      ++ " | memory_keys=" ++ memoryKeys memory ++ "]"
    trimAt t history agent_name fault messages safe_trim_end marker
      (safe_trim_end - detectBodyStart msgs) fun _ => heldMemory memory

end Trims

/-! ### The common shape -/

/-- A call of one of the three functions. -/
inductive Trim where
  | tryCompact (summary : Option String)
  | localContextReset (estimated : ℕ) (memory : List (String × String))
  | slidingWindowTrim (estimated trigger : ℕ) (memory : List (String × String))

namespace Trim

def run (t : Thread) (history : List MessageRow) (agent_name : Option String)
    (fault : Option DbFault) (messages : List Held) : Trim → Thread × Option (List Held)
  | .tryCompact summary => Agents.tryCompact t history agent_name fault messages summary
  | .localContextReset estimated memory =>
    Agents.localContextReset t history agent_name fault messages estimated memory
  | .slidingWindowTrim estimated trigger memory =>
    Agents.slidingWindowTrim t history agent_name fault messages estimated trigger memory

/-- The index of the first message that is kept after the system prompt. -/
def cut (messages : List ChatMessage) : Trim → Option ℕ
  | .tryCompact _ => (selectMessagesForCompaction messages).map (·.compact_end)
  | .localContextReset _ _ => (selectMessagesForCompaction messages).map (·.compact_end)
  | .slidingWindowTrim estimated trigger _ =>
    if estimated ≤ trigger then none else safeTrimEnd messages

lemma cut_bounds {trim : Trim} {messages : List ChatMessage} {e : ℕ}
    (h : trim.cut messages = some e) : 2 ≤ e ∧ e < messages.length := by
  cases trim with
  | tryCompact _ | localContextReset _ _ =>
    obtain ⟨plan, hplan, rfl⟩ := Option.map_eq_some_iff.mp h
    exact selectMessagesForCompaction_bounds hplan
  | slidingWindowTrim estimated trigger memory =>
    simp only [cut] at h
    split_ifs at h
    exact safeTrimEnd_bounds h

end Trim

/-- What a trim makes of the rows of a thread: rows up to a row of the history are marked, and
summary rows are added. -/
inductive Trimmed (history : List MessageRow) : Thread → Thread → Prop where
  | refl (t : Thread) : Trimmed history t t
  | mark {t t' : Thread} {r : MessageRow} : Trimmed history t t' → r ∈ history →
      Trimmed history t (t'.markMessagesCompacted r.seq)
  | summary {t t' : Thread} (summary : String) (count up_to_seq : ℕ)
      (agent_name : Option String) : Trimmed history t t' →
      Trimmed history t (t'.insertCompactionSummary summary count up_to_seq agent_name)

lemma mapIndexToSeq_mem {e up_to_seq : ℕ} {history : List MessageRow}
    (h : mapIndexToSeq e history = some up_to_seq) : ∃ r ∈ history, r.seq = up_to_seq := by
  obtain ⟨r, hr, rfl⟩ := Option.map_eq_some_iff.mp h
  refine ⟨r, ?_, rfl⟩
  rcases Option.or_eq_some_iff.mp hr with hget | ⟨-, hlast⟩
  · split_ifs at hget
    exact List.mem_of_getElem? hget
  · exact List.mem_of_getLast? hlast

section Effect

variable {t₀ t : Thread} {history : List MessageRow} (agent_name : Option String)
  (fault : Option DbFault) (messages : List Held)

lemma Trimmed.persist (h : Trimmed history t₀ t) {r : MessageRow} (hr : r ∈ history)
    (summary : String) (count : ℕ) :
    Trimmed history t₀ (persist t fault r.seq summary count agent_name).1 := by
  simp only [Agents.persist]
  match fault with
  | none          => exact .summary _ _ _ _ (.mark h hr)
  | some .mark    => exact h
  | some .summary => exact .mark h hr

lemma Trimmed.trimAt (h : Trimmed history t₀ t) (e : ℕ) (summary : String) (count : ℕ)
    (inserted : ℕ → List Held) :
    Trimmed history t₀
      (trimAt t history agent_name fault messages e summary count inserted).1 := by
  simp only [Agents.trimAt]
  split
  · exact h
  · rename_i up_to_seq hmap
    obtain ⟨r, hr, rfl⟩ := mapIndexToSeq_mem hmap
    have := h.persist agent_name fault hr summary count
    split <;> rename_i hpersist <;> rwa [hpersist] at this

lemma Trimmed.tryCompact (h : Trimmed history t₀ t) (summary : Option String) :
    Trimmed history t₀ (tryCompact t history agent_name fault messages summary).1 := by
  simp only [Agents.tryCompact]
  split
  · exact h.trimAt _ _ _ _ _ _ _
  · exact h

lemma Trimmed.localContextReset (h : Trimmed history t₀ t) (estimated : ℕ)
    (memory : List (String × String)) :
    Trimmed history t₀
      (localContextReset t history agent_name fault messages estimated memory).1 := by
  simp only [Agents.localContextReset]
  split
  · exact h
  · exact h.trimAt _ _ _ _ _ _ _

lemma Trimmed.slidingWindowTrim (h : Trimmed history t₀ t) (estimated trigger : ℕ)
    (memory : List (String × String)) :
    Trimmed history t₀
      (slidingWindowTrim t history agent_name fault messages estimated trigger memory).1 := by
  unfold Agents.slidingWindowTrim
  simp only
  split
  · exact h
  · exact h.trimAt _ _ _ _ _ _ _

end Effect

/-! ### Preflight check -/

/-- Remove the tool messages that follow no tool call. -/
def dropOrphans (in_tool_group : Bool) : List Held → List Held
  | [] => []
  | m :: ms =>
    match m.msg.role with
    | .assistant => m :: dropOrphans (!m.msg.tool_calls.isEmpty) ms
    | .tool => if in_tool_group then m :: dropOrphans true ms else dropOrphans false ms
    | _ => m :: dropOrphans false ms

/-- Before a request to a local model: put the memory message back, and remove orphans. The list
stays as it is if it does not start with the system prompt. -/
def preflightCheck (messages : List Held) (memory_pairs : List (String × String)) : List Held :=
  if messages.head?.any fun m => m.msg.role = .system then
    let messages :=
      if detectBodyStart (messages.map (·.msg)) = 2 then messages
      else messages.take 1 ++ heldMemory memory_pairs ++ messages.drop 1
    let body_start := detectBodyStart (messages.map (·.msg))
    messages.take body_start ++ dropOrphans false (messages.drop body_start)
  else messages

end Arbeiterfarm.Agents
