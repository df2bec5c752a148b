import Arbeiterfarm.Agents.ToolGroups

/-!
# The sliding window

`parseTurns` cuts the body of a conversation into turns, at the messages that a user wrote. The
sliding window keeps the shortest run of turns at the end that meets the minimum, so what it
removes is a run of whole turns at the start of the body.
-/

namespace Arbeiterfarm.Agents

variable {messages : List ChatMessage}

/-! ### Turns -/

/-- The turns tile the messages from `i` on: each starts where the one before it ends, and none is
empty. -/
def Tiles (messages : List ChatMessage) : ℕ → List Turn → Prop
  | i, [] => messages.length ≤ i
  | i, turn :: turns =>
    turn.start = i ∧ i < turn.end_ ∧ turn.end_ ≤ messages.length ∧ Tiles messages turn.end_ turns

lemma Tiles.exists_start {i : ℕ} {turns : List Turn} (h : Tiles messages i turns)
    (hi : i < messages.length) : ∃ turn ∈ turns, turn.start = i := by
  cases turns with
  | nil => exact absurd hi (Nat.not_lt.mpr h)
  | cons turn turns => exact ⟨turn, List.mem_cons_self, h.1⟩

lemma Tiles.le_start {i : ℕ} {turns : List Turn} {turn : Turn} (h : Tiles messages i turns)
    (hturn : turn ∈ turns) : i ≤ turn.start := by
  induction turns generalizing i with
  | nil => cases hturn
  | cons first turns ih =>
    obtain ⟨hstart, hlt, -, htiles⟩ := h
    rcases List.mem_cons.mp hturn with rfl | hturn
    · exact Nat.le_of_eq hstart.symm
    · exact Nat.le_trans (Nat.le_of_lt hlt) (ih htiles hturn)

/-- A later turn starts later. -/
lemma Tiles.pairwise {i : ℕ} {turns : List Turn} (h : Tiles messages i turns) :
    turns.Pairwise fun turn turn' => turn.start < turn'.start := by
  induction turns generalizing i with
  | nil => exact .nil
  | cons first turns ih =>
    obtain ⟨hstart, hlt, -, htiles⟩ := h
    refine .cons ?_ (ih htiles)
    intro turn hturn
    have := htiles.le_start hturn
    omega

lemma Tiles.start_lt {i k k' : ℕ} {turns : List Turn} {turn turn' : Turn}
    (h : Tiles messages i turns) (hturn : turns[k]? = some turn) (hturn' : turns[k']? = some turn')
    (hlt : k < k') : turn.start < turn'.start := by
  obtain ⟨hk, rfl⟩ := List.getElem?_eq_some_iff.mp hturn
  obtain ⟨hk', rfl⟩ := List.getElem?_eq_some_iff.mp hturn'
  exact List.pairwise_iff_getElem.mp h.pairwise k k' hk hk' hlt

lemma Tiles.lt_start {i k : ℕ} {turns : List Turn} {turn : Turn} (h : Tiles messages i turns)
    (hturn : turns[k]? = some turn) (hk : 0 < k) : i < turn.start := by
  obtain ⟨first, hfirst⟩ : ∃ first, turns[0]? = some first := by
    cases turns with
    | nil => cases hturn
    | cons first turns => exact ⟨first, rfl⟩
  exact Nat.lt_of_le_of_lt (h.le_start (List.mem_of_getElem? hfirst)) (h.start_lt hfirst hturn hk)

/-- The tokens of the messages of a turn. -/
def turnTokens (messages : List ChatMessage) (start end_ : ℕ) : ℕ :=
  (((messages.drop start).take (end_ - start)).map fun m => estimateContentTokens m + 4).sum

def HasRequest (messages : List ChatMessage) (start end_ : ℕ) : Prop :=
  ∃ u, start ≤ u ∧ u < end_ ∧ IsRealUser messages u

/-- What is recorded about a turn is so. -/
structure Turn.Describes (turn : Turn) (messages : List ChatMessage) : Prop where
  tokens : turn.tokens = turnTokens messages turn.start turn.end_
  has_user_request : turn.has_user_request ↔ HasRequest messages turn.start turn.end_

/-- The body is cut into turns at the requests. -/
structure CutAtRequests (messages : List ChatMessage) (body_start : ℕ) (turns : List Turn) :
    Prop where
  tiles : Tiles messages body_start turns
  starts : ∀ i, body_start < i → ((∃ turn ∈ turns, turn.start = i) ↔ IsRealUser messages i)
  describes : ∀ turn ∈ turns, turn.Describes messages

lemma turnTokens_self (start : ℕ) : turnTokens messages start start = 0 := by simp [turnTokens]

lemma turnTokens_succ {start i : ℕ} {m : ChatMessage} (h : start ≤ i) (hm : messages[i]? = some m) :
    turnTokens messages start (i + 1) =
      turnTokens messages start i + (estimateContentTokens m + 4) := by
  have hget : (messages.drop start)[i - start]? = some m := by
    rw [List.getElem?_drop, Nat.add_sub_of_le h]
    exact hm
  simp only [turnTokens]
  rw [show i + 1 - start = (i - start) + 1 by omega, List.take_add_one, hget]
  simp

lemma not_hasRequest_self (start : ℕ) : ¬ HasRequest messages start start := by
  rintro ⟨u, hle, hlt, -⟩
  omega

lemma hasRequest_succ {start i : ℕ} {m : ChatMessage} (h : start ≤ i) (hm : messages[i]? = some m) :
    HasRequest messages start (i + 1) ↔ HasRequest messages start i ∨ isRealUser m := by
  constructor
  · rintro ⟨u, hle, hlt, hu⟩
    rcases Nat.lt_or_ge u i with hui | hui
    · exact .inl ⟨u, hle, hui, hu⟩
    · obtain rfl : u = i := by omega
      obtain ⟨m', hm', hreal⟩ := hu
      rw [hm] at hm'
      cases hm'
      exact .inr hreal
  · rintro (⟨u, hle, hlt, hu⟩ | hreal)
    · exact ⟨u, hle, by omega, hu⟩
    · exact ⟨i, h, by omega, m, hm, hreal⟩

lemma isRealUser_iff {i : ℕ} {m : ChatMessage} (hm : messages[i]? = some m) :
    IsRealUser messages i ↔ isRealUser m := by
  constructor
  · rintro ⟨m', hm', hreal⟩
    rw [hm] at hm'
    cases hm'
    exact hreal
  · intro hreal
    exact ⟨m, hm, hreal⟩

/-- The turns that the loop makes of the messages from `i` on, the current turn having started at
`start`. The induction is on these messages; what is known of the current turn is carried along. -/
lemma parseTurns.go_cut (i start tokens : ℕ) (has_user : Bool) {ms : List ChatMessage}
    (hms : ms = messages.drop i) (hle : start ≤ i) (hi : start < i → i ≤ messages.length)
    (htokens : tokens = turnTokens messages start i)
    (huser : has_user ↔ HasRequest messages start i) :
    Tiles messages start (go i start tokens has_user ms) ∧
      (∀ k, start < k → i ≤ k → IsRealUser messages k →
        ∃ turn ∈ go i start tokens has_user ms, turn.start = k) ∧
      ∀ turn ∈ go i start tokens has_user ms,
        (turn.start = start ∨ IsRealUser messages turn.start) ∧ turn.Describes messages := by
  induction ms generalizing i start tokens has_user with
  | nil =>
    have hlen : messages.length ≤ i := List.drop_eq_nil_iff.mp hms.symm
    have hnone : ∀ k, i ≤ k → ¬ IsRealUser messages k := by
      rintro k hk ⟨m, hm, -⟩
      have := (List.getElem?_eq_some_iff.mp hm).1
      omega
    simp only [go]
    split_ifs with hlt
    · refine ⟨⟨rfl, hlt, hi hlt, hlen⟩, fun k _ hk hreal => absurd hreal (hnone k hk), ?_⟩
      intro turn hturn
      obtain rfl := List.mem_singleton.mp hturn
      exact ⟨.inl rfl, htokens, huser⟩
    · obtain rfl : start = i := by omega
      exact ⟨hlen, fun k _ hk hreal => absurd hreal (hnone k hk), by simp⟩
  | cons m ms ih =>
    have hm : messages[i]? = some m := by
      rw [← List.head?_drop, ← hms]
      rfl
    have hilt := (List.getElem?_eq_some_iff.mp hm).1
    have hms' : ms = messages.drop (i + 1) := by
      rw [← List.tail_drop, ← hms]
      rfl
    unfold go
    simp only
    split_ifs with hnew
    · obtain ⟨htiles, hstarts, hturns⟩ := ih (i + 1) i (estimateContentTokens m + 4) true
        hms' (by omega)
        (fun _ => hilt) (by rw [turnTokens_succ (Nat.le_refl i) hm, turnTokens_self, Nat.zero_add])
        (by simp [hasRequest_succ (Nat.le_refl i) hm, hnew.1])
      refine ⟨⟨rfl, hnew.2, Nat.le_of_lt hilt, htiles⟩, ?_, ?_⟩
      · intro k hk hik hreal
        rcases Nat.lt_or_ge i k with hlt | hge
        · obtain ⟨turn, hturn, hstart⟩ := hstarts k hlt hlt hreal
          exact ⟨turn, List.mem_cons_of_mem _ hturn, hstart⟩
        · obtain rfl : k = i := by omega
          obtain ⟨turn, hturn, hstart⟩ := htiles.exists_start hilt
          exact ⟨turn, List.mem_cons_of_mem _ hturn, hstart⟩
      · intro turn hturn
        obtain rfl | hturn := List.mem_cons.mp hturn
        · exact ⟨.inl rfl, htokens, huser⟩
        · obtain ⟨hstart | hstart, hdescribes⟩ := hturns turn hturn
          · exact ⟨.inr (hstart ▸ (isRealUser_iff hm).mpr hnew.1), hdescribes⟩
          · exact ⟨.inr hstart, hdescribes⟩
    · obtain ⟨htiles, hstarts, hturns⟩ := ih (i + 1) start
        (tokens + (estimateContentTokens m + 4)) (has_user || isRealUser m) hms' (by omega)
        (fun _ => hilt) (by rw [turnTokens_succ hle hm, htokens])
        (by rw [hasRequest_succ hle hm, Bool.or_eq_true, huser])
      refine ⟨htiles, ?_, hturns⟩
      intro k hk hik hreal
      rcases Nat.lt_or_ge i k with hlt | hge
      · exact hstarts k hk hlt hreal
      · obtain rfl : k = i := by omega
        exact absurd ⟨(isRealUser_iff hm).mp hreal, hk⟩ hnew

theorem cutAtRequests_parseTurns (messages : List ChatMessage) (body_start : ℕ) :
    CutAtRequests messages body_start (parseTurns messages body_start) := by
  obtain ⟨htiles, hstarts, hturns⟩ := parseTurns.go_cut body_start body_start 0 false
    (rfl : messages.drop body_start = _) (Nat.le_refl _)
    (fun h => absurd h (Nat.lt_irrefl _)) (turnTokens_self _).symm
    (by simp [not_hasRequest_self])
  refine ⟨htiles, ?_, fun turn hturn => (hturns turn hturn).2⟩
  intro i hi
  constructor
  · rintro ⟨turn, hturn, rfl⟩
    rcases (hturns turn hturn).1 with hstart | hreal
    · omega
    · exact hreal
  · exact hstarts i hi (Nat.le_of_lt hi)

/-! ### The tail -/

/-- The turns from number `k` on are enough to keep. -/
structure MeetsMinimum (turns : List Turn) (k : ℕ) : Prop where
  tokens : slidingWindowTailTokens ≤ ((turns.drop k).map (·.tokens)).sum
  count : slidingWindowMinTurns ≤ (turns.drop k).length
  request : (turns.drop k).any (·.has_user_request)

lemma MeetsMinimum.lt_length {turns : List Turn} {k : ℕ} (h : MeetsMinimum turns k) :
    k < turns.length := by
  have := h.count
  rw [List.length_drop, slidingWindowMinTurns] at this
  omega

/-- The walk over the turns before `tail`, the last one first, stops at the first that completes the
minimum. -/
lemma tailBoundary.go_spec (before tail : List Turn) :
    let r := go (tail.map (·.tokens)).sum tail.length (tail.any (·.has_user_request)) before
    r ≤ before.length ∧ (0 < r → MeetsMinimum (before.reverse ++ tail) r) ∧
      ∀ k, r < k → k < before.length → ¬ MeetsMinimum (before.reverse ++ tail) k := by
  induction before generalizing tail with
  | nil =>
    exact ⟨Nat.le_refl _, fun h => absurd h (Nat.lt_irrefl _),
      fun k _ hk => absurd hk (Nat.not_lt_zero k)⟩
  | cons turn before ih =>
    have hdrop : (before.reverse ++ turn :: tail).drop before.length = turn :: tail :=
      List.drop_left' (List.length_reverse)
    rw [show (turn :: before).reverse ++ tail = before.reverse ++ turn :: tail by simp]
    simp only [go]
    split_ifs with hmin
    · refine ⟨Nat.le_succ _, fun _ => ⟨?_, ?_, ?_⟩, ?_⟩
      · rw [hdrop, List.map_cons, List.sum_cons, Nat.add_comm]
        exact hmin.1
      · rw [hdrop]
        exact hmin.2.1
      · rw [hdrop, List.any_cons, Bool.or_comm]
        exact hmin.2.2
      · intro k hk hlt
        rw [List.length_cons] at hlt
        omega
    · have := ih (turn :: tail)
      rw [List.map_cons, List.sum_cons, List.length_cons, List.any_cons, Nat.add_comm,
        Bool.or_comm] at this
      obtain ⟨hle, hmeets, hlater⟩ := this
      refine ⟨Nat.le_succ_of_le hle, hmeets, ?_⟩
      intro k hk hlt hkmeets
      rcases Nat.lt_or_ge k before.length with hklt | hkge
      · exact hlater k hk hklt hkmeets
      · rw [List.length_cons] at hlt
        obtain rfl : k = before.length := by omega
        obtain ⟨htokens, hturns, hrequest⟩ := hkmeets
        rw [hdrop] at htokens hturns hrequest
        rw [List.map_cons, List.sum_cons, Nat.add_comm] at htokens
        rw [List.any_cons, Bool.or_comm] at hrequest
        exact hmin ⟨htokens, hturns, hrequest⟩

lemma tailBoundary_spec (turns : List Turn) :
    (0 < tailBoundary turns → MeetsMinimum turns (tailBoundary turns)) ∧
      ∀ k, tailBoundary turns < k → ¬ MeetsMinimum turns k := by
  obtain ⟨-, hmeets, hlater⟩ := tailBoundary.go_spec turns.reverse []
  rw [List.reverse_reverse, List.append_nil] at hmeets hlater
  refine ⟨hmeets, ?_⟩
  intro k hk hkmeets
  exact hlater k hk (by rw [List.length_reverse]; exact hkmeets.lt_length) hkmeets

/-- The number of the first turn of the shortest tail that meets the minimum. -/
structure IsTail (turns : List Turn) (k : ℕ) (turn : Turn) : Prop where
  pos : 0 < k
  get : turns[k]? = some turn
  meets : MeetsMinimum turns k
  shortest : ∀ k', k < k' → ¬ MeetsMinimum turns k'

lemma safeTrimEnd_spec (messages : List ChatMessage) :
    let turns := parseTurns messages (detectBodyStart messages)
    match safeTrimEnd messages with
    | some e => ∃ k turn, IsTail turns k turn ∧ turn.start = e
    | none => ∀ k, 0 < k → ¬ MeetsMinimum turns k := by
  have htiles := (cutAtRequests_parseTurns messages (detectBodyStart messages)).tiles
  simp only [safeTrimEnd]
  generalize parseTurns messages (detectBodyStart messages) = turns at htiles ⊢
  obtain ⟨hmeets, hlater⟩ := tailBoundary_spec turns
  by_cases hfew : turns.length < 2 ∨ tailBoundary turns = 0
  · rw [if_pos hfew]
    intro k hk hkmeets
    rcases hfew with hfew | hzero
    · have := hkmeets.count
      rw [List.length_drop, slidingWindowMinTurns] at this
      omega
    · exact hlater k (by omega) hkmeets
  · rw [if_neg hfew]
    have hpos : 0 < tailBoundary turns := by omega
    have hlt := (hmeets hpos).lt_length
    rw [List.getElem?_eq_getElem hlt]
    have hstart := htiles.lt_start (List.getElem?_eq_getElem hlt) hpos
    simp only
    rw [if_neg (by omega)]
    exact ⟨_, _, ⟨hpos, List.getElem?_eq_getElem hlt, hmeets hpos, hlater⟩, rfl⟩

/-! ### The trim -/

structure ToolDescription where
  name : String
  description : String
  parameters : Json

section Estimate

variable (jsonLen : Json → ℕ)

/-- `jsonLen` is the length of the text of a value. -/
def ToolDescription.estimateTokens (tool : ToolDescription) : ℕ :=
  tool.name.utf8ByteSize / 4 + 2 + tool.description.utf8ByteSize / 4 +
    jsonLen tool.parameters / 4 + 10

def estimateMessageTokens (m : ChatMessage) : ℕ :=
  estimateContentTokens m + 4 +
    (m.tool_calls.map fun tc => tc.name.utf8ByteSize / 4 + 4 + jsonLen tc.arguments / 4).sum +
    match m.role, m.name with
    | .tool, some name => name.utf8ByteSize / 4 + 2
    | _, _             => 0

def estimateTokens (messages : List ChatMessage) (tools : List ToolDescription) : ℕ :=
  (messages.map (estimateMessageTokens jsonLen)).sum +
    (tools.map (ToolDescription.estimateTokens jsonLen)).sum

lemma estimateTokens_le_of_start_le (tools : List ToolDescription) (kept : List ChatMessage)
    {e e' : ℕ} (h : e ≤ e') :
    estimateTokens jsonLen (kept ++ messages.drop e') tools ≤
      estimateTokens jsonLen (kept ++ messages.drop e) tools := by
  have hsplit : messages.drop e = (messages.drop e).take (e' - e) ++ messages.drop e' := by
    conv_lhs => rw [← List.take_append_drop (e' - e) (messages.drop e)]
    rw [List.drop_drop, Nat.add_sub_of_le h]
  rw [hsplit]
  simp only [estimateTokens, List.map_append, List.sum_append]
  omega

end Estimate

/-- The list with `turn` as the first turn of the tail. -/
def rebuild (messages : List Held) (memory : List (String × String)) (turn : Turn) : List Held :=
  messages.take 1 ++ heldMemory memory ++ messages.drop turn.start

/-- The turns before `turn`, which has number `k`, were removed, and the memory message was
replaced by one of what is stored now. -/
structure TrimmedTo (jsonLen : Json → ℕ) (tools : List ToolDescription) (trigger : ℕ)
    (memory : List (String × String)) (messages kept : List Held) (k : ℕ) (turn : Turn) :
    Prop where
  tail : IsTail (parseTurns (messages.map (·.msg)) (detectBodyStart (messages.map (·.msg)))) k turn
  eq : kept = rebuild messages memory turn
  groups : ∀ i j, Answers (messages.map (·.msg)) i j → (turn.start ≤ i ↔ turn.start ≤ j)
  request : ∃ u, LastRealUser (messages.map (·.msg)) u ∧ turn.start ≤ u
  budget : ∀ k' turn',
    (parseTurns (messages.map (·.msg)) (detectBodyStart (messages.map (·.msg))))[k']? =
      some turn' →
    MeetsMinimum (parseTurns (messages.map (·.msg)) (detectBodyStart (messages.map (·.msg)))) k' →
    estimateTokens jsonLen ((rebuild messages memory turn').map (·.msg)) tools ≤ trigger →
    estimateTokens jsonLen (kept.map (·.msg)) tools ≤ trigger

lemma trimmedTo_of_isTail (jsonLen : Json → ℕ) (tools : List ToolDescription) (trigger : ℕ)
    (memory : List (String × String)) (messages : List Held) {k : ℕ} {turn : Turn}
    (h : IsTail (parseTurns (messages.map (·.msg)) (detectBodyStart (messages.map (·.msg)))) k
      turn) :
    TrimmedTo jsonLen tools trigger memory messages (rebuild messages memory turn) k turn := by
  have hcut := cutAtRequests_parseTurns (messages.map (·.msg))
    (detectBodyStart (messages.map (·.msg)))
  refine ⟨h, rfl, ?_, ?_, ?_⟩
  all_goals
    generalize parseTurns (messages.map (·.msg)) (detectBodyStart (messages.map (·.msg))) = turns
      at h hcut
  · intro i j hanswers
    have hreal : IsRealUser (messages.map (·.msg)) turn.start :=
      (hcut.starts turn.start (hcut.tiles.lt_start h.get h.pos)).mp
        ⟨turn, List.mem_of_getElem? h.get, rfl⟩
    constructor
    · intro hi
      by_contra hj
      have := hanswers.lt_of_isRealUser hreal (by omega)
      omega
    · intro hj
      exact Nat.le_trans hj (Nat.le_of_lt hanswers.lt)
  · obtain ⟨turn', hturn', hrequest⟩ := List.any_eq_true.mp h.meets.request
    obtain ⟨n, hn⟩ := List.mem_iff_getElem?.mp hturn'
    rw [List.getElem?_drop] at hn
    obtain ⟨u, hle, -, hu⟩ :=
      (hcut.describes turn' (List.mem_of_getElem? hn)).has_user_request.mp hrequest
    obtain ⟨v, hv, huv⟩ := exists_lastRealUser hu
    have hstart : turn.start ≤ turn'.start := by
      rcases Nat.eq_zero_or_pos n with rfl | hpos
      · rw [Nat.add_zero, h.get] at hn
        cases hn
        exact Nat.le_refl _
      · exact Nat.le_of_lt (hcut.tiles.start_lt h.get hn (by omega))
    exact ⟨v, hv, by omega⟩
  · intro k' turn' hturn' hmeets hfits
    have hk : k' ≤ k := by
      by_contra hlt
      exact h.shortest k' (by omega) hmeets
    have hstart : turn'.start ≤ turn.start := by
      rcases Nat.lt_or_eq_of_le hk with hlt | rfl
      · exact Nat.le_of_lt (hcut.tiles.start_lt hturn' h.get hlt)
      · rw [h.get] at hturn'
        cases hturn'
        exact Nat.le_refl _
    simp only [rebuild, List.map_append, List.map_drop] at hfits ⊢
    exact Nat.le_trans (estimateTokens_le_of_start_le jsonLen tools _ hstart) hfits

lemma mapIndexToSeq_eq_none {e : ℕ} {history : List MessageRow}
    (h : mapIndexToSeq e history = none) : history = [] := by
  simp only [mapIndexToSeq, Option.map_eq_none_iff, Option.or_eq_none_iff] at h
  exact List.getLast?_eq_none_iff.mp h.2

lemma snd_trimAt (t : Thread) (history : List MessageRow) (agent_name : Option String)
    (fault : Option DbFault) (messages inserted : List Held) (e count : ℕ) (summary : String) :
    (trimAt t history agent_name fault messages e summary count fun _ => inserted).2 = none ∧
        (history = [] ∨ fault ≠ none) ∨
      (trimAt t history agent_name fault messages e summary count fun _ => inserted).2 =
        some (messages.take 1 ++ inserted ++ messages.drop e) := by
  cases hmap : mapIndexToSeq e history with
  | none => exact .inl ⟨by simp only [trimAt, hmap], .inl (mapIndexToSeq_eq_none hmap)⟩
  | some up_to_seq =>
    cases fault with
    | none => exact .inr (by simp only [trimAt, hmap, persist])
    | some fault =>
      refine .inl ⟨?_, .inr (by simp)⟩
      cases fault <;> simp only [trimAt, hmap, persist]

/-- The body is cut into turns at the requests; and the list either stays as it is or loses the
turns before the shortest tail that meets the minimum. -/
theorem slidingWindowTrim_removes_turns (jsonLen : Json → ℕ) (tools : List ToolDescription)
    (trigger : ℕ) (memory : List (String × String)) (t : Thread) (history : List MessageRow)
    (agent_name : Option String) (fault : Option DbFault) (messages : List Held) :
    let msgs := messages.map (·.msg)
    let estimated := estimateTokens jsonLen msgs tools
    (∀ body_start, CutAtRequests msgs body_start (parseTurns msgs body_start)) ∧
      match (slidingWindowTrim t history agent_name fault messages estimated trigger memory).2 with
      | some kept =>
        trigger < estimated ∧
          ∃ k turn, TrimmedTo jsonLen tools trigger memory messages kept k turn
      | none =>
        estimated ≤ trigger ∨
          (∀ k, 0 < k → ¬ MeetsMinimum (parseTurns msgs (detectBodyStart msgs)) k) ∨
          history = [] ∨ fault ≠ none := by
  intro msgs estimated
  refine ⟨cutAtRequests_parseTurns msgs, ?_⟩
  have hspec := safeTrimEnd_spec msgs
  by_cases hwithin : estimated ≤ trigger
  · simp only [slidingWindowTrim, if_pos hwithin]
    exact .inl hwithin
  · simp only [slidingWindowTrim, if_neg hwithin]
    cases hsafe : safeTrimEnd msgs with
    | none =>
      rw [hsafe] at hspec
      exact .inr (.inl hspec)
    | some e =>
      rw [hsafe] at hspec
      obtain ⟨k, turn, htail, rfl⟩ := hspec
      rcases snd_trimAt t history agent_name fault messages (heldMemory memory) turn.start _ _
        with ⟨hnone, hfault⟩ | hkept
      · rw [hnone]
        exact .inr (.inr hfault)
      · rw [hkept]
        exact ⟨Nat.lt_of_not_le hwithin, k, turn,
          trimmedTo_of_isTail jsonLen tools trigger memory messages htail⟩

/-! ### A list that is trimmed -/

/-- A memory message, a greeting of the agent, and three requests, the first with twelve images. -/
def greeted : List Held :=
  [{ msg := systemMessage "sys" },
    { msg := { role := .user, content := "[Thread Memory — findings]\nTASK: triage" } },
    { msg := { role := .assistant, content := "Ready." } },
    { msg := { role := .user, content := "Analyze the screens",
               content_parts := some (List.replicate 12 (.image "" "image/png")) } },
    { msg := { role := .user, content := "Go on" } },
    { msg := { role := .user, content := "Summarize" } }]

/-- The first turn starts at the greeting. With nothing stored the memory message is lost, and the
first request is kept with the two later ones, although these alone would fit. -/
theorem slidingWindowTrim_greeted :
    ∃ t history kept,
      (slidingWindowTrim t history none none greeted
        (estimateTokens (fun _ => 0) (greeted.map (·.msg)) []) 100 []).2 = some kept ∧
      (∃ turn ∈ parseTurns (greeted.map (·.msg)) 2, ¬ IsRealUser (greeted.map (·.msg)) turn.start) ∧
      kept = greeted.take 1 ++ greeted.drop 3 ∧
      100 < estimateTokens (fun _ => 0) (kept.map (·.msg)) [] ∧
      estimateTokens (fun _ => 0) ((greeted.take 2 ++ greeted.drop 4).map (·.msg)) [] ≤ 100 := by
  refine ⟨.new, [{ role := .user, seq := 1 }], _, rfl, ?_, by decide +kernel, by decide +kernel,
    by decide +kernel⟩
  refine ⟨⟨2, 3, 5, false⟩, by decide +kernel, ?_⟩
  rintro ⟨m, hm, hreal⟩
  cases hm
  revert hreal
  decide +kernel

end Arbeiterfarm.Agents
