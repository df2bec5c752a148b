import Arbeiterfarm.Agents.ToolGroups

/-!
# The preflight check

Before a request to a local model the memory message is put back and the tool messages that no
call precedes are removed. Over the list with the memory message the scan is the filter that
keeps what is no such orphan.
-/

namespace Arbeiterfarm.Agents

/-! ### Orphans -/

/-- Walk back from `i` over tool messages; the walk ends at a message with tool calls. -/
def followsCalls (messages : List ChatMessage) : ℕ → Bool
  | 0 => false
  | i + 1 =>
    match messages[i]? with
    | none => false
    | some m =>
      match m.role with
      | .tool      => followsCalls messages i
      | .assistant => !m.tool_calls.isEmpty
      | _          => false

/-- A tool message without calls before its run. -/
def isOrphan (messages : List ChatMessage) (i : ℕ) (m : ChatMessage) : Bool :=
  m.role = .tool && !followsCalls messages i

/-- The messages that are no orphans, in their order. -/
def nonOrphans (messages : List Held) : List Held :=
  (messages.zipIdx.filter fun p => !isOrphan (messages.map (·.msg)) p.2 p.1.msg).map (·.1)

lemma followsCalls_succ {messages : List ChatMessage} {i : ℕ} {m : ChatMessage}
    (hm : messages[i]? = some m) :
    followsCalls messages (i + 1) =
      match m.role with
      | .tool      => followsCalls messages i
      | .assistant => !m.tool_calls.isEmpty
      | _          => false := by
  simp only [followsCalls, hm]

lemma exists_answers_of_followsCalls {messages : List ChatMessage} {i : ℕ}
    (h : followsCalls messages i) (htool : IsTool messages i) : ∃ j, Answers messages i j := by
  induction i with
  | zero => cases h
  | succ i ih =>
    obtain ⟨m, hm⟩ : ∃ m, messages[i]? = some m := by
      obtain ⟨m', hm', -⟩ := htool
      have hlt := (List.getElem?_eq_some_iff.mp hm').1
      exact ⟨_, List.getElem?_eq_getElem (Nat.lt_of_succ_lt hlt)⟩
    rw [followsCalls_succ hm] at h
    cases hrole : m.role with
    | system | user => simp [hrole] at h
    | assistant =>
      refine ⟨i, Nat.lt_succ_self i, ⟨m, hm, hrole, by simpa [hrole] using h⟩, ?_⟩
      intro k hk hki
      obtain rfl : k = i + 1 := by omega
      exact htool
    | tool =>
      rw [hrole] at h
      obtain ⟨j, hlt, hcall, htools⟩ := ih h ⟨m, hm, hrole⟩
      refine ⟨j, by omega, hcall, ?_⟩
      intro k hk hki
      rcases Nat.lt_or_ge i k with hik | hik
      · obtain rfl : k = i + 1 := by omega
        exact htool
      · exact htools k hk hik

/-! ### The scan -/

section Scan

variable (in_tool_group : Bool) {m : Held} (ms : List Held)

lemma dropOrphans_of_assistant (h : m.msg.role = .assistant) :
    dropOrphans in_tool_group (m :: ms) = m :: dropOrphans (!m.msg.tool_calls.isEmpty) ms := by
  simp only [dropOrphans, h]

lemma dropOrphans_of_tool (h : m.msg.role = .tool) :
    dropOrphans in_tool_group (m :: ms) =
      if in_tool_group then m :: dropOrphans true ms else dropOrphans false ms := by
  simp only [dropOrphans, h]

lemma dropOrphans_of_other (hassistant : m.msg.role ≠ .assistant) (htool : m.msg.role ≠ .tool) :
    dropOrphans in_tool_group (m :: ms) = m :: dropOrphans false ms := by
  cases hrole : m.msg.role with
  | system | user => simp only [dropOrphans, hrole]
  | assistant => exact absurd hrole hassistant
  | tool => exact absurd hrole htool

end Scan

/-- The scan from index `i` on is the filter. The induction is on the rest of the list; the flag of
the scan is the result of the walk back. -/
lemma dropOrphans_drop (messages : List Held) (i : ℕ) (rest : List Held)
    (hrest : rest = messages.drop i) :
    dropOrphans (followsCalls (messages.map (·.msg)) i) rest =
      ((rest.zipIdx i).filter fun p => !isOrphan (messages.map (·.msg)) p.2 p.1.msg).map
        (·.1) := by
  induction rest generalizing i with
  | nil => rfl
  | cons m rest ih =>
    have hm : (messages.map (·.msg))[i]? = some m.msg := by
      rw [List.getElem?_map, ← List.head?_drop, ← hrest]
      rfl
    have hrest' : rest = messages.drop (i + 1) := by
      rw [← List.tail_drop, ← hrest]
      rfl
    have hih := ih (i + 1) hrest'
    rw [followsCalls_succ hm] at hih
    rw [List.zipIdx_cons, List.filter_cons]
    cases hrole : m.msg.role with
    | tool =>
      rw [dropOrphans_of_tool _ _ hrole]
      rw [hrole] at hih
      cases hflag : followsCalls (messages.map (·.msg)) i with
      | false =>
        rw [hflag] at hih
        rw [if_neg (by decide), if_neg (by simp [isOrphan, hrole, hflag])]
        exact hih
      | true =>
        rw [hflag] at hih
        rw [if_pos rfl, if_pos (by simp [isOrphan, hflag]), List.map_cons]
        exact congrArg _ hih
    | assistant =>
      rw [dropOrphans_of_assistant _ _ hrole, if_pos (by simp [isOrphan, hrole]), List.map_cons]
      rw [hrole] at hih
      exact congrArg _ hih
    | system | user =>
      rw [dropOrphans_of_other _ _ (by simp [hrole]) (by simp [hrole]),
        if_pos (by simp [isOrphan, hrole]), List.map_cons]
      rw [hrole] at hih
      exact congrArg _ hih

lemma dropOrphans_eq_nonOrphans (messages : List Held) :
    dropOrphans false messages = nonOrphans messages :=
  dropOrphans_drop messages 0 messages rfl

lemma dropOrphans_idempotent (in_tool_group : Bool) (messages : List Held) :
    dropOrphans in_tool_group (dropOrphans in_tool_group messages) =
      dropOrphans in_tool_group messages := by
  induction messages generalizing in_tool_group with
  | nil => rfl
  | cons m messages ih =>
    cases hrole : m.msg.role with
    | tool =>
      rw [dropOrphans_of_tool _ _ hrole]
      cases in_tool_group with
      | true => rw [if_pos rfl, dropOrphans_of_tool _ _ hrole, if_pos rfl, ih]
      | false =>
        rw [if_neg (by decide)]
        exact ih false
    | assistant =>
      rw [dropOrphans_of_assistant _ _ hrole, dropOrphans_of_assistant _ _ hrole, ih]
    | system | user =>
      have hother : m.msg.role ≠ .assistant ∧ m.msg.role ≠ .tool := by simp [hrole]
      rw [dropOrphans_of_other _ _ hother.1 hother.2, dropOrphans_of_other _ _ hother.1 hother.2,
        ih]

/-- A list that the scan leaves as it is has no orphans. -/
lemma grouped_of_dropOrphans_eq_self {messages : List Held}
    (h : dropOrphans false messages = messages) : Grouped (messages.map (·.msg)) := by
  intro i htool
  refine exists_answers_of_followsCalls ?_ htool
  obtain ⟨m, hm, hrole⟩ := htool
  rw [List.getElem?_map, Option.map_eq_some_iff] at hm
  obtain ⟨held, hheld, rfl⟩ := hm
  have hlength := congrArg List.length h
  rw [dropOrphans_eq_nonOrphans, nonOrphans, List.length_map] at hlength
  have hall := List.length_filter_eq_length_iff.mp (hlength.trans List.length_zipIdx.symm)
  have := hall (held, i) (List.mem_zipIdx_iff_getElem?.mpr hheld)
  simpa [isOrphan, hrole] using this

/-! ### The check -/

lemma startsWith_append {s pat : String} (h : startsWith s pat) (t : String) :
    startsWith (s ++ t) pat := by
  simp only [startsWith, List.isPrefixOf_iff_prefix, String.toList_append] at h ⊢
  exact h.trans (List.prefix_append _ _)

lemma startsWith_appendFindings {result pat : String} (h : startsWith result pat)
    (findings : List (String × String)) : startsWith (appendFindings result findings) pat := by
  induction findings generalizing result with
  | nil => exact h
  | cons finding findings ih =>
    obtain ⟨k, v⟩ := finding
    simp only [appendFindings]
    split_ifs
    · exact h
    · exact ih (startsWith_append h _)

lemma startsWith_renderMemory {entries : List (String × String)} (h : entries ≠ []) :
    startsWith (renderMemory entries) "[Thread Memory" := by
  have hhead : startsWith "[Thread Memory]\n" "[Thread Memory" := by decide +kernel
  have hempty : entries.isEmpty = false := by simpa using h
  simp only [renderMemory, hempty, Bool.false_eq_true, if_false]
  apply startsWith_append
  apply startsWith_append
  split_ifs
  · exact startsWith_append (startsWith_append hhead _) _
  · exact startsWith_appendFindings
      (startsWith_append (startsWith_append (startsWith_append hhead _) _) _) _

/-- The memory message that is put back is recognized as such. -/
lemma heldMemory_eq (memory : List (String × String)) :
    heldMemory memory = [] ∨
      ∃ m : Held, heldMemory memory = [m] ∧ m.msg.role = .user ∧
        startsWith m.msg.content "[Thread Memory" := by
  simp only [heldMemory, buildMemoryMessage]
  split_ifs with h
  · exact .inl rfl
  · refine .inr ⟨_, rfl, rfl, startsWith_renderMemory ?_⟩
    rintro rfl
    exact h (.inl rfl)

/-- The message that the check puts after the system prompt. -/
def inserted (messages : List Held) (memory_pairs : List (String × String)) : List Held :=
  if detectBodyStart (messages.map (·.msg)) = 2 then [] else heldMemory memory_pairs

section Prompted

variable {prompt : Held} (hprompt : prompt.msg.role = .system)

include hprompt

lemma dropOrphans_prompt (in_tool_group : Bool) (rest : List Held) :
    dropOrphans in_tool_group (prompt :: rest) = prompt :: dropOrphans false rest :=
  dropOrphans_of_other _ _ (by simp [hprompt]) (by simp [hprompt])

/-- The messages before the body are no tool messages, so the scan may start at the first. -/
lemma take_append_dropOrphans (rest : List Held) :
    (prompt :: rest).take (detectBodyStart ((prompt :: rest).map (·.msg))) ++
        dropOrphans false ((prompt :: rest).drop (detectBodyStart ((prompt :: rest).map (·.msg)))) =
      dropOrphans false (prompt :: rest) := by
  rw [dropOrphans_prompt hprompt]
  simp only [detectBodyStart]
  split_ifs with hmemory
  · cases rest with
    | nil => cases hmemory
    | cons m rest =>
      have hrole : m.msg.role = .user := by
        simp only [List.map_cons, List.getElem?_cons_succ, List.getElem?_cons_zero, Option.any_some,
          Bool.and_eq_true, decide_eq_true_eq] at hmemory
        exact hmemory.1
      rw [dropOrphans_of_other _ _ (by simp [hrole]) (by simp [hrole])]
      rfl
  · rfl

lemma preflightCheck_prompt (rest : List Held) (memory_pairs : List (String × String)) :
    preflightCheck (prompt :: rest) memory_pairs =
      prompt :: (inserted (prompt :: rest) memory_pairs ++ dropOrphans false rest) := by
  have hhead : ((prompt :: rest).head?.any fun m => m.msg.role = .system) = true := by
    simp [hprompt]
  have hlist : (if detectBodyStart ((prompt :: rest).map (·.msg)) = 2 then prompt :: rest
      else (prompt :: rest).take 1 ++ heldMemory memory_pairs ++ (prompt :: rest).drop 1) =
      prompt :: (inserted (prompt :: rest) memory_pairs ++ rest) := by
    simp only [inserted]
    split_ifs
    · rfl
    · simp
  simp only [preflightCheck, hhead, if_true]
  rw [hlist, take_append_dropOrphans hprompt, dropOrphans_prompt hprompt]
  congr 1
  simp only [inserted]
  split_ifs
  · rfl
  · rcases heldMemory_eq memory_pairs with hnil | ⟨m, hm, hrole, -⟩
    · rw [hnil]
      rfl
    · rw [hm, List.singleton_append, List.singleton_append,
        dropOrphans_of_other _ _ (by simp [hrole]) (by simp [hrole])]

/-- With the memory message in place nothing is inserted, and there is none to insert otherwise. -/
lemma inserted_preflightCheck (rest : List Held) (memory_pairs : List (String × String)) :
    inserted (preflightCheck (prompt :: rest) memory_pairs) memory_pairs = [] := by
  rw [preflightCheck_prompt hprompt]
  by_cases hmemory : detectBodyStart ((prompt :: rest).map (·.msg)) = 2
  · rw [show inserted (prompt :: rest) memory_pairs = [] from if_pos hmemory, List.nil_append]
    refine if_pos ?_
    cases rest with
    | nil => simp [detectBodyStart] at hmemory
    | cons m rest =>
      have hm : m.msg.role = .user ∧ startsWith m.msg.content "[Thread Memory" := by
        simpa [detectBodyStart] using hmemory
      rw [dropOrphans_of_other _ _ (by simp [hm.1]) (by simp [hm.1])]
      simp [detectBodyStart, hm]
  · rw [show inserted (prompt :: rest) memory_pairs = heldMemory memory_pairs from if_neg hmemory]
    rcases heldMemory_eq memory_pairs with hnil | ⟨m, hm, hrole, hcontent⟩
    · simp only [inserted, hnil, ite_self]
    · rw [hm]
      refine if_pos ?_
      simp [detectBodyStart, hrole, hcontent]

lemma dropOrphans_preflightCheck (rest : List Held) (memory_pairs : List (String × String)) :
    dropOrphans false (preflightCheck (prompt :: rest) memory_pairs) =
      preflightCheck (prompt :: rest) memory_pairs := by
  rw [preflightCheck_prompt hprompt, dropOrphans_prompt hprompt]
  congr 1
  simp only [inserted]
  split_ifs
  · exact dropOrphans_idempotent _ _
  · rcases heldMemory_eq memory_pairs with hnil | ⟨m, hm, hrole, -⟩
    · rw [hnil]
      exact dropOrphans_idempotent _ _
    · rw [hm, List.singleton_append, dropOrphans_of_other _ _ (by simp [hrole]) (by simp [hrole]),
        dropOrphans_idempotent]

lemma preflightCheck_preflightCheck (rest : List Held) (memory_pairs : List (String × String)) :
    preflightCheck (preflightCheck (prompt :: rest) memory_pairs) memory_pairs =
      preflightCheck (prompt :: rest) memory_pairs := by
  have hinserted := inserted_preflightCheck hprompt rest memory_pairs
  have hscan := dropOrphans_preflightCheck hprompt rest memory_pairs
  rw [preflightCheck_prompt hprompt rest] at hinserted hscan ⊢
  rw [preflightCheck_prompt hprompt, hinserted, List.nil_append]
  rwa [dropOrphans_prompt hprompt] at hscan

end Prompted

/-- A list that starts with the system prompt is repaired: the orphans go, the memory message may
come in after the prompt, and nothing is left to repair. Any other list is refused. -/
theorem preflightCheck_repairs (messages : List Held) (memory_pairs : List (String × String)) :
    if messages.head?.any fun m => m.msg.role = .system then
      Grouped ((preflightCheck messages memory_pairs).map (·.msg)) ∧
        preflightCheck messages memory_pairs = (nonOrphans messages).take 1 ++
          inserted messages memory_pairs ++ (nonOrphans messages).drop 1 ∧
        preflightCheck (preflightCheck messages memory_pairs) memory_pairs =
          preflightCheck messages memory_pairs
    else preflightCheck messages memory_pairs = messages := by
  split_ifs with hhead
  · obtain ⟨prompt, rest, rfl, hprompt⟩ :
        ∃ prompt rest, messages = prompt :: rest ∧ prompt.msg.role = .system := by
      cases messages with
      | nil => cases hhead
      | cons prompt rest => exact ⟨prompt, rest, rfl, by simpa using hhead⟩
    refine ⟨?_, ?_, preflightCheck_preflightCheck hprompt rest memory_pairs⟩
    · exact grouped_of_dropOrphans_eq_self (dropOrphans_preflightCheck hprompt rest memory_pairs)
    · rw [preflightCheck_prompt hprompt, ← dropOrphans_eq_nonOrphans, dropOrphans_prompt hprompt]
      rfl
  · exact if_neg hhead

/-- Without the system prompt an orphan stays. -/
theorem not_grouped_preflightCheck_orphan :
    ¬ Grouped ((preflightCheck [{ msg := { role := .tool, content := "PE32" } }]
      [("goal", "triage")]).map (·.msg)) := by
  intro hgrouped
  obtain ⟨j, hanswers⟩ := hgrouped 0 ⟨_, rfl, rfl⟩
  exact absurd hanswers.lt (Nat.not_lt_zero j)

end Arbeiterfarm.Agents
