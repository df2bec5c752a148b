import Arbeiterfarm.Agents.CompactionMarks
import Arbeiterfarm.Foundation.Exec
import Mathlib.Algebra.BigOperators.Group.List.Basic

/-!
# Reloading a compacted thread

The summary row of a compaction has the largest number of the thread, so a reload renders it
after the tail that it should precede, and earlier summaries stay visible because marks exclude
system rows.
-/

namespace Arbeiterfarm.Agents

open Foundation

/-! ### Summary rows -/

/-- The summaries that a reload renders. -/
def summaryRows (t : Thread) : List MessageRow :=
  t.getThreadMessagesCompacted.filter MessageRow.isCompactionSummary

def summaryRow (t : Thread) (summary : String) (count up_to_seq : ℕ)
    (agent_name : Option String) : MessageRow :=
  t.newRow (Thread.summaryMessage summary count up_to_seq agent_name)

section Summary

variable (t : Thread) (summary : String) (count up_to_seq : ℕ) (agent_name : Option String)

lemma visible_insertCompactionSummary :
    (t.insertCompactionSummary summary count up_to_seq agent_name).getThreadMessagesCompacted =
      t.getThreadMessagesCompacted ++ [summaryRow t summary count up_to_seq agent_name] := by
  simp [Thread.getThreadMessagesCompacted, Thread.insertCompactionSummary, summaryRow]

end Summary

lemma isCompactionSummary_system {r : MessageRow} (h : r.isCompactionSummary = true) :
    r.role = .system := by
  simp only [MessageRow.isCompactionSummary] at h
  simp only [Bool.and_eq_true, decide_eq_true_eq] at h
  exact h.1

@[simp] lemma isCompactionSummary_markRow (n : ℕ) (r : MessageRow) :
    (Thread.markRow n r).isCompactionSummary = r.isCompactionSummary := by
  simp [MessageRow.isCompactionSummary, MessageRow.jsonField]

lemma markRow_system {r : MessageRow} (n : ℕ) (h : r.role = .system) : Thread.markRow n r = r :=
  if_neg fun hmarks => hmarks.2.1 h

/-- Marks exclude summaries. -/
lemma summaryRows_mark (t : Thread) (n : ℕ) :
    summaryRows (t.markMessagesCompacted n) = summaryRows t := by
  simp only [summaryRows, Thread.getThreadMessagesCompacted]
  rw [Thread.rows_mark, List.filter_filter, List.filter_filter]
  induction t.rows with
  | nil => rfl
  | cons r rows ih =>
    rw [List.map_cons, List.filter_cons, List.filter_cons, ih, isCompactionSummary_markRow]
    cases hsummary : r.isCompactionSummary with
    | false => simp
    | true => rw [markRow_system n (isCompactionSummary_system hsummary)]

/-! ### Reload -/

/-- A reload gives the list that the compaction left behind; in both, the same row, that of the
summary, comes after the system prompt. -/
structure Reloads (system_prompt : String) (t : Thread) (kept : List Held) : Prop where
  messages : buildMessagesFromHistory system_prompt t.getThreadMessagesCompacted =
    kept.map (·.msg)
  order : (rowsOf (heldHistory system_prompt t.getThreadMessagesCompacted)).head? =
    kept[1]?.bind (·.row)

instance (system_prompt : String) (t : Thread) (kept : List Held) :
    Decidable (Reloads system_prompt t kept) :=
  decidable_of_iff (_ ∧ _) ⟨fun h => ⟨h.1, h.2⟩, fun h => ⟨h.1, h.2⟩⟩

/-- The numbers of the rows that are rendered. -/
def renderedSeqs (history : List MessageRow) : List ℕ :=
  history.filterMap fun row => row.toMessage.map fun _ => row.seq

lemma rowsOf_heldHistory (system_prompt : String) (history : List MessageRow) :
    rowsOf (heldHistory system_prompt history) = renderedSeqs history := by
  rw [rowsOf, heldHistory, List.filterMap_cons_none rfl, List.filterMap_filterMap, renderedSeqs]
  apply List.filterMap_congr
  intro row _
  cases row.toMessage <;> rfl

lemma length_buildMessagesFromHistory (system_prompt : String) (history : List MessageRow) :
    (buildMessagesFromHistory system_prompt history).length =
      (renderedSeqs history).length + 1 := by
  induction history with
  | nil => rfl
  | cons r rows ih =>
    simp only [buildMessagesFromHistory, List.length_cons, renderedSeqs, List.filterMap_cons]
      at ih ⊢
    cases r.toMessage <;> simpa using ih

lemma mem_renderedSeqs {history : List MessageRow} {n : ℕ} (h : n ∈ renderedSeqs history) :
    ∃ r ∈ history, r.seq = n := by
  obtain ⟨r, hr, hn⟩ := List.mem_filterMap.mp h
  obtain ⟨m, -, rfl⟩ := Option.map_eq_some_iff.mp hn
  exact ⟨r, hr, rfl⟩

/-- The rows before the summary row have smaller numbers, so the summary is not rendered first
unless it is the only row. -/
lemma not_reloads_of_summary {system_prompt summary : String} {t : Thread} {count up_to_seq : ℕ}
    {agent_name : Option String} {kept : List Held} (hkept : 3 ≤ kept.length)
    (hrow : kept[1]?.bind (·.row) = some t.nextSeq) :
    ¬ Reloads system_prompt (t.insertCompactionSummary summary count up_to_seq agent_name)
      kept := by
  rintro ⟨hmessages, horder⟩
  have hlen := congrArg List.length hmessages
  rw [length_buildMessagesFromHistory, List.length_map] at hlen
  rw [rowsOf_heldHistory, hrow] at horder
  have hrendered : renderedSeqs
      (t.insertCompactionSummary summary count up_to_seq agent_name).getThreadMessagesCompacted =
        renderedSeqs t.getThreadMessagesCompacted ++ [t.nextSeq] := by
    rw [visible_insertCompactionSummary, renderedSeqs, List.filterMap_append]
    rfl
  rw [hrendered] at hlen horder
  cases hbefore : renderedSeqs t.getThreadMessagesCompacted with
  | nil =>
    rw [hbefore] at hlen
    simp only [List.nil_append, List.length_singleton] at hlen
    omega
  | cons n ns =>
    rw [hbefore] at horder
    cases horder
    obtain ⟨r, hr, hseq⟩ := mem_renderedSeqs (hbefore ▸ List.mem_cons_self)
    have := t.lt_nextSeq r (by simp [(Thread.mem_getThreadMessagesCompacted.mp hr).1])
    omega

/-- What a compaction does to a reload. -/
lemma not_reloads_tryCompact {t t' : Thread} {history : List MessageRow}
    {agent_name : Option String} {fault : Option DbFault} {messages kept : List Held}
    {summary : Option String} (system_prompt : String)
    (h : tryCompact t history agent_name fault messages summary = (t', some kept)) :
    ¬ Reloads system_prompt t' kept ∧ (summaryRows t').length = (summaryRows t).length + 1 := by
  simp only [tryCompact] at h
  split at h
  · rename_i plan summary hplan
    obtain ⟨⟨up_to_seq, text, count, -, rfl⟩, rfl⟩ := TrimmedAt.of_trimAt h
    have hend := selectMessagesForCompaction_bounds hplan
    rw [List.length_map] at hend
    have hhead : (messages.take 1).length = 1 := by
      rw [List.length_take]
      omega
    refine ⟨not_reloads_of_summary ?_ ?_, ?_⟩
    · simp only [List.length_append, hhead, List.length_singleton, List.length_drop]
      omega
    · rw [List.append_assoc, List.getElem?_append_right (by omega), hhead]
      rfl
    · rw [← summaryRows_mark t up_to_seq]
      simp only [summaryRows, visible_insertCompactionSummary, List.filter_append,
        List.length_append]
      rfl
  · cases h

/-! ### Successive compactions -/

/-- The loop between compactions: a message is stored and appended, or a compaction succeeds. -/
inductive ChatStep where
  | append (row : NewMessage) (msg : ChatMessage)
  | compact (agent_name : Option String) (summary : String)

def chatStep : Thread × List Held → ChatStep → Option (Thread × List Held)
  | (t, messages), .append row msg => some (t.insert row, messages ++ [⟨msg, some t.nextSeq⟩])
  | (t, messages), .compact agent_name summary =>
    match tryCompact t t.getThreadMessagesCompacted agent_name none messages (some summary) with
    | (t, some kept) => some (t, kept)
    | (_, none)      => none

def ChatStep.compactions : ChatStep → ℕ
  | .append _ _  => 0
  | .compact _ _ => 1

lemma chatStep_compact {s s' : Thread × List Held} {agent_name : Option String} {summary : String}
    (h : chatStep s (.compact agent_name summary) = some s') :
    tryCompact s.1 s.1.getThreadMessagesCompacted agent_name none s.2 (some summary) =
      (s'.1, some s'.2) := by
  simp only [chatStep] at h
  split at h
  · rename_i hcompact
    cases h
    exact hcompact
  · cases h

lemma summaryRows_chatStep {s s' : Thread × List Held} {a : ChatStep}
    (h : chatStep s a = some s') :
    (summaryRows s.1).length + a.compactions ≤ (summaryRows s'.1).length := by
  cases a with
  | append row msg =>
    cases h
    refine List.Sublist.length_le (List.Sublist.filter _ (List.Sublist.filter _ ?_))
    exact List.sublist_append_left _ _
  | compact agent_name summary =>
    exact (not_reloads_tryCompact "" (chatStep_compact h)).2.ge

/-- No summary is ever hidden again. -/
lemma summaryRows_exec {s s' : Thread × List Held} {acts : List ChatStep}
    (h : exec chatStep s acts = some s') :
    (summaryRows s.1).length + (acts.map (·.compactions)).sum ≤ (summaryRows s'.1).length := by
  induction acts generalizing s with
  | nil =>
    cases h
    exact Nat.le_refl _
  | cons a acts ih =>
    obtain ⟨s₁, h₁, hrest⟩ := Option.bind_eq_some_iff.mp h
    have := summaryRows_chatStep h₁
    have := ih hrest
    rw [List.map_cons, List.sum_cons]
    omega

/-- After no run of the loop that ends with a successful compaction does a reload give the list
that the compaction left behind, and all summaries of the run are rendered. -/
theorem not_reloads_exec (system_prompt : String) (s s' : Thread × List Held)
    (acts : List ChatStep) (agent_name : Option String) (summary : String)
    (h : exec chatStep s (acts ++ [.compact agent_name summary]) = some s') :
    ¬ Reloads system_prompt s'.1 s'.2 ∧
      (acts.map (·.compactions)).sum + 1 ≤ (summaryRows s'.1).length := by
  have hsum := summaryRows_exec h
  obtain ⟨s₁, -, hlast⟩ := exec_split h
  obtain ⟨s₂, hcompact, hnil⟩ := Option.bind_eq_some_iff.mp hlast
  cases hnil
  refine ⟨(not_reloads_tryCompact system_prompt (chatStep_compact hcompact)).1, ?_⟩
  rw [List.map_append, List.sum_append] at hsum
  exact Nat.le_trans (Nat.le_add_left _ _) hsum

theorem not_reloads_fiveRows :
    ∃ s', exec chatStep (fiveRows, heldHistory "p" fiveRows.getThreadMessagesCompacted)
        [.compact none "s"] = some s' ∧ ¬ Reloads "p" s'.1 s'.2 := by
  obtain ⟨s', h⟩ : ∃ s', exec chatStep
      (fiveRows, heldHistory "p" fiveRows.getThreadMessagesCompacted) [.compact none "s"] =
        some s' := ⟨_, rfl⟩
  exact ⟨s', h, (not_reloads_exec "p" _ s' [] none "s" h).1⟩

/-- The list that a compaction leaves behind, and the one that a reload gives. -/
theorem reload_fiveRows :
    ∃ t' kept, tryCompact fiveRows fiveRows.getThreadMessagesCompacted none none
        (heldHistory "p" fiveRows.getThreadMessagesCompacted) (some "s") = (t', some kept) ∧
      kept.map (·.msg.content) =
        ["p", "[Context Summary — 4 earlier messages were summarized]\n\ns", "q3"] ∧
      (buildMessagesFromHistory "p" t'.getThreadMessagesCompacted).map (·.content) =
        ["p", "q3", "s"] ∧
      ¬ Reloads "p" t' kept :=
  ⟨_, _, rfl, by decide +kernel, by decide +kernel, by decide +kernel⟩

end Arbeiterfarm.Agents
