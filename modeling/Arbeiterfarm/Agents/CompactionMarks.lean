import Arbeiterfarm.Agents.Compaction
import Mathlib.Data.List.Nodup

/-!
# The rows that a trim marks

A trim maps the index of its cut to a row by counting, as if every message after the system
prompt had one row of the history. It marks the rows of the messages it drops exactly when the
messages without a row and the rows without a message balance.
-/

namespace Arbeiterfarm.Agents

/-! ### A successful trim -/

lemma persist_eq_some {t t' : Thread} {fault : Option DbFault} {up_to_seq seq count : ℕ}
    {summary : String} {agent_name : Option String}
    (h : persist t fault up_to_seq summary count agent_name = (t', some seq)) :
    seq = t.nextSeq ∧
      t' = (t.markMessagesCompacted up_to_seq).insertCompactionSummary summary count up_to_seq
        agent_name := by
  simp only [persist] at h
  cases fault with
  | none =>
    cases h
    exact ⟨rfl, rfl⟩
  | some fault => cases fault <;> cases h

/-- What a trim that succeeds with a cut at `e` has done. -/
structure TrimmedAt (e : ℕ) (t : Thread) (history : List MessageRow) (agent_name : Option String)
    (messages inserted : List Held) (t' : Thread) (kept : List Held) : Prop where
  marked : ∃ up_to_seq summary count, mapIndexToSeq e history = some up_to_seq ∧
    t' = (t.markMessagesCompacted up_to_seq).insertCompactionSummary summary count up_to_seq
      agent_name
  kept : kept = messages.take 1 ++ inserted ++ messages.drop e

section Success

variable {t t' : Thread} {history : List MessageRow} {agent_name : Option String}
  {fault : Option DbFault} {messages kept : List Held}

lemma TrimmedAt.of_trimAt {e count : ℕ} {summary : String} {inserted : ℕ → List Held}
    (h : trimAt t history agent_name fault messages e summary count inserted = (t', some kept)) :
    TrimmedAt e t history agent_name messages (inserted t.nextSeq) t' kept := by
  simp only [trimAt] at h
  split at h
  · cases h
  · rename_i up_to_seq hmap
    split at h
    · cases h
    · rename_i t₁ seq hpersist
      cases h
      obtain ⟨rfl, rfl⟩ := persist_eq_some hpersist
      exact ⟨⟨_, _, _, hmap, rfl⟩, rfl⟩

lemma TrimmedAt.of_run {trim : Trim}
    (h : trim.run t history agent_name fault messages = (t', some kept)) :
    ∃ e inserted, trim.cut (messages.map (·.msg)) = some e ∧
      TrimmedAt e t history agent_name messages inserted t' kept := by
  cases trim with
  | tryCompact summary =>
    simp only [Trim.run, tryCompact] at h
    split at h
    · rename_i plan summary hplan
      exact ⟨plan.compact_end, _, by simp [Trim.cut, hplan], .of_trimAt h⟩
    · cases h
  | localContextReset estimated memory =>
    simp only [Trim.run, localContextReset] at h
    split at h
    · cases h
    · rename_i plan hplan
      exact ⟨plan.compact_end, _, by simp [Trim.cut, hplan], .of_trimAt h⟩
  | slidingWindowTrim estimated trigger memory =>
    simp only [Trim.run, slidingWindowTrim] at h
    split at h
    · cases h
    · rename_i e hcut
      exact ⟨e, _, hcut, .of_trimAt h⟩

end Success

/-! ### Marked rows -/

/-- In a sorted history, the rows up to a number are a prefix. -/
lemma le_mapIndexToSeq_iff {history : List MessageRow}
    (hsorted : history.Pairwise fun a b => a.seq < b.seq) {e up_to_seq : ℕ} (he : 2 ≤ e)
    (hmap : mapIndexToSeq e history = some up_to_seq) {r : MessageRow} (hr : r ∈ history) :
    r.seq ≤ up_to_seq ↔ r ∈ history.take (e - 1) := by
  obtain ⟨q, hq, rfl⟩ := Option.map_eq_some_iff.mp hmap
  rw [if_pos he] at hq
  obtain ⟨i, hi, rfl⟩ := List.getElem_of_mem hr
  have hlt {j k : ℕ} (hk : k < history.length) (hjk : j < k) :
      history[j].seq < history[k].seq :=
    List.pairwise_iff_getElem.mp hsorted j k (hjk.trans hk) hk hjk
  rw [List.mem_take_iff_getElem]
  cases hget : history[e - 2]? with
  | some q' =>
    obtain ⟨hlen, rfl⟩ := List.getElem?_eq_some_iff.mp hget
    rw [hget, Option.some_or] at hq
    cases hq
    constructor
    · intro hle
      refine ⟨i, ?_, rfl⟩
      by_contra hge
      have := hlt hi (j := e - 2) (by omega)
      omega
    · rintro ⟨j, hj, hji⟩
      rw [← hji]
      rcases Nat.lt_or_eq_of_le (show j ≤ e - 2 by omega) with hj' | rfl
      · exact (hlt hlen hj').le
      · exact Nat.le_refl _
  | none =>
    rw [hget, Option.none_or, List.getLast?_eq_getElem?] at hq
    obtain ⟨hlen, rfl⟩ := List.getElem?_eq_some_iff.mp hq
    have hshort := List.getElem?_eq_none_iff.mp hget
    refine iff_of_true ?_ ⟨i, by omega, rfl⟩
    rcases Nat.lt_or_eq_of_le (show i ≤ history.length - 1 by omega) with hi' | rfl
    · exact (hlt hlen hi').le
    · exact Nat.le_refl _

/-- The numbers of the rows that are visible. -/
def visibleSeqs (t : Thread) : List ℕ := t.getThreadMessagesCompacted.map (·.seq)

lemma not_mem_visibleSeqs_mark {t : Thread} {up_to_seq : ℕ} {r : MessageRow}
    (hr : r ∈ t.getThreadMessagesCompacted) :
    r.seq ∉ visibleSeqs (t.markMessagesCompacted up_to_seq) ↔
      r.seq ≤ up_to_seq ∧ r.role ≠ .system := by
  obtain ⟨hmem, hvisible⟩ := Thread.mem_getThreadMessagesCompacted.mp hr
  have hmark := Thread.markRow_compacted up_to_seq r
  rw [hvisible] at hmark
  simp only [Bool.false_eq_true, false_or] at hmark
  rw [← hmark, ← Bool.not_eq_false, not_iff_not]
  simp only [visibleSeqs, List.mem_map, Thread.mem_getThreadMessagesCompacted, Thread.rows_mark]
  constructor
  · rintro ⟨q, ⟨⟨q, hq, rfl⟩, hq'⟩, hseq⟩
    rw [Thread.markRow_seq] at hseq
    obtain rfl := t.eq_of_seq_eq (by simp [hq]) (by simp [hmem]) hseq
    exact hq'
  · intro h
    exact ⟨_, ⟨⟨r, hmem, rfl⟩, h⟩, Thread.markRow_seq _ _⟩

lemma visibleSeqs_insertCompactionSummary (t : Thread) (summary : String) (count up_to_seq : ℕ)
    (agent_name : Option String) :
    visibleSeqs (t.insertCompactionSummary summary count up_to_seq agent_name) =
      visibleSeqs t ++ [t.nextSeq] := by
  simp [visibleSeqs, Thread.insertCompactionSummary, Thread.getThreadMessagesCompacted,
    Thread.newRow]

/-- The row of the summary is a new one. -/
lemma not_mem_visibleSeqs_iff {t : Thread} {up_to_seq count : ℕ} {summary : String}
    {agent_name : Option String} {r : MessageRow} (hr : r ∈ t.getThreadMessagesCompacted) :
    r.seq ∉ visibleSeqs ((t.markMessagesCompacted up_to_seq).insertCompactionSummary summary count
        up_to_seq agent_name) ↔ r.seq ≤ up_to_seq ∧ r.role ≠ .system := by
  have hmem := (Thread.mem_getThreadMessagesCompacted.mp hr).1
  have hnew : r.seq ≠ (t.markMessagesCompacted up_to_seq).nextSeq :=
    (t.lt_nextSeq r (by simp [hmem])).ne
  rw [visibleSeqs_insertCompactionSummary, ← not_mem_visibleSeqs_mark hr]
  simp [hnew]

/-! ### Dropped messages -/

def rowsOf (messages : List Held) : List ℕ := messages.filterMap (·.row)

/-- The messages that a cut at `e` drops. -/
def dropped (e : ℕ) (messages : List Held) : List Held := (messages.take e).drop 1

/-- The rows that the step from `t` to `t'` hides are the rows of the dropped messages. -/
def MarksDropped (e : ℕ) (messages : List Held) (t t' : Thread) : Prop :=
  ∀ r ∈ t.getThreadMessagesCompacted,
    r.seq ∉ visibleSeqs t' ↔ r.seq ∈ rowsOf (dropped e messages)

/-- The rows of the history whose message is dropped. -/
def droppedRows (e : ℕ) (messages : List Held) (history : List MessageRow) : List MessageRow :=
  history.filter fun r => r.seq ∈ rowsOf (dropped e messages)

/-- Among the first `e - 1` rows of the history are all rows of dropped messages, none of them a
system row, and together with the system rows they are all there is. -/
structure Aligned (e : ℕ) (messages : List Held) (history : List MessageRow) : Prop where
  inPrefix : ∀ r ∈ droppedRows e messages history,
    r ∈ history.take (e - 1) ∧ r.role ≠ .system
  balanced : (droppedRows e messages history).length +
      ((history.take (e - 1)).filter fun r => r.role = .system).length =
    (history.take (e - 1)).length

instance (e : ℕ) (messages : List Held) (t t' : Thread) :
    Decidable (MarksDropped e messages t t') :=
  inferInstanceAs (Decidable (∀ r ∈ t.getThreadMessagesCompacted,
    r.seq ∉ visibleSeqs t' ↔ r.seq ∈ rowsOf (dropped e messages)))

instance (e : ℕ) (messages : List Held) (history : List MessageRow) :
    Decidable (Aligned e messages history) :=
  decidable_of_iff (_ ∧ _) ⟨fun h => ⟨h.1, h.2⟩, fun h => ⟨h.1, h.2⟩⟩

/-- A sublist of the same length has the same elements. -/
lemma mem_iff_of_length_eq {α : Type*} {as bs : List α} (hnodup : as.Nodup) (hsub : as ⊆ bs)
    (hlen : as.length = bs.length) (x : α) : x ∈ as ↔ x ∈ bs :=
  ((List.subperm_of_subset hnodup hsub).perm_of_length_le hlen.ge).mem_iff

lemma nodup_of_sorted {history : List MessageRow}
    (hsorted : history.Pairwise fun a b => a.seq < b.seq) : history.Nodup :=
  hsorted.imp fun h heq => absurd (heq ▸ h) (lt_irrefl _)

lemma sorted_visible (t : Thread) :
    t.getThreadMessagesCompacted.Pairwise fun a b => a.seq < b.seq :=
  t.rows_lt.sublist List.filter_sublist

lemma mem_droppedRows {e : ℕ} {messages : List Held} {history : List MessageRow}
    {r : MessageRow} : r ∈ droppedRows e messages history ↔
      r ∈ history ∧ r.seq ∈ rowsOf (dropped e messages) := by simp [droppedRows]

lemma nodup_droppedRows {e : ℕ} {messages : List Held} {history : List MessageRow}
    (hnodup : history.Nodup) : (droppedRows e messages history).Nodup := hnodup.filter _

/-- Balance means that the dropped rows are the rows of the prefix that get marked. -/
lemma aligned_iff {e : ℕ} {messages : List Held} {history : List MessageRow}
    (hsorted : history.Pairwise fun a b => a.seq < b.seq) :
    Aligned e messages history ↔ ∀ r ∈ history,
      (r ∈ history.take (e - 1) ∧ r.role ≠ .system) ↔ r.seq ∈ rowsOf (dropped e messages) := by
  have hnodup := nodup_of_sorted hsorted
  let marked := (history.take (e - 1)).filter fun r => !decide (r.role = .system)
  have hmarked {r : MessageRow} : r ∈ marked ↔ r ∈ history.take (e - 1) ∧ r.role ≠ .system := by
    simp [marked]
  have hlength : marked.length +
      ((history.take (e - 1)).filter fun r => r.role = .system).length =
        (history.take (e - 1)).length := by
    rw [Nat.add_comm]
    exact (List.length_eq_length_filter_add fun r : MessageRow => decide (r.role = .system)).symm
  constructor
  · rintro ⟨hsubset, hbalanced⟩ r hr
    have hsub : droppedRows e messages history ⊆ marked := fun q hq => hmarked.mpr (hsubset q hq)
    have hlen : (droppedRows e messages history).length = marked.length := by omega
    have hiff := mem_iff_of_length_eq (nodup_droppedRows hnodup) hsub hlen r
    rw [← hmarked, ← hiff, mem_droppedRows]
    exact and_iff_right hr
  · intro h
    have hiff (r : MessageRow) : r ∈ droppedRows e messages history ↔ r ∈ marked := by
      rw [mem_droppedRows, hmarked]
      constructor
      · rintro ⟨hr, hdropped⟩
        exact (h r hr).mpr hdropped
      · intro hr
        have hmem := List.mem_of_mem_take hr.1
        exact ⟨hmem, (h r hmem).mp hr⟩
    have hperm : (droppedRows e messages history).Perm marked :=
      (List.perm_ext_iff_of_nodup (nodup_droppedRows hnodup)
        ((hnodup.sublist (List.take_sublist _ _)).filter _)).mpr hiff
    exact ⟨fun r hr => hmarked.mp ((hiff r).mp hr), by rw [hperm.length_eq, hlength]⟩

/-! ### The list at the start of the loop -/

lemma rowsOf_dropped {e : ℕ} {messages : List Held} {rows : List (Option ℕ)}
    (h : messages.map (·.row) = rows) :
    rowsOf (dropped e messages) = ((rows.take e).drop 1).filterMap id := by
  subst h
  rw [rowsOf, dropped, ← List.map_take, ← List.map_drop, List.filterMap_map]
  rfl

lemma filterMap_some_seq (rows : List MessageRow) :
    (rows.map fun r => some r.seq).filterMap id = rows.map (·.seq) := by
  simp [List.filterMap_map]

lemma seq_mem_map_take {history : List MessageRow}
    (hsorted : history.Pairwise fun a b => a.seq < b.seq) {r : MessageRow} (hr : r ∈ history)
    (n : ℕ) : r.seq ∈ (history.take n).map (·.seq) ↔ r ∈ history.take n := by
  have hnodup : (history.map (·.seq)).Nodup :=
    List.pairwise_map.mpr (hsorted.imp fun h => h.ne)
  constructor
  · intro h
    obtain ⟨q, hq, hseq⟩ := List.mem_map.mp h
    exact List.inj_on_of_nodup_map hnodup (List.mem_of_mem_take hq) hr hseq ▸ hq
  · exact fun h => List.mem_map_of_mem h

section Start

variable {system_prompt : String} {history : List MessageRow}
  (hsorted : history.Pairwise fun a b => a.seq < b.seq)
  (huser : ∀ r ∈ history, r.role ≠ .system)

include huser in
/-- Without system rows, every row has one message. -/
lemma rows_heldHistory : (heldHistory system_prompt history).map (·.row) =
    none :: history.map fun r => some r.seq := by
  induction history with
  | nil => rfl
  | cons r rs ih =>
    have hr : ∃ m, r.toMessage = some m := ⟨_, if_neg fun h => huser r (by simp) h.1⟩
    obtain ⟨m, hm⟩ := hr
    have := ih fun r hr => huser r (List.mem_cons_of_mem _ hr)
    simp only [heldHistory, List.map_cons, List.cons.injEq, true_and] at this ⊢
    rw [List.filterMap_cons, hm, Option.map_some, List.map_cons, this]

include hsorted huser

/-- The list as it is built from a history without system rows is aligned with it. -/
theorem aligned_heldHistory {e : ℕ} (he : 2 ≤ e) :
    Aligned e (heldHistory system_prompt history) history := by
  obtain ⟨n, rfl⟩ := Nat.exists_eq_add_of_le' he
  apply (aligned_iff hsorted).mpr
  intro r hr
  rw [rowsOf_dropped (rows_heldHistory huser), List.take_succ_cons, List.drop_one, List.tail_cons,
    ← List.map_take, filterMap_some_seq, seq_mem_map_take hsorted hr]
  exact and_iff_left (huser r hr)

/-- A memory message after the system prompt shifts every message by one position, and no cut is
aligned any more. -/
theorem not_aligned_of_memory {e : ℕ} {m : ChatMessage} {messages : List Held}
    (hmessages : messages = (heldHistory system_prompt history).take 1 ++ [{ msg := m }] ++
      (heldHistory system_prompt history).drop 1)
    (he : 2 ≤ e) (hlt : e < messages.length) : ¬ Aligned e messages history := by
  obtain ⟨n, rfl⟩ := Nat.exists_eq_add_of_le' he
  have hrows : messages.map (·.row) = none :: none :: history.map fun r => some r.seq := by
    rw [hmessages]
    simp only [List.map_append, List.map_take, List.map_drop, rows_heldHistory huser]
    rfl
  have hn : n < history.length := by
    have := congrArg List.length hrows
    simp only [List.length_map, List.length_cons] at this
    omega
  intro h
  have hmem : history[n] ∈ history.take (n + 1) :=
    List.mem_take_iff_getElem.mpr ⟨n, by omega, rfl⟩
  have hseq := ((aligned_iff hsorted).mp h _ (List.getElem_mem hn)).mp
    ⟨hmem, huser _ (List.getElem_mem hn)⟩
  rw [rowsOf_dropped hrows, List.take_succ_cons, List.take_succ_cons, List.drop_one,
    List.tail_cons, List.filterMap_cons_none rfl, ← List.map_take, filterMap_some_seq,
    seq_mem_map_take hsorted (List.getElem_mem hn)] at hseq
  obtain ⟨i, hi, hin⟩ := List.mem_take_iff_getElem.mp hseq
  have := List.pairwise_iff_getElem.mp hsorted i n (by omega) hn (by omega)
  rw [hin] at this
  exact lt_irrefl _ this

end Start

/-! ### Main result -/

/-- A trim that succeeds keeps the system prompt and the messages from its cut on, and it marks
the rows of the dropped messages exactly when the cut is aligned with the history. -/
theorem marksDropped_iff_aligned (trim : Trim) (t t' : Thread) (agent_name : Option String)
    (fault : Option DbFault) (messages kept : List Held)
    (h : trim.run t t.getThreadMessagesCompacted agent_name fault messages = (t', some kept)) :
    ∃ e, trim.cut (messages.map (·.msg)) = some e ∧
      (∃ inserted, kept = messages.take 1 ++ inserted ++ messages.drop e) ∧
      (MarksDropped e messages t t' ↔ Aligned e messages t.getThreadMessagesCompacted) := by
  obtain ⟨e, inserted, hcut, ⟨up_to_seq, summary, count, hmap, rfl⟩, hkept⟩ := TrimmedAt.of_run h
  obtain ⟨he, -⟩ := Trim.cut_bounds hcut
  refine ⟨e, hcut, ⟨inserted, hkept⟩, ?_⟩
  rw [aligned_iff (sorted_visible t)]
  apply forall₂_congr
  intro r hr
  rw [not_mem_visibleSeqs_iff hr, le_mapIndexToSeq_iff (sorted_visible t) he hmap hr]

/-! ### A summary that is not stored -/

section SummaryFault

variable {t : Thread} {agent_name : Option String} {messages : List Held} {e up_to_seq : ℕ}

lemma trimAt_summaryFault {history : List MessageRow}
    (hmap : mapIndexToSeq e history = some up_to_seq) (summary : String) (count : ℕ) (inserted : ℕ → List Held) :
    trimAt t history agent_name (some .summary) messages e summary count inserted =
      (t.markMessagesCompacted up_to_seq, none) := by
  rw [trimAt, hmap]
  rfl

lemma Trim.run_summaryFault {trim : Trim} {history : List MessageRow}
    (hsummary : trim ≠ .tryCompact none) (hcut : trim.cut (messages.map (·.msg)) = some e)
    (hmap : mapIndexToSeq e history = some up_to_seq) :
    trim.run t history agent_name (some .summary) messages =
      (t.markMessagesCompacted up_to_seq, none) := by
  cases trim with
  | tryCompact summary =>
    obtain ⟨plan, hplan, rfl⟩ := Option.map_eq_some_iff.mp hcut
    obtain ⟨summary, rfl⟩ : ∃ text, summary = some text := by
      cases summary with
      | none => exact absurd rfl hsummary
      | some text => exact ⟨text, rfl⟩
    simp only [Trim.run, Agents.tryCompact, hplan]
    exact trimAt_summaryFault hmap _ _ _
  | localContextReset estimated memory =>
    obtain ⟨plan, hplan, rfl⟩ := Option.map_eq_some_iff.mp hcut
    simp only [Trim.run, Agents.localContextReset, hplan]
    exact trimAt_summaryFault hmap _ _ _
  | slidingWindowTrim estimated trigger memory =>
    rw [Trim.cut] at hcut
    simp only [Trim.run, Agents.slidingWindowTrim, hcut]
    exact trimAt_summaryFault hmap _ _ _

end SummaryFault

/-! ### A thread -/

/-- Insert rows of users and of an agent, in turn. -/
def chat (contents : List (ChatRole × String)) : Thread :=
  contents.foldl (fun t (role, content) => t.insert { role := role, content := some content }) .new

def fiveRows : Thread :=
  chat [(.user, "q1"), (.assistant, "a1"), (.user, "q2"), (.assistant, "a2"), (.user, "q3")]

theorem marksDropped_fiveRows :
    ∃ e, (Trim.tryCompact (some "s")).cut
        ((heldHistory "p" fiveRows.getThreadMessagesCompacted).map (·.msg)) = some e ∧
      Aligned e (heldHistory "p" fiveRows.getThreadMessagesCompacted)
        fiveRows.getThreadMessagesCompacted ∧
      MarksDropped e (heldHistory "p" fiveRows.getThreadMessagesCompacted) fiveRows
        ((Trim.tryCompact (some "s")).run fiveRows fiveRows.getThreadMessagesCompacted none none
          (heldHistory "p" fiveRows.getThreadMessagesCompacted)).1 := by
  obtain ⟨e, hcut, -, hiff⟩ := marksDropped_iff_aligned (.tryCompact (some "s")) fiveRows _ none
    none (heldHistory "p" fiveRows.getThreadMessagesCompacted) _ rfl
  have haligned : Aligned e (heldHistory "p" fiveRows.getThreadMessagesCompacted)
      fiveRows.getThreadMessagesCompacted :=
    aligned_heldHistory (sorted_visible _) (by decide) (Trim.cut_bounds hcut).1
  exact ⟨e, hcut, haligned, hiff.mpr haligned⟩

def memoryAtOne : List Held :=
  (heldHistory "p" fiveRows.getThreadMessagesCompacted).take 1 ++
    heldMemory [("goal", "q1")] ++ (heldHistory "p" fiveRows.getThreadMessagesCompacted).drop 1

/-- With the memory message at index 1, the context reset also marks row 5, the row of the user
message that it keeps. -/
theorem not_marksDropped_memoryAtOne :
    ∃ t' kept, (Trim.localContextReset 9000 [("goal", "q1")]).run fiveRows
        fiveRows.getThreadMessagesCompacted none none memoryAtOne = (t', some kept) ∧
      (Trim.localContextReset 9000 [("goal", "q1")]).cut (memoryAtOne.map (·.msg)) = some 6 ∧
      kept.map (·.row) = [none, none, some 5] ∧ visibleSeqs t' = [6] ∧
      ¬ MarksDropped 6 memoryAtOne fiveRows t' :=
  ⟨_, _, rfl, by decide +kernel, by decide +kernel, by decide +kernel, by decide +kernel⟩

end Arbeiterfarm.Agents
