import Arbeiterfarm.Core.Chat
import Mathlib.Data.List.Sort

/-!
# The messages of a thread

The rows of one thread in the `messages` table. A row takes its number from a sequence that all
threads share, when it is inserted; a row that is inserted in a transaction becomes visible
later, when the transaction commits, and rows with larger numbers may be visible before it.
-/

namespace Arbeiterfarm.Agents

/-- The columns that an insert provides. -/
structure NewMessage where
  role : ChatRole
  content : Option String := none
  content_json : Option Json := none
  tool_call_id : Option String := none
  tool_name : Option String := none
  agent_name : Option String := none
  deriving DecidableEq

structure MessageRow extends NewMessage where
  seq : ℕ
  compacted : Bool := false
  deriving DecidableEq

/-- The order of the rows. -/
def SeqLe (a b : MessageRow) : Prop := a.seq ≤ b.seq

instance : DecidableRel SeqLe := fun a b => inferInstanceAs (Decidable (a.seq ≤ b.seq))

instance : Std.Total SeqLe := ⟨fun a b => Nat.le_total a.seq b.seq⟩

instance : IsTrans MessageRow SeqLe := ⟨fun _ _ _ => Nat.le_trans⟩

/-- A thread: the committed rows in the order of their numbers, and the rows of transactions
that have not committed. -/
structure Thread where
  rows : List MessageRow
  inflight : List MessageRow
  nextSeq : ℕ
  sorted : rows.Pairwise SeqLe
  nodup : ((rows ++ inflight).map (·.seq)).Nodup
  lt_nextSeq : ∀ r ∈ rows ++ inflight, r.seq < nextSeq
  pos : 0 < nextSeq
  /-- Rows that are not visible cannot be marked. -/
  unmarked : ∀ r ∈ inflight, r.compacted = false

namespace Thread

def new : Thread where
  rows := []
  inflight := []
  nextSeq := 1
  sorted := .nil
  nodup := .nil
  lt_nextSeq := by simp
  pos := Nat.one_pos
  unmarked := by simp

/-- The row that the next insert makes. -/
def newRow (t : Thread) (m : NewMessage) : MessageRow := { m with seq := t.nextSeq }

/-! ### Inserts -/

lemma nodup_newRow (t : Thread) (m : NewMessage) :
    (((t.rows ++ t.inflight) ++ [t.newRow m]).map (·.seq)).Nodup := by
  rw [List.map_append, List.nodup_append]
  refine ⟨t.nodup, by simp, ?_⟩
  rintro n hn _ hm rfl
  obtain ⟨r, hr, rfl⟩ := List.mem_map.mp hn
  simp only [List.map_cons, List.map_nil, List.mem_singleton] at hm
  exact absurd (t.lt_nextSeq r hr) (by simp [hm, newRow])

/-- An insert outside of a transaction. -/
def insert (t : Thread) (m : NewMessage) : Thread where
  rows := t.rows ++ [t.newRow m]
  inflight := t.inflight
  nextSeq := t.nextSeq + 1
  sorted := by
    refine List.pairwise_append.mpr ⟨t.sorted, by simp, fun a ha b hb => ?_⟩
    obtain rfl := List.mem_singleton.mp hb
    exact (t.lt_nextSeq a (by simp [ha])).le
  nodup := by
    refine (List.Perm.nodup_iff (List.Perm.map _ ?_)).mp (t.nodup_newRow m)
    simp only [List.append_assoc]
    exact List.Perm.append_left _ List.perm_append_comm
  lt_nextSeq r hr := by
    simp only [List.mem_append, List.mem_singleton] at hr
    obtain (hr | rfl) | hr := hr
    · exact Nat.lt_succ_of_lt (t.lt_nextSeq r (by simp [hr]))
    · exact Nat.lt_succ_self _
    · exact Nat.lt_succ_of_lt (t.lt_nextSeq r (by simp [hr]))
  pos := Nat.succ_pos _
  unmarked := t.unmarked

/-- An insert in a transaction. -/
def begin (t : Thread) (m : NewMessage) : Thread where
  rows := t.rows
  inflight := t.inflight ++ [t.newRow m]
  nextSeq := t.nextSeq + 1
  sorted := t.sorted
  nodup := by simpa using t.nodup_newRow m
  lt_nextSeq r hr := by
    simp only [List.mem_append, List.mem_singleton] at hr
    obtain hr | hr | rfl := hr
    · exact Nat.lt_succ_of_lt (t.lt_nextSeq r (by simp [hr]))
    · exact Nat.lt_succ_of_lt (t.lt_nextSeq r (by simp [hr]))
    · exact Nat.lt_succ_self _
  pos := Nat.succ_pos _
  unmarked r hr := by
    obtain hr | hr := List.mem_append.mp hr
    · exact t.unmarked r hr
    · obtain rfl := List.mem_singleton.mp hr
      rfl

lemma perm_commit {t : Thread} {r : MessageRow} (hr : r ∈ t.inflight) :
    (t.rows.orderedInsert SeqLe r ++ t.inflight.erase r).Perm (t.rows ++ t.inflight) :=
  (List.Perm.append_right _ (List.perm_orderedInsert _ r t.rows)).trans <|
    List.perm_middle.symm.trans (List.Perm.append_left _ (List.perm_cons_erase hr).symm)

/-- The transaction of an inserted row commits. -/
def commit (t : Thread) (r : MessageRow) (hr : r ∈ t.inflight) : Thread where
  rows := t.rows.orderedInsert SeqLe r
  inflight := t.inflight.erase r
  nextSeq := t.nextSeq
  sorted := t.sorted.orderedInsert r t.rows
  nodup := ((perm_commit hr).map _).nodup_iff.mpr t.nodup
  lt_nextSeq q hq := t.lt_nextSeq q ((perm_commit hr).mem_iff.mp hq)
  pos := t.pos
  unmarked q hq := t.unmarked q (List.mem_of_mem_erase hq)

/-- The sequence is advanced by another thread. -/
def bump (t : Thread) : Thread where
  rows := t.rows
  inflight := t.inflight
  nextSeq := t.nextSeq + 1
  sorted := t.sorted
  nodup := t.nodup
  lt_nextSeq r hr := Nat.lt_succ_of_lt (t.lt_nextSeq r hr)
  pos := Nat.succ_pos _
  unmarked := t.unmarked

/-- Commit the row with this number, if it is in flight. -/
def commitSeq (t : Thread) (seq : ℕ) : Option Thread :=
  match h : t.inflight.find? fun r => r.seq = seq with
  | some r => some (t.commit r (List.mem_of_find?_eq_some h))
  | none   => none

lemma commitSeq_of_eq_some {t t' : Thread} {seq : ℕ} (h : t.commitSeq seq = some t') :
    ∃ r, ∃ hr : r ∈ t.inflight, t' = t.commit r hr := by
  simp only [commitSeq] at h
  split at h
  · cases h
    exact ⟨_, _, rfl⟩
  · cases h

/-! ### Compaction marks -/

/-- A row that the mark applies to; system messages are excluded. -/
def Marks (up_to_seq : ℕ) (r : MessageRow) : Prop :=
  r.seq ≤ up_to_seq ∧ r.role ≠ .system ∧ r.compacted = false

instance (up_to_seq : ℕ) : DecidablePred (Marks up_to_seq) := fun r =>
  inferInstanceAs (Decidable (r.seq ≤ up_to_seq ∧ r.role ≠ .system ∧ r.compacted = false))

def markRow (up_to_seq : ℕ) (r : MessageRow) : MessageRow :=
  if Marks up_to_seq r then { r with compacted := true } else r

@[simp] lemma markRow_seq (n : ℕ) (r : MessageRow) : (markRow n r).seq = r.seq := by
  simp only [markRow]
  split_ifs <;> rfl

@[simp] lemma markRow_toNewMessage (n : ℕ) (r : MessageRow) :
    (markRow n r).toNewMessage = r.toNewMessage := by
  simp only [markRow]
  split_ifs <;> rfl

lemma markRow_compacted (n : ℕ) (r : MessageRow) :
    (markRow n r).compacted = true ↔ r.compacted = true ∨ r.seq ≤ n ∧ r.role ≠ .system := by
  simp only [markRow]
  split_ifs with h
  · simp [h.1, h.2.1]
  · simp only [Marks] at h
    cases hr : r.compacted <;> simp_all

def markMessagesCompacted (t : Thread) (up_to_seq : ℕ) : Thread where
  rows := t.rows.map (markRow up_to_seq)
  inflight := t.inflight
  nextSeq := t.nextSeq
  sorted := List.pairwise_map.mpr (t.sorted.imp fun h => by simpa [SeqLe] using h)
  nodup := by simpa [Function.comp_def] using t.nodup
  lt_nextSeq r hr := by
    simp only [List.mem_append, List.mem_map] at hr
    obtain ⟨q, hq, rfl⟩ | hr := hr
    · simpa using t.lt_nextSeq q (by simp [hq])
    · exact t.lt_nextSeq r (by simp [hr])
  pos := t.pos
  unmarked := t.unmarked

/-- The summary of a compaction is stored as a system message. -/
def summaryMessage (summary : String) (compacted_count up_to_seq : ℕ)
    (agent_name : Option String) : NewMessage where
  role := .system
  content := some summary
  content_json := some (.obj [("compaction_summary", .bool true),
    ("compacted_count", .num (.int compacted_count)),
    ("compacted_up_to_seq", .num (.int up_to_seq))])
  agent_name := agent_name

def insertCompactionSummary (t : Thread) (summary : String) (compacted_count up_to_seq : ℕ)
    (agent_name : Option String) : Thread :=
  t.insert (summaryMessage summary compacted_count up_to_seq agent_name)

/-! ### Queries -/

def getThreadMessagesCompacted (t : Thread) : List MessageRow :=
  t.rows.filter fun r => !r.compacted

def getNewUserMessagesSince (t : Thread) (since_seq : ℕ) : List MessageRow :=
  t.rows.filter fun r => since_seq < r.seq ∧ r.role = .user ∧ r.compacted = false

@[simp] lemma rows_insert (t : Thread) (m : NewMessage) :
    (t.insert m).rows = t.rows ++ [t.newRow m] := rfl

@[simp] lemma inflight_insert (t : Thread) (m : NewMessage) :
    (t.insert m).inflight = t.inflight := rfl

@[simp] lemma rows_begin (t : Thread) (m : NewMessage) : (t.begin m).rows = t.rows := rfl

@[simp] lemma inflight_begin (t : Thread) (m : NewMessage) :
    (t.begin m).inflight = t.inflight ++ [t.newRow m] := rfl

@[simp] lemma rows_mark (t : Thread) (n : ℕ) :
    (t.markMessagesCompacted n).rows = t.rows.map (markRow n) := rfl

@[simp] lemma inflight_mark (t : Thread) (n : ℕ) :
    (t.markMessagesCompacted n).inflight = t.inflight := rfl

@[simp] lemma newRow_toNewMessage (t : Thread) (m : NewMessage) :
    (t.newRow m).toNewMessage = m := rfl

@[simp] lemma newRow_compacted (t : Thread) (m : NewMessage) :
    (t.newRow m).compacted = false := rfl

@[simp] lemma mem_getThreadMessagesCompacted {t : Thread} {r : MessageRow} :
    r ∈ t.getThreadMessagesCompacted ↔ r ∈ t.rows ∧ r.compacted = false := by
  simp [getThreadMessagesCompacted]

@[simp] lemma mem_getNewUserMessagesSince {t : Thread} {n : ℕ} {r : MessageRow} :
    r ∈ t.getNewUserMessagesSince n ↔
      r ∈ t.rows ∧ n < r.seq ∧ r.role = .user ∧ r.compacted = false := by
  simp [getNewUserMessagesSince]

lemma mem_commit {t : Thread} {r q : MessageRow} (hr : r ∈ t.inflight) :
    q ∈ (t.commit r hr).rows ↔ q = r ∨ q ∈ t.rows := List.mem_orderedInsert _

lemma mem_inflight_commit {t : Thread} {r q : MessageRow} (hr : r ∈ t.inflight)
    (hq : q ∈ (t.commit r hr).inflight) : q ∈ t.inflight := List.mem_of_mem_erase hq

/-! ### Row numbers -/

/-- The rows are in strictly increasing order. -/
lemma rows_lt (t : Thread) : t.rows.Pairwise fun a b => a.seq < b.seq := by
  have hnodup : (t.rows.map (·.seq)).Nodup :=
    (List.nodup_append.mp (by simpa using t.nodup)).1
  refine (t.sorted.and (List.pairwise_map.mp hnodup)).imp ?_
  rintro a b ⟨hle, hne⟩
  exact Nat.lt_of_le_of_ne hle hne

lemma eq_of_seq_eq (t : Thread) {a b : MessageRow} (ha : a ∈ t.rows ++ t.inflight)
    (hb : b ∈ t.rows ++ t.inflight) (h : a.seq = b.seq) : a = b :=
  List.inj_on_of_nodup_map t.nodup ha hb h

end Thread

end Arbeiterfarm.Agents
