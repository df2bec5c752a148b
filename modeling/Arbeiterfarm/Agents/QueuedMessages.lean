import Arbeiterfarm.Agents.StreamingLoop
import Arbeiterfarm.Foundation.Cursor

/-!
# Queued user messages

The loop reads the user rows of its thread with a cursor. The poll is a read; the refetches of
the history before a trim and before a compaction move the cursor without showing anything. The
messages are appended exactly once as long as no step moves the cursor past a user row that has
not been appended.
-/

namespace Arbeiterfarm.Agents

open Foundation Loop

/-! ### The loop as a reader -/

/-- The user rows that the loop has to append: those that are or will be visible, but for the
ones that were compacted before it started. -/
def dueRows (old : List ℕ) (t : Thread) : Set ℕ :=
  {n | ∃ r ∈ t.rows ++ t.inflight, r.role = .user ∧ r.seq = n ∧ n ∉ old}

def Loop.reader (l : Loop) : Reader := ⟨l.last_seen_seq, l.shown⟩

def Phase.history : Phase → List MessageRow
  | .start history | .trim history | .compact history => history
  | _ => []

/-- The invariant of a loop in its thread. -/
structure QueueInv (t : Thread) (l : Loop) : Prop where
  upToDate : l.reader.UpToDate (dueRows l.old t)
  compacted_le : ∀ r ∈ t.rows, r.role = .user → r.seq ∉ l.old → r.compacted = true →
    r.seq ≤ l.last_seen_seq
  history_le : ∀ r ∈ l.phase.history, r.seq ≤ l.last_seen_seq
  cursor_lt : l.last_seen_seq < t.nextSeq
  due_shown : ∀ n ∈ l.due, n ∈ l.shown

/-! ### Steps of the thread -/

namespace QueueInv

variable {t : Thread} {l : Loop}

/-- Rows that are added have numbers above the cursor. -/
lemma of_rows (h : QueueInv t l) {t' : Thread}
    (hrows : ∀ r ∈ t'.rows ++ t'.inflight, l.last_seen_seq < r.seq ∨
      ∃ q ∈ t.rows ++ t.inflight, q.seq = r.seq ∧ q.role = r.role)
    (hcompacted : ∀ r ∈ t'.rows, r.role = .user → r.seq ∉ l.old → r.compacted = true →
      r.seq ≤ l.last_seen_seq)
    (hnext : t.nextSeq ≤ t'.nextSeq) : QueueInv t' l where
  upToDate := by
    refine h.upToDate.grow ?_
    rintro n ⟨r, hr, huser, rfl, hold⟩
    rcases hrows r hr with hlt | ⟨q, hq, hseq, hrole⟩
    · exact .inr hlt
    · exact .inl ⟨q, hq, hrole ▸ huser, hseq, hold⟩
  compacted_le := hcompacted
  history_le := h.history_le
  cursor_lt := h.cursor_lt.trans_le hnext
  due_shown := h.due_shown

lemma insert (h : QueueInv t l) (m : NewMessage) : QueueInv (t.insert m) l := by
  refine h.of_rows (fun r hr => ?_) (fun r hr huser hold hc => ?_) (Nat.le_succ _)
  · simp only [Thread.rows_insert, Thread.inflight_insert, List.mem_append,
      List.mem_singleton] at hr
    obtain (hr | rfl) | hr := hr
    · exact .inr ⟨r, by simp [hr], rfl, rfl⟩
    · exact .inl h.cursor_lt
    · exact .inr ⟨r, by simp [hr], rfl, rfl⟩
  · simp only [Thread.rows_insert, List.mem_append, List.mem_singleton] at hr
    obtain hr | rfl := hr
    · exact h.compacted_le r hr huser hold hc
    · cases hc

lemma begin (h : QueueInv t l) (m : NewMessage) : QueueInv (t.begin m) l := by
  refine h.of_rows (fun r hr => ?_) h.compacted_le (Nat.le_succ _)
  simp only [Thread.rows_begin, Thread.inflight_begin, List.mem_append, List.mem_singleton] at hr
  obtain hr | hr | rfl := hr
  · exact .inr ⟨r, by simp [hr], rfl, rfl⟩
  · exact .inr ⟨r, by simp [hr], rfl, rfl⟩
  · exact .inl h.cursor_lt

lemma bump (h : QueueInv t l) : QueueInv t.bump l :=
  h.of_rows (fun r hr => .inr ⟨r, hr, rfl, rfl⟩) h.compacted_le (Nat.le_succ _)

lemma commit (h : QueueInv t l) {r : MessageRow} (hr : r ∈ t.inflight) :
    QueueInv (t.commit r hr) l := by
  refine h.of_rows (fun q hq => .inr ⟨q, ?_, rfl, rfl⟩) (fun q hq huser hold hc => ?_)
    (Nat.le_refl _)
  · exact (Thread.perm_commit hr).mem_iff.mp hq
  · obtain rfl | hq := (Thread.mem_commit hr).mp hq
    · rw [t.unmarked q hr] at hc
      cases hc
    · exact h.compacted_le q hq huser hold hc

lemma mark (h : QueueInv t l) {n : ℕ} (hn : n ≤ l.last_seen_seq) :
    QueueInv (t.markMessagesCompacted n) l := by
  refine h.of_rows (fun r hr => .inr ?_) (fun r hr huser hold hc => ?_) (Nat.le_refl _)
  · simp only [Thread.rows_mark, Thread.inflight_mark, List.mem_append, List.mem_map] at hr
    obtain ⟨q, hq, rfl⟩ | hr := hr
    · exact ⟨q, by simp [hq], by simp⟩
    · exact ⟨r, by simp [hr], rfl, rfl⟩
  · obtain ⟨q, hq, rfl⟩ := List.mem_map.mp hr
    rw [Thread.markRow_toNewMessage] at huser
    rw [Thread.markRow_seq] at hold ⊢
    rcases (Thread.markRow_compacted n q).mp hc with hc | ⟨hle, -⟩
    · exact h.compacted_le q hq huser hold hc
    · exact hle.trans hn

lemma trimmed (h : QueueInv t l) {history : List MessageRow} {t' : Thread}
    (htrim : Trimmed history t t') (hhistory : ∀ r ∈ history, r.seq ≤ l.last_seen_seq) :
    QueueInv t' l := by
  induction htrim with
  | refl => exact h
  | mark _ hr ih => exact ih.mark (hhistory _ hr)
  | summary _ _ _ _ _ ih => exact ih.insert _

/-! ### Steps of the loop -/

/-- The fields that the reader consists of. -/
def view (l : Loop) : ℕ × List ℕ × List ℕ × List ℕ := (l.last_seen_seq, l.shown, l.old, l.due)

lemma congr (h : QueueInv t l) {l' : Loop} (hview : view l' = view l)
    (hhistory : ∀ r ∈ l'.phase.history, r.seq ≤ l.last_seen_seq) : QueueInv t l' := by
  obtain ⟨hcursor, hview⟩ := Prod.mk.inj hview
  obtain ⟨hshown, hview⟩ := Prod.mk.inj hview
  obtain ⟨hold, hdue⟩ := Prod.mk.inj hview
  refine ⟨?_, ?_, ?_, ?_, ?_⟩
  · rw [Loop.reader, hcursor, hshown, hold]
    exact h.upToDate
  · rw [hcursor, hold]
    exact h.compacted_le
  · rwa [hcursor]
  · rw [hcursor]
    exact h.cursor_lt
  · rw [hshown, hdue]
    exact h.due_shown

/-- A step that stores at most one row and leaves the reader alone. -/
lemma of_frame (h : QueueInv t l) {l' : Loop} {t' : Thread} (hview : view l' = view l)
    (hphase : l'.phase.history = []) (hstored : t' = t ∨ ∃ m, t' = t.insert m) :
    QueueInv t' l' := by
  have hl : QueueInv t l' := h.congr hview (by simp [hphase])
  obtain rfl | ⟨m, rfl⟩ := hstored
  · exact hl
  · exact hl.insert m

end QueueInv

namespace Loop

open QueueInv

variable {t : Thread} {l : Loop}

lemma Insert.run_stored (t : Thread) (m : NewMessage) (insert : Insert) :
    (insert.run t m).1 = t ∨ (insert.run t m).1 = t.insert m := by
  cases insert with
  | stored => exact .inr rfl
  | _ => exact .inl rfl

@[simp] lemma view_preflight (cwc : Option (List ChatMessage)) :
    view (l.preflight cwc) = view l := by
  simp only [preflight]
  split_ifs
  · cases cwc <;> rfl
  all_goals rfl

/-- What a call of the model leaves alone. -/
structure Frame (t : Thread) (l : Loop) (t' : Thread) (l' : Loop) : Prop where
  view : view l' = view l
  phase : l'.phase.history = []
  stored : t' = t ∨ ∃ m, t' = t.insert m

lemma frame_onResponse (c : Llm.Collected) (insert : Insert) :
    Frame t l (l.onResponse t c insert).2 (l.onResponse t c insert).1 := by
  simp only [onResponse]
  split
  · simp only [onToolCalls]
    cases insert with
    | stored => exact ⟨rfl, rfl, .inr ⟨_, rfl⟩⟩
    | _ => exact ⟨rfl, rfl, .inl rfl⟩
  · split_ifs
    · exact ⟨rfl, rfl, (Insert.run_stored _ _ _).imp_right fun h => ⟨_, h⟩⟩
    · exact ⟨rfl, rfl, .inl rfl⟩
    · exact ⟨rfl, rfl, .inl rfl⟩

lemma frame_callLlm (account : Option UsageDaily) (cwc : Option (List ChatMessage))
    (dbFails : Bool) (s : Llm.Stream) (insert : Insert) :
    Frame t l (l.callLlm t account cwc dbFails s insert).2.1
      (l.callLlm t account cwc dbFails s insert).1 := by
  unfold callLlm
  simp only
  split
  · rename_i c _
    have h := frame_onResponse (t := t) (l := l.preflight cwc) c insert
    exact ⟨h.view.trans (view_preflight cwc), h.phase, h.stored⟩
  · exact ⟨rfl, rfl, .inl rfl⟩

@[simp] lemma history_nextCall (pending : List Llm.StreamedCall) :
    (nextCall pending).history = [] := by
  cases pending <;> rfl

@[simp] lemma view_discover (new_tool : Option String) : view (l.discover new_tool) = view l := by
  simp only [discover]
  split
  · split_ifs <;> rfl
  · rfl

lemma frame_toolCall (call : Llm.StreamedCall) (pending : List Llm.StreamedCall) (output : String)
    (new_tool : Option String) (insert : Insert) :
    Frame t l (l.toolCall t call pending output new_tool insert).2
      (l.toolCall t call pending output new_tool insert).1 := by
  simp only [toolCall]
  split
  · exact ⟨rfl, history_nextCall _, .inl rfl⟩
  · rename_i counts _
    have hview (l₁ : Loop) (h : view l₁ = view l) : view (l₁.discover new_tool) = view l := by
      rw [view_discover, h]
    simp only [dispatch]
    cases insert with
    | stored => exact ⟨hview _ rfl, history_nextCall _, .inr ⟨_, rfl⟩⟩
    | failed => exact ⟨hview _ rfl, history_nextCall _, .inl rfl⟩
    | aborted => exact ⟨hview _ rfl, rfl, .inl rfl⟩

@[simp] lemma view_reinforce (goal : String) : view (l.reinforce goal) = view l := by
  simp only [reinforce]
  split_ifs <;> rfl

lemma view_keep (phase : Phase) (r : Thread × Option (List Held)) :
    view (l.keep phase r).1 = view l ∧ (l.keep phase r).1.phase = phase ∧
      (l.keep phase r).2 = r.1 := by
  obtain ⟨t, _ | kept⟩ := r <;> exact ⟨rfl, rfl, rfl⟩

/-! ### Moves of the cursor -/

lemma le_lastSeq {history : List MessageRow}
    (hsorted : history.Pairwise fun a b => a.seq < b.seq) {r : MessageRow} (hr : r ∈ history) :
    r.seq ≤ lastSeq history := by
  obtain rfl | ⟨init, last, rfl⟩ := List.eq_nil_or_concat history
  · cases hr
  · simp only [List.concat_eq_append] at hsorted hr ⊢
    have hlast : lastSeq (init ++ [last]) = last.seq := by simp [lastSeq]
    rw [hlast]
    obtain hr | hr := List.mem_append.mp hr
    · exact ((List.pairwise_append.mp hsorted).2.2 r hr last (by simp)).le
    · exact (congrArg (·.seq) (List.mem_singleton.mp hr)).le

lemma lastSeq_lt (t : Thread) : lastSeq t.getThreadMessagesCompacted < t.nextSeq := by
  simp only [lastSeq]
  cases hlast : t.getThreadMessagesCompacted.getLast? with
  | none => exact t.pos
  | some r =>
    have := (Thread.mem_getThreadMessagesCompacted.mp (List.mem_of_getLast? hlast)).1
    exact t.lt_nextSeq r (by simp [this])

/-- No user row above the cursor has a number up to that of the last visible row. -/
def RefetchSafe (t : Thread) (l : Loop) : Prop :=
  ∀ r ∈ t.rows ++ t.inflight, r.role = .user → l.last_seen_seq < r.seq →
    lastSeq t.getThreadMessagesCompacted < r.seq

/-- No message in flight has a smaller number than one that is polled. -/
def PollSafe (t : Thread) (l : Loop) : Prop :=
  ∀ q ∈ l.newUserRows t, ∀ r ∈ t.inflight, r.role = .user → q.seq < r.seq

end Loop

namespace QueueInv

variable {t : Thread} {l : Loop}

lemma refetched (h : QueueInv t l) (hsafe : RefetchSafe t l) : QueueInv t (l.refetched t) where
  upToDate := by
    refine h.upToDate.advance ?_
    rintro n ⟨r, hr, huser, rfl, -⟩ hlt
    exact hsafe r hr huser hlt
  compacted_le r hr huser hold hc := (h.compacted_le r hr huser hold hc).trans (le_max_left _ _)
  history_le r hr := (h.history_le r hr).trans (le_max_left _ _)
  cursor_lt := max_lt h.cursor_lt (lastSeq_lt t)
  due_shown := h.due_shown

lemma mem_newUserRows (h : QueueInv t l) {r : MessageRow} (hr : r ∈ t.rows)
    (huser : r.role = .user) (hold : r.seq ∉ l.old) (hlt : l.last_seen_seq < r.seq) :
    r ∈ l.newUserRows t := by
  refine Thread.mem_getNewUserMessagesSince.mpr ⟨hr, hlt, huser, ?_⟩
  by_contra hc
  exact absurd (h.compacted_le r hr huser hold (by simpa using hc)) (Nat.not_le_of_lt hlt)

lemma reader_inject (t : Thread) (l : Loop) :
    (l.inject t).reader = l.reader.read ((l.newUserRows t).map (·.seq)) := by
  simp [Loop.reader, inject, Reader.read, List.foldl_map]

lemma inject (h : QueueInv t l) (hsafe : PollSafe t l) : QueueInv t (l.inject t) := by
  have hread : (l.inject t).reader.UpToDate (dueRows l.old t) := by
    rw [reader_inject]
    refine h.upToDate.read ?_ ?_ ?_
    · refine List.pairwise_map.mpr ?_
      exact (t.rows_lt.sublist List.filter_sublist).imp fun h => h.ne
    · intro n hn
      obtain ⟨r, hr, rfl⟩ := List.mem_map.mp hn
      exact (Thread.mem_getNewUserMessagesSince.mp hr).2.1
    · rintro n ⟨r, hr, huser, rfl, hold⟩ hlt hnot m hm
      obtain ⟨q, hq, rfl⟩ := List.mem_map.mp hm
      obtain hr | hr := List.mem_append.mp hr
      · exact absurd (List.mem_map_of_mem (h.mem_newUserRows hr huser hold hlt)) hnot
      · exact hsafe q hq r hr huser
  have hle : l.last_seen_seq ≤ (l.inject t).last_seen_seq := by
    have := congrArg Reader.cursor (reader_inject t l)
    exact (Reader.le_foldl_max _ _).trans this.ge
  refine ⟨hread, ?_, ?_, ?_, ?_⟩
  · exact fun r hr huser hold hc => (h.compacted_le r hr huser hold hc).trans hle
  · exact fun r hr => (h.history_le r hr).trans hle
  · have := congrArg Reader.cursor (reader_inject t l)
    refine this.trans_lt (Reader.foldl_max_lt h.cursor_lt fun n hn => ?_)
    obtain ⟨r, hr, rfl⟩ := List.mem_map.mp hn
    exact t.lt_nextSeq r (by simp [(Thread.mem_getNewUserMessagesSince.mp hr).1])
  · intro n hn
    obtain ⟨hn, hold⟩ := List.mem_filter.mp hn
    obtain ⟨r, hr, rfl⟩ := List.mem_map.mp hn
    obtain ⟨hr, huser⟩ := List.mem_filter.mp hr
    simp only [decide_eq_true_eq] at hold huser
    refine List.mem_append.mpr ?_
    by_cases hlt : l.last_seen_seq < r.seq
    · exact .inr (List.mem_map_of_mem (h.mem_newUserRows hr huser hold hlt))
    · exact .inl (h.upToDate.seen_of_le _ ⟨r, by simp [hr], huser, rfl, hold⟩
        (Nat.le_of_not_lt hlt))

lemma afterPoll (h : QueueInv t l) : QueueInv t l.afterPoll := by
  refine h.congr rfl ?_
  unfold Loop.afterPoll
  simp only
  split_ifs <;> simp [Phase.history]

lemma keep (h : QueueInv t l) {history : List MessageRow} {r : Thread × Option (List Held)}
    (htrim : Trimmed history t r.1) (hhistory : ∀ q ∈ history, q.seq ≤ l.last_seen_seq)
    {phase : Phase} (hphase : phase.history = []) :
    QueueInv (l.keep phase r).2 (l.keep phase r).1 := by
  obtain ⟨hview, hphase', hthread⟩ := view_keep (l := l) phase r
  rw [hthread]
  exact (h.trimmed htrim hhistory).congr hview (by simp [hphase', hphase])

/-- Every message that was there at the last poll has been appended once. -/
lemma count_due (h : QueueInv t l) {n : ℕ} (hn : n ∈ l.due) : l.shown.count n = 1 :=
  List.count_eq_one_of_mem h.upToDate.nodup (h.due_shown n hn)

end QueueInv

/-- A loop that starts has seen what it has built its list from. -/
lemma queueInv_startLoop {t : Thread} {cfg : LoopConfig} {tools : List String} {hint : String}
    {memory memory_pairs : List (String × String)}
    (hsafe : ∀ r ∈ t.inflight, r.role = .user → lastSeq t.getThreadMessagesCompacted < r.seq) :
    QueueInv t (startLoop t cfg tools hint memory memory_pairs) := by
  have hsorted : t.getThreadMessagesCompacted.Pairwise fun a b => a.seq < b.seq :=
    t.rows_lt.sublist List.filter_sublist
  have hvisible {r : MessageRow} (hr : r ∈ t.rows)
      (hold : r.seq ∉ (t.rows.filter (·.compacted)).map (·.seq)) : r.compacted = false := by
    by_contra hc
    exact hold (List.mem_map_of_mem (List.mem_filter.mpr ⟨hr, by simpa using hc⟩))
  refine ⟨⟨?_, ?_, ?_⟩, ?_, ?_, lastSeq_lt t, ?_⟩
  · rintro n ⟨r, hr, huser, rfl, hold⟩ hle
    obtain hr | hr := List.mem_append.mp hr
    · have := Thread.mem_getThreadMessagesCompacted.mpr ⟨hr, hvisible hr hold⟩
      exact List.mem_map_of_mem (List.mem_filter.mpr ⟨this, by simpa using huser⟩)
    · exact absurd hle (Nat.not_le_of_lt (hsafe r hr huser))
  · refine List.pairwise_map.mpr ?_
    exact (hsorted.sublist List.filter_sublist).imp fun h => h.ne
  · intro n hn
    obtain ⟨r, hr, rfl⟩ := List.mem_map.mp hn
    exact le_lastSeq hsorted (List.mem_of_mem_filter hr)
  · intro r hr _ hold hc
    rw [hvisible hr hold] at hc
    cases hc
  · exact fun r hr => le_lastSeq hsorted hr
  · exact fun n hn => absurd hn List.not_mem_nil

/-! ### Runs -/

/-- Where the loop moves its cursor, it skips no user row that it has not appended. -/
def LoopCursorSafe (t : Thread) (l : Loop) : LoopAct → Prop
  | .poll dbFails => dbFails = false → PollSafe t l
  | .afterTools _ dbFails =>
    l.cfg.use_cwc = false ∧ l.cfg.is_local = true ∧ dbFails = false → RefetchSafe t l
  | .check shouldCompact dbFails => shouldCompact = true ∧ dbFails = false → RefetchSafe t l
  | _ => True

def CursorSafe (s : System) : Act → Prop
  | .start _ _ _ _ _ => ∀ r ∈ s.thread.inflight, r.role = .user →
      lastSeq s.thread.getThreadMessagesCompacted < r.seq
  | .loop a => ∀ l ∈ s.loop, LoopCursorSafe s.thread l a
  | _ => True

namespace QueueInv

variable {t : Thread} {l : Loop}

lemma compact (h : QueueInv t l) {history : List MessageRow} (hphase : l.phase.history = history)
    (d : TrimInput) : QueueInv (l.compact t history d).2 (l.compact t history d).1 :=
  h.keep (trimmed_legacyCompact _ d) (hphase ▸ h.history_le) rfl

lemma startCheck (h : QueueInv t l) {history : List MessageRow}
    (hphase : l.phase.history = history) (c : StartCheck) :
    QueueInv (l.startCheck t history c).2 (l.startCheck t history c).1 := by
  cases c with
  | within | cwc msgs => exact h.congr rfl (by simp [Loop.startCheck, Phase.history])
  | legacy d => exact h.compact hphase d

lemma trim (h : QueueInv t l) {history : List MessageRow} (hphase : l.phase.history = history)
    (d : TrimInput) : QueueInv (l.trim t history d).2 (l.trim t history d).1 :=
  h.keep ((Trimmed.refl t).slidingWindowTrim _ _ _ _ _ _) (hphase ▸ h.history_le) rfl

lemma poll (h : QueueInv t l) (dbFails : Bool)
    (hsafe : LoopCursorSafe t l (.poll dbFails)) : QueueInv t (l.poll t dbFails) := by
  cases dbFails with
  | false => exact (h.inject (hsafe rfl)).afterPoll
  | true => exact h.afterPoll

/-- The history that a refetch keeps is below the new cursor. -/
lemma refetched_phase (h : QueueInv t l) (hsafe : RefetchSafe t l) {phase : Phase}
    (hphase : phase.history = t.getThreadMessagesCompacted) :
    QueueInv t { l.refetched t with phase := phase } := by
  refine (h.refetched hsafe).congr rfl ?_
  rw [hphase]
  exact fun r hr => (le_lastSeq (t.rows_lt.sublist List.filter_sublist) hr).trans
    (le_max_right _ _)

lemma check (h : QueueInv t l) (shouldCompact dbFails : Bool)
    (hsafe : LoopCursorSafe t l (.check shouldCompact dbFails)) :
    QueueInv t (l.check t shouldCompact dbFails) := by
  simp only [Loop.check]
  split_ifs with hshould hfails
  · exact h.congr rfl (by simp [Phase.history])
  · exact h.refetched_phase (hsafe ⟨hshould, by simpa using hfails⟩) rfl
  · exact h.congr rfl (by simp [Phase.history])

lemma reinforce (h : QueueInv t l) (goal : String) {phase : Phase} (hphase : phase.history = []) :
    QueueInv t { l.reinforce goal with phase := phase } :=
  h.congr (view_reinforce goal) (by simp [hphase])

lemma afterTools (h : QueueInv t l) (cwc : Option (List ChatMessage)) (dbFails : Bool)
    (hsafe : LoopCursorSafe t l (.afterTools cwc dbFails)) :
    QueueInv t (l.afterTools t cwc dbFails) := by
  simp only [Loop.afterTools]
  split_ifs with hcwc hlocal hfails
  · cases cwc with
    | some msgs => exact h.congr rfl (by simp [Phase.history])
    | none => exact h.reinforce "" rfl
  · exact h.congr rfl (by simp [Phase.history])
  · have hl : QueueInv t (l.reinforce l.goalReminder) :=
      h.congr (view_reinforce _) (by
        simp only [Loop.reinforce]
        split_ifs
        exact h.history_le)
    refine hl.refetched_phase ?_ rfl
    have hcursor : (l.reinforce l.goalReminder).last_seen_seq = l.last_seen_seq :=
      congrArg Prod.fst (view_reinforce l.goalReminder)
    intro r hr huser hlt
    rw [hcursor] at hlt
    exact hsafe ⟨by simpa using hcwc, hlocal, by simpa using hfails⟩ r hr huser hlt
  · exact h.reinforce "" rfl

end QueueInv

/-- The loop of the system, if there is one, meets the invariant. -/
def QueueInvAll (s : System) : Prop := ∀ l ∈ s.loop, QueueInv s.thread l

lemma queueInv_loopStep {s s' : System} {l : Loop} {a : LoopAct} (h : QueueInv s.thread l)
    (hsafe : LoopCursorSafe s.thread l a) (hstep : s.loopStep l a = some s') : QueueInvAll s' := by
  have hnext {r : Loop × Thread} (h' : QueueInv r.2 r.1) : QueueInvAll (s.next r) := by
    rintro _ ⟨⟩
    exact h'
  cases System.LoopRule.of_loopStep hstep with
  | startCheck hphase => exact hnext (h.startCheck (by rw [hphase]; rfl) _)
  | poll hphase => exact hnext (h.poll _ hsafe)
  | callLlm hphase =>
    rintro _ ⟨⟩
    have hframe := frame_callLlm (t := s.thread) (l := l)
    exact h.of_frame (hframe _ _ _ _ _).view (hframe _ _ _ _ _).phase (hframe _ _ _ _ _).stored
  | toolCall hphase =>
    have hframe := frame_toolCall (t := s.thread) (l := l)
    exact hnext (h.of_frame (hframe _ _ _ _ _).view (hframe _ _ _ _ _).phase
      (hframe _ _ _ _ _).stored)
  | afterTools hphase => exact hnext (h.afterTools _ _ hsafe)
  | trim hphase => exact hnext (h.trim (by rw [hphase]; rfl) _)
  | check hphase => exact hnext (h.check _ _ hsafe)
  | compact hphase => exact hnext (h.compact (by rw [hphase]; rfl) _)

lemma queueInvAll_step (s : System) (a : Act) (s' : System) (h : QueueInvAll s)
    (hsafe : CursorSafe s a) (hstep : s.step a = some s') : QueueInvAll s' := by
  cases a with
  | queueInsert content =>
    cases hstep
    exact fun l hl => (h l hl).begin _
  | queueCommit seq =>
    obtain ⟨t, ht, rfl⟩ := Option.map_eq_some_iff.mp hstep
    obtain ⟨r, hr, rfl⟩ := Thread.commitSeq_of_eq_some ht
    exact fun l hl => (h l hl).commit hr
  | otherThread =>
    cases hstep
    exact fun l hl => (h l hl).bump
  | send content =>
    simp only [System.step] at hstep
    split_ifs at hstep
    cases hstep
    exact fun l hl => (h l hl).insert _
  | start cfg tools hint memory memory_pairs =>
    simp only [System.step] at hstep
    split_ifs at hstep
    cases hstep
    rintro _ ⟨⟩
    exact queueInv_startLoop hsafe
  | loop a =>
    simp only [System.step] at hstep
    cases hloop : s.loop with
    | none =>
      rw [hloop] at hstep
      cases hstep
    | some l =>
      rw [hloop] at hstep
      exact queueInv_loopStep (h l hloop) (hsafe l hloop) hstep

/-- In every run in which no step moves the cursor past a user row that has not been appended,
every user message that was there at the last poll has been appended exactly once. -/
theorem count_shown_eq_one (account : Option UsageDaily) (acts : List Act) (s : System)
    (l : Loop) (hrun : exec System.step (System.init account) acts = some s)
    (hsafe : Along System.step CursorSafe (System.init account) acts) (hl : s.loop = some l) :
    ∀ n ∈ l.due, l.shown.count n = 1 := by
  have hinit : QueueInvAll (System.init account) := by
    intro l hl
    cases hl
  have h := exec_invariant queueInvAll_step hinit hsafe hrun
  exact fun n hn => (h l hl).count_due hn

/-! ### A message queued during a tool call -/

instance (t : Thread) (l : Loop) : Decidable (RefetchSafe t l) :=
  inferInstanceAs (Decidable (∀ r ∈ t.rows ++ t.inflight, r.role = .user →
    l.last_seen_seq < r.seq → lastSeq t.getThreadMessagesCompacted < r.seq))

instance (t : Thread) (l : Loop) : Decidable (PollSafe t l) :=
  inferInstanceAs (Decidable (∀ q ∈ l.newUserRows t, ∀ r ∈ t.inflight, r.role = .user →
    q.seq < r.seq))

instance (t : Thread) (l : Loop) : DecidablePred (LoopCursorSafe t l)
  | .poll dbFails => inferInstanceAs (Decidable (dbFails = false → PollSafe t l))
  | .afterTools _ dbFails => inferInstanceAs (Decidable
      (l.cfg.use_cwc = false ∧ l.cfg.is_local = true ∧ dbFails = false → RefetchSafe t l))
  | .check shouldCompact dbFails =>
    inferInstanceAs (Decidable (shouldCompact = true ∧ dbFails = false → RefetchSafe t l))
  | .startCheck _ | .callLlm _ _ _ _ | .toolCall _ _ _ | .trim _ | .compact _ => isTrue trivial

instance (s : System) : DecidablePred (CursorSafe s)
  | .start _ _ _ _ _ => inferInstanceAs (Decidable (∀ r ∈ s.thread.inflight, r.role = .user →
      lastSeq s.thread.getThreadMessagesCompacted < r.seq))
  | .loop a => inferInstanceAs (Decidable (∀ l ∈ s.loop, LoopCursorSafe s.thread l a))
  | .queueInsert _ | .queueCommit _ | .otherThread | .send _ => isTrue trivial

/-- A message is queued between the call of the model and the result of the tool. -/
def queueDuringTool (is_local : Bool) (afterTools : List LoopAct) : List Act :=
  [.send "q1", .start (fileInfoConfig is_local) ["file.info"] "" [] [], .loop (.startCheck .within),
    .loop (.poll false), .loop (.callLlm none false (oneToolCall "{}") .stored),
    .queueInsert "q2", .queueCommit 3, .loop (.toolCall "ok" none .stored)] ++
  afterTools.map .loop

theorem count_shown_queueDuringTool :
    ∃ s l, exec System.step (System.init none)
        (queueDuringTool false [.afterTools none false, .check false false, .poll false]) = some s ∧
      s.loop = some l ∧ l.due = [1, 3] ∧ ∀ n ∈ l.due, l.shown.count n = 1 := by
  obtain ⟨s, l, hrun, hl, hdue⟩ : ∃ s l, exec System.step (System.init none)
      (queueDuringTool false [.afterTools none false, .check false false, .poll false]) = some s ∧
      s.loop = some l ∧ l.due = [1, 3] := ⟨_, _, rfl, rfl, by decide +kernel⟩
  exact ⟨s, l, hrun, hl, hdue,
    count_shown_eq_one none _ s l hrun (by decide +kernel) hl⟩

/-- With a local model, the refetch before the trim moves the cursor to the row of the tool
result, and the next poll no longer finds the queued message. -/
theorem not_count_shown_queueDuringTool :
    ∃ s l, exec System.step (System.init none) (queueDuringTool true
        [.afterTools none false, .trim { estimated := 40, trigger := 8000 }, .check false false,
          .poll false]) = some s ∧
      s.loop = some l ∧ l.due = [1, 3] ∧ l.shown = [1] ∧ l.last_seen_seq = 4 ∧
      ¬ ∀ n ∈ l.due, l.shown.count n = 1 :=
  ⟨_, _, rfl, rfl, by decide +kernel, by decide +kernel, by decide +kernel, by decide +kernel⟩

end Arbeiterfarm.Agents
