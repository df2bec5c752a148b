import Arbeiterfarm.Db.Deletes
import Arbeiterfarm.Foundation.Fallible

/-!
# What a delete leaves

A delete is complete if it succeeds, the targeted threads are gone, and no other thread, message or
artifact is. The statements are in the order of the foreign keys, except for some that were added
later. For each function the databases are described on which its deletes are complete.
-/

namespace Arbeiterfarm.Db

open Foundation Database

variable {db db' : Tables} {r r' p : Row} {Kept : Row → Prop}

/-! ### Completeness -/

/-- The row is still there. -/
def Present (db' : Tables) (r : Row) : Prop := ∃ r' ∈ db', r'.table = r.table ∧ r'.id = r.id

/-- The targeted threads are gone, and the other threads, messages and artifacts are there. -/
structure Complete (Target : Row → Prop) (db db' : Tables) : Prop where
  gone : ∀ r ∈ db, r.table = .threads → Target r → ¬ Present db' r
  kept : ∀ r ∈ db, r.table ∈ [.threads, .messages, .artifacts] → ¬ Target r → Present db' r

/-- A row of the threads: one of them, or one of their messages. -/
def OfThreads (Threads : Uuid → Prop) (r : Row) : Prop :=
  (r.table = .threads ∧ Threads r.id) ∨
    (r.table = .messages ∧ ∃ i, r.ref .thread_id = some i ∧ Threads i)

def ParentOf (db : Tables) (i j : Uuid) : Prop :=
  ∃ t ∈ db, t.table = .threads ∧ t.ref .parent_thread_id = some i ∧ t.id = j

/-- The thread with the id, or one of its descendants. -/
def InTree (db : Tables) (id i : Uuid) : Prop :=
  (∃ t ∈ db, t.table = .threads ∧ t.id = id) ∧ Relation.ReflTransGen (ParentOf db) id i

/-- A thread of the project. -/
def InProject (db : Tables) (id i : Uuid) : Prop :=
  ∃ t ∈ db, t.table = .threads ∧ t.ref .project_id = some id ∧ t.id = i

/-- An expired thread without children. -/
def IsPurged (now : ℤ) (db : Tables) (i : Uuid) : Prop :=
  (∃ t ∈ db, t.table = .threads ∧ t.id = i ∧ isExpired now db t = .ok true) ∧
    ¬ ∃ j, ParentOf db i j

/-- A thread goes with all its descendants. -/
def DeletesThread (db : Tables) (id : Uuid) : Prop :=
  ∃ fuel found db', deleteThread fuel db id = some (.ok (found, db')) ∧
    Complete (OfThreads (InTree db id)) db db'

/-- A project goes with all its threads and artifacts. -/
def DeletesProject (db : Tables) (id : Uuid) : Prop :=
  ∃ found db', deleteProject db id = .ok (found, db') ∧
    Complete (fun r => OfThreads (InProject db id) r ∨
      (r.table = .artifacts ∧ r.ref .project_id = some id)) db db'

/-- The expired threads without children go. -/
def Purges (now : ℤ) (db : Tables) : Prop :=
  ∃ n db', purgeExpiredThreads now db = .ok (n, db') ∧
    Complete (OfThreads (IsPurged now db)) db db'

/-! ### Conditions -/

/-- The row refers to one of the threads. -/
def RefersInto (Threads : Uuid → Prop) (r : Row) : Prop :=
  ∃ i, r.ref .thread_id = some i ∧ Threads i

/-- The descendants of the thread are not on a cycle, and scheduled mail of theirs has been logged
for them. -/
structure ThreadDeletable (db : Tables) (id : Uuid) : Prop where
  acyclic : ∀ i, InTree db id i → ¬ Relation.TransGen (ParentOf db) i i
  logged : ∀ log ∈ db, log.table = .email_log → ∀ mail ∈ db, mail.table = .email_scheduled →
    log.ref .scheduled_email_id = some mail.id → RefersInto (InTree db id) mail →
    RefersInto (InTree db id) log

/-- The threads of the project have no memory and no children in other projects, runs of other
projects have no artifacts of it, and its scheduled mail has been logged for it or its threads. -/
structure ProjectDeletable (db : Tables) (id : Uuid) : Prop where
  memory : ∀ m ∈ db, m.table = .thread_memory → ¬ RefersInto (InProject db id) m
  children : ∀ t ∈ db, t.table = .threads → ∀ i, t.ref .parent_thread_id = some i →
    InProject db id i → t.ref .project_id = some id
  runs : ∀ link ∈ db, link.table = .tool_run_artifacts → ∀ a ∈ db, a.table = .artifacts →
    a.ref .project_id = some id → link.ref .artifact_id = some a.id →
    ∃ run ∈ db, run.table = .tool_runs ∧ run.ref .project_id = some id ∧
      link.ref .tool_run_id = some run.id
  loggedForThreads : ∀ log ∈ db, log.table = .email_log → ∀ mail ∈ db,
    mail.table = .email_scheduled → log.ref .scheduled_email_id = some mail.id →
    RefersInto (InProject db id) mail → RefersInto (InProject db id) log
  loggedForProject : ∀ log ∈ db, log.table = .email_log → ∀ mail ∈ db,
    mail.table = .email_scheduled → log.ref .scheduled_email_id = some mail.id →
    mail.ref .project_id = some id →
    RefersInto (InProject db id) log ∨ log.ref .project_id = some id

/-- Every cutoff can be computed, and no thread that is purged has mail. -/
structure Purgeable (now : ℤ) (db : Tables) : Prop where
  inRange : ∀ t ∈ db, t.table = .threads → ∀ e, isExpired now db t ≠ .error e
  noMail : ∀ mail ∈ db, mail.table ∈ [.email_log, .email_scheduled] →
    ¬ RefersInto (IsPurged now db) mail

/-! ### What a statement removes -/

lemma mem_ids {t : TableName} {q : Row → Bool} {i : Uuid} :
    i ∈ ids db t q ↔ ∃ r ∈ db, r.table = t ∧ q r = true ∧ r.id = i := by
  simp only [ids, List.mem_map, List.mem_filter, Bool.and_eq_true, decide_eq_true_eq, and_assoc]

/-- Scheduled mail is the only checked table that a cascade reaches. -/
lemma gone_of_ne {selected : Row → Bool} (hr : r ∈ db) (hchecked : Checked r.table)
    (hne : r.table ≠ .email_scheduled) : gone schema db selected r = selected r := by
  have honly : ∀ fk ∈ schema, fk.on_delete = .cascade → Checked fk.child →
      fk.child = .email_scheduled := by decide
  apply gone_eq_selected hr
  rintro fk hfk hcascade heq
  rw [← heq] at hchecked hne
  exact hne (honly fk hfk hcascade hchecked)

/-- Scheduled mail goes with its project. -/
lemma gone_email_scheduled {selected : Row → Bool} (hr : r ∈ db)
    (htable : r.table = .email_scheduled) : gone schema db selected r = true ↔
      selected r = true ∨
        ∃ p ∈ db, p.table = .projects ∧ selected p = true ∧ r.ref .project_id = some p.id := by
  have honly : ∀ fk ∈ schema, fk.on_delete = .cascade → fk.child = .email_scheduled →
      fk = ⟨.email_scheduled, .project_id, .projects, .cascade⟩ := by decide
  have hproject (p : Row) (hp : p ∈ db) (htable : p.table = .projects) :
      gone schema db selected p = selected p := by
    apply gone_of_ne hp
    · rw [htable]
      decide
    · rw [htable]
      decide
  rw [gone_iff hr]
  apply or_congr_right
  constructor
  · rintro ⟨fk, hfk, hcascade, p, hp, hgone, hchild, hparent, href⟩
    obtain rfl := honly fk hfk hcascade (hchild.symm.trans htable)
    rw [hproject p hp hparent] at hgone
    exact ⟨p, hp, hparent, hgone, href⟩
  · rintro ⟨p, hp, hparent, hgone, href⟩
    refine ⟨⟨.email_scheduled, .project_id, .projects, .cascade⟩, by decide, rfl, p, hp, ?_,
      htable, hparent, href⟩
    rwa [hproject p hp hparent]

/-- Without projects, a statement removes the selected rows of a checked table. -/
lemma gone_of_noProjects {selected : Row → Bool}
    (hprojects : ∀ p ∈ db, p.table = .projects → selected p = false) (hr : r ∈ db)
    (hchecked : Checked r.table) : gone schema db selected r = selected r := by
  by_cases htable : r.table = .email_scheduled
  · rw [Bool.eq_iff_iff, gone_email_scheduled hr htable]
    refine ⟨?_, .inl⟩
    rintro (h | ⟨p, hp, hparent, hselected, -⟩)
    · exact h
    · rw [hprojects p hp hparent] at hselected
      cases hselected
  · exact gone_of_ne hr hchecked htable

/-! ### Databases after some statements -/

/-- A column that is never set to NULL. -/
def Plain (c : Column) : Prop := ∀ fk ∈ schema, fk.on_delete = .setNull → fk.column ≠ c

instance : DecidablePred Plain := fun c =>
  inferInstanceAs (Decidable (∀ fk ∈ schema, fk.on_delete = .setNull → fk.column ≠ c))

lemma ref_of_same {c : Column} (hc : Plain c) (h : Same schema r r') : r'.ref c = r.ref c :=
  h.ref c fun fk hfk hnull _ => hc fk hfk hnull

lemma refIs_of_same {c : Column} (hc : Plain c) (h : Same schema r r') (i : Uuid) :
    refIs c i r' = refIs c i r := by
  rw [refIs, refIs, ref_of_same hc h]

lemma refIn_of_same {c : Column} (hc : Plain c) (h : Same schema r r') {is is' : List Uuid}
    (his : ∀ i, i ∈ is' ↔ i ∈ is) : refIn c is' r' = refIn c is r := by
  rw [refIn, refIn, ref_of_same hc h]
  cases r.ref c with
  | none => rfl
  | some i =>
    rw [Option.any_some, Option.any_some]
    exact decide_eq_decide.mpr (his i)

/-- A query on a table from which nothing has been deleted. -/
lemma mem_ids_of_represents (hrep : Represents schema Checked db Kept db') {t : TableName}
    (ht : Checked t) (hkept : ∀ r ∈ db, r.table = t → Kept r) {q q' : Row → Bool}
    (hq : ∀ r r', Same schema r r' → q' r' = q r) (i : Uuid) :
    i ∈ ids db' t q' ↔ i ∈ ids db t q := by
  rw [mem_ids, mem_ids]
  constructor
  · rintro ⟨r', hr', htable, hsel, hid⟩
    obtain ⟨r, hr, -, hsame⟩ := hrep.of_mem r' hr' (by rwa [htable])
    exact ⟨r, hr, hsame.table.symm.trans htable, by rwa [← hq r r' hsame], hsame.id.symm.trans hid⟩
  · rintro ⟨r, hr, htable, hsel, hid⟩
    obtain ⟨r', hr', hsame⟩ := hrep.mem r hr (by rwa [htable]) (hkept r hr htable)
    exact ⟨r', hr', hsame.table.trans htable, by rwa [hq r r' hsame], hsame.id.trans hid⟩

/-- A statement that selects the same rows as in the original database removes the same rows, as
long as the projects are there. -/
lemma removes_of_agrees {selected : Tables → Row → Bool}
    (hprojects : ∀ p ∈ db, p.table = .projects → Kept p)
    (hselected : ∀ db', Represents schema Checked db Kept db' → ∀ r r', Same schema r r' →
      selected db' r' = selected db r) :
    Removes schema Checked db Kept (fun r => gone schema db (selected db) r = true) selected := by
  intro db' hrep r hr hchecked hkept r' hr' hsame
  have hagrees := hselected db' hrep r r' hsame
  show gone schema db' (selected db') r' = true ↔ gone schema db (selected db) r = true
  by_cases htable : r.table = .email_scheduled
  · have htable' : r'.table = .email_scheduled := hsame.table.trans htable
    have hplain : Plain .project_id := by decide
    have hchecked' : Checked .projects := by decide
    rw [gone_email_scheduled hr' htable', gone_email_scheduled hr htable, hagrees,
      ref_of_same hplain hsame]
    apply or_congr_right
    constructor
    · rintro ⟨p', hp', hparent, hsel, href⟩
      obtain ⟨p, hp, -, hsame'⟩ := hrep.of_mem p' hp' (by rwa [hparent])
      refine ⟨p, hp, hsame'.table.symm.trans hparent, ?_, by rwa [← hsame'.id]⟩
      rwa [← hselected db' hrep p p' hsame']
    · rintro ⟨p, hp, hparent, hsel, href⟩
      obtain ⟨p', hp', hsame'⟩ := hrep.mem p hp (by rwa [hparent]) (hprojects p hp hparent)
      refine ⟨p', hp', hsame'.table.trans hparent, ?_, by rwa [hsame'.id]⟩
      rwa [hselected db' hrep p p' hsame']
  · have htable' : r'.table ≠ .email_scheduled := by rwa [hsame.table]
    rw [gone_of_ne hr' (by rwa [hsame.table]) htable', gone_of_ne hr hchecked htable, hagrees]

/-- A row is still there if it is kept. -/
lemma present_iff (hvalid : Valid schema db) (hrep : Represents schema Checked db Kept db')
    (hr : r ∈ db) (hchecked : Checked r.table) : Present db' r ↔ Kept r := by
  constructor
  · rintro ⟨r', hr', htable, hid⟩
    obtain ⟨r₀, hr₀, hkept, hsame⟩ := hrep.of_mem r' hr' (by rwa [htable])
    have heq : r₀ = r :=
      hvalid.eq_of_id hr₀ hr (hsame.table.symm.trans htable) (hsame.id.symm.trans hid)
    rwa [← heq]
  · intro hkept
    obtain ⟨r', hr', hsame⟩ := hrep.mem r hr hchecked hkept
    exact ⟨r', hr', hsame.table, hsame.id⟩

/-- The deletes of some statements are complete if they remove the targeted threads, and no other
thread, message or artifact. -/
lemma complete_of_represents {Target : Row → Prop} (hvalid : Valid schema db)
    (hrep : Represents schema Checked db Kept db')
    (hgone : ∀ r ∈ db, r.table = .threads → Target r → ¬ Kept r)
    (hkept : ∀ r ∈ db, r.table ∈ [.threads, .messages, .artifacts] → ¬ Target r → Kept r) :
    Complete Target db db' where
  gone r hr htable htarget := by
    rw [present_iff hvalid hrep hr (by rw [htable]; decide)]
    exact hgone r hr htable htarget
  kept r hr htable htarget := by
    have hchecked : ∀ t ∈ [TableName.threads, .messages, .artifacts], Checked t := by decide
    rw [present_iff hvalid hrep hr (hchecked r.table htable)]
    exact hkept r hr htable htarget

/-! ### One statement -/

lemma refIs_iff {c : Column} {i : Uuid} : refIs c i r = true ↔ r.ref c = some i := by
  rw [refIs, decide_eq_true_eq]

lemma refIn_iff {c : Column} {is : List Uuid} :
    refIn c is r = true ↔ ∃ i, r.ref c = some i ∧ i ∈ is := by
  rw [refIn, Option.any_eq_true]
  simp only [decide_eq_true_eq]

/-- The keys to the rows that go with threads. -/
lemma noAction_threads : ∀ fk ∈ schema, fk.on_delete = .noAction →
    fk.parent ∈ [.threads, .messages, .message_evidence, .thread_memory, .email_log,
      .email_scheduled] →
    fk ∈ [⟨.messages, .thread_id, .threads, .noAction⟩,
      ⟨.threads, .parent_thread_id, .threads, .noAction⟩,
      ⟨.thread_memory, .thread_id, .threads, .noAction⟩,
      ⟨.email_scheduled, .thread_id, .threads, .noAction⟩,
      ⟨.email_log, .thread_id, .threads, .noAction⟩,
      ⟨.message_evidence, .message_id, .messages, .noAction⟩,
      ⟨.email_log, .scheduled_email_id, .email_scheduled, .noAction⟩] := by
  decide

section

variable {selected : Row → Bool}

/-- A statement that deletes no projects succeeds if no remaining row refers to a selected one. -/
lemma delete_ok_iff_unreferenced
    (hprojects : ∀ p ∈ db, p.table = .projects → selected p = false) :
    (∃ db', delete schema selected db = .ok db') ↔
      Unreferenced schema db fun r => selected r = true := by
  have hgone (r : Row) (hr : r ∈ db) (hchecked : Checked r.table) :
      gone schema db selected r = selected r := gone_of_noProjects hprojects hr hchecked
  have hsame : Unreferenced schema db (fun r => gone schema db selected r = true) ↔
      Unreferenced schema db fun r => selected r = true := by
    constructor
    · intro h fk hfk hnoAction r hr p hp hrefers hsel
      obtain ⟨hchild, hparent⟩ := coreOf_checked fk hfk hnoAction
      rw [← hrefers.1] at hchild
      rw [← hrefers.2.1] at hparent
      show selected r = true
      rw [← hgone r hr hchild]
      apply h fk hfk hnoAction r hr p hp hrefers
      rwa [hgone p hp hparent]
    · intro h fk hfk hnoAction r hr p hp hrefers hsel
      obtain ⟨hchild, hparent⟩ := coreOf_checked fk hfk hnoAction
      rw [← hrefers.1] at hchild
      rw [← hrefers.2.1] at hparent
      show gone schema db selected r = true
      rw [hgone r hr hchild]
      apply h fk hfk hnoAction r hr p hp hrefers
      rwa [← hgone p hp hparent]
  simp only [delete_eq_ok, exists_and_left, exists_eq, and_true]
  exact hsame

/-- After it, the rows are there that are not selected. -/
lemma represents_of_delete (hprojects : ∀ p ∈ db, p.table = .projects → selected p = false)
    (h : delete schema selected db = .ok db') :
    Represents schema Checked db (fun r => selected r = false) db' := by
  obtain ⟨-, rfl⟩ := delete_eq_ok.mp h
  constructor
  · intro r'' hr'' hchecked
    obtain ⟨r, hr, rfl⟩ := List.mem_map.mp hr''
    obtain ⟨hr, hkept⟩ := List.mem_filter.mp hr
    refine ⟨r, hr, ?_, same_setNulls _ _⟩
    rwa [gone_of_noProjects hprojects hr hchecked, Bool.not_eq_true'] at hkept
  · intro r hr hchecked hkept
    refine ⟨_, List.mem_map_of_mem (List.mem_filter.mpr ⟨hr, ?_⟩), same_setNulls _ _⟩
    rwa [gone_of_noProjects hprojects hr hchecked, Bool.not_eq_true']

end

/-! ### Threads and what goes with them -/

section

variable {threads : List Uuid}

/-- The children of the threads are among them. -/
def ClosedUnderChildren (db : Tables) (threads : List Uuid) : Prop :=
  ∀ t ∈ db, t.table = .threads → ∀ i, t.ref .parent_thread_id = some i → i ∈ threads →
    t.id ∈ threads

lemma purgedWith_table (h : purgedWith threads db p = true) :
    p.table ∈ [.threads, .messages, .message_evidence, .thread_memory] := by
  rw [purgedWith] at h
  split at h
  · next htable => rw [htable]; decide
  · next htable => rw [htable]; decide
  · next htable => rw [htable]; decide
  · next htable => rw [htable]; decide
  · cases h

lemma deletedWith_table (h : deletedWith threads db p = true) :
    p.table ∈ [.threads, .messages, .message_evidence, .thread_memory, .email_log,
      .email_scheduled] := by
  rw [deletedWith] at h
  split at h
  · next htable => rw [htable]; decide
  · next htable => rw [htable]; decide
  · exact List.mem_append_left [.email_log, .email_scheduled] (purgedWith_table h)

/-- Mail apart, the same goes with threads that are deleted. -/
lemma deletedWith_eq_purgedWith (hlog : r.table ≠ .email_log) (hmail : r.table ≠ .email_scheduled) :
    deletedWith threads db r = purgedWith threads db r := by
  rw [deletedWith]
  split
  · contradiction
  · contradiction
  · rfl

lemma purgedWith_iff (h : r.table ∈ [.threads, .messages, .artifacts]) :
    purgedWith threads db r = true ↔ OfThreads (· ∈ threads) r := by
  simp only [List.mem_cons, List.not_mem_nil, or_false] at h
  rcases h with h | h | h
  · simp [purgedWith, OfThreads, h]
  · simp [purgedWith, OfThreads, h, refIn_iff]
  · simp [purgedWith, OfThreads, h]

lemma deletedWith_iff (h : r.table ∈ [.threads, .messages, .artifacts]) :
    deletedWith threads db r = true ↔ OfThreads (· ∈ threads) r := by
  rw [← purgedWith_iff h, deletedWith_eq_purgedWith]
  · rintro htable
    rw [htable] at h
    revert h
    decide
  · rintro htable
    rw [htable] at h
    revert h
    decide

/-- The evidence of a message goes with it. -/
lemma purgedWith_evidence (hp : p ∈ db) (hmessage : p.table = .messages)
    (hevidence : r.table = .message_evidence) (href : r.ref .message_id = some p.id)
    (h : purgedWith threads db p = true) : purgedWith threads db r = true := by
  simp only [purgedWith, hmessage] at h
  simp only [purgedWith, hevidence]
  exact refIn_iff.mpr ⟨p.id, href, mem_ids.mpr ⟨p, hp, hmessage, h, rfl⟩⟩

/-- The children of threads that are selected go too, when nothing refers to what is selected. -/
lemma closedUnderChildren_of_unreferenced {selected : Row → Bool} (hvalid : Valid schema db)
    (hthreads : ∀ r, r.table = .threads → selected r = decide (r.id ∈ threads))
    (h : Unreferenced schema db fun r => selected r = true) : ClosedUnderChildren db threads := by
  intro t ht htable i href hi
  obtain ⟨p, hp, hrefers⟩ := hvalid.refs ⟨.threads, .parent_thread_id, .threads, .noAction⟩
    (by decide) t ht htable (by rw [href]; rfl)
  have hid : p.id = i := Option.some.inj (hrefers.2.2.symm.trans href)
  have hsel := h _ (by decide) rfl t ht p hp hrefers
  simp only [hthreads _ htable, hthreads _ hrefers.2.1, hid, decide_eq_true_eq] at hsel
  exact hsel hi

/-- Threads can be purged if they have no other children, and no mail. -/
lemma unreferenced_purged (hvalid : Valid schema db) :
    (Unreferenced schema db fun r => purgedWith threads db r = true) ↔
      ClosedUnderChildren db threads ∧ ∀ mail ∈ db, mail.table ∈ [.email_log, .email_scheduled] →
        ¬ RefersInto (· ∈ threads) mail := by
  constructor
  · intro h
    constructor
    · refine closedUnderChildren_of_unreferenced hvalid ?_ h
      intro r htable
      simp only [purgedWith, htable]
    · rintro mail hmail htable ⟨i, href, hi⟩
      have hkey (fk : ForeignKey TableName Column) (hfk : fk ∈ schema)
          (hnoAction : fk.on_delete = .noAction) (hchild : mail.table = fk.child)
          (hcolumn : fk.column = .thread_id) (hparent : fk.parent = .threads)
          (hnot : purgedWith threads db mail = false) : False := by
        obtain ⟨p, hp, hrefers⟩ := hvalid.refs fk hfk mail hmail hchild (by rw [hcolumn, href]; rfl)
        have hid : p.id = i := by
          rw [← Option.some.injEq, ← hrefers.2.2, hcolumn, href]
        have htable' : p.table = .threads := hrefers.2.1.trans hparent
        have hgone : purgedWith threads db p = true := by
          simpa only [purgedWith, htable', hid, decide_eq_true_eq] using hi
        have hsel : purgedWith threads db mail = true :=
          h fk hfk hnoAction mail hmail p hp hrefers hgone
        rw [hnot] at hsel
        cases hsel
      simp only [List.mem_cons, List.not_mem_nil, or_false] at htable
      rcases htable with htable | htable
      · exact hkey ⟨.email_log, .thread_id, .threads, .noAction⟩ (by decide) rfl htable rfl rfl
          (by simp only [purgedWith, htable])
      · exact hkey ⟨.email_scheduled, .thread_id, .threads, .noAction⟩ (by decide) rfl htable rfl
          rfl (by simp only [purgedWith, htable])
  · rintro ⟨hchildren, hmail⟩ fk hfk hnoAction r hr p hp ⟨hchild, hparent, href⟩ hgone
    have htables : fk.parent ∈ [.threads, .messages, .message_evidence, .thread_memory, .email_log,
        .email_scheduled] := by
      rw [← hparent]
      exact List.mem_append_left [.email_log, .email_scheduled] (purgedWith_table hgone)
    have hkeys := noAction_threads fk hfk hnoAction htables
    simp only [List.mem_cons, List.not_mem_nil, or_false] at hkeys
    have hthread (htable : p.table = .threads) : p.id ∈ threads := by
      simpa only [purgedWith, htable, decide_eq_true_eq] using hgone
    show purgedWith threads db r = true
    rcases hkeys with rfl | rfl | rfl | rfl | rfl | rfl | rfl
    · simp only [purgedWith, hchild]
      exact refIn_iff.mpr ⟨p.id, href, hthread hparent⟩
    · simp only [purgedWith, hchild, decide_eq_true_eq]
      exact hchildren r hr hchild p.id href (hthread hparent)
    · simp only [purgedWith, hchild]
      exact refIn_iff.mpr ⟨p.id, href, hthread hparent⟩
    · exact absurd ⟨p.id, href, hthread hparent⟩ (hmail r hr (by rw [hchild]; decide))
    · exact absurd ⟨p.id, href, hthread hparent⟩ (hmail r hr (by rw [hchild]; decide))
    · exact purgedWith_evidence hp hparent hchild href hgone
    · simp only [purgedWith, hparent] at hgone
      cases hgone

/-- Threads can be deleted if they have no other children, and their mail has been logged for
them. -/
lemma unreferenced_deleted (hvalid : Valid schema db) :
    (Unreferenced schema db fun r => deletedWith threads db r = true) ↔
      ClosedUnderChildren db threads ∧ ∀ log ∈ db, log.table = .email_log → ∀ mail ∈ db,
        mail.table = .email_scheduled → log.ref .scheduled_email_id = some mail.id →
        RefersInto (· ∈ threads) mail → RefersInto (· ∈ threads) log := by
  constructor
  · intro h
    constructor
    · refine closedUnderChildren_of_unreferenced hvalid ?_ h
      intro r htable
      simp only [deletedWith, purgedWith, htable]
    · intro log hlog hlogged mail hmail hscheduled href hinto
      have hsel := h ⟨.email_log, .scheduled_email_id, .email_scheduled, .noAction⟩ (by decide) rfl
        log hlog mail hmail ⟨hlogged, hscheduled, href⟩
      simp only [deletedWith, hlogged, hscheduled] at hsel
      exact refIn_iff.mp (hsel (refIn_iff.mpr hinto))
  · rintro ⟨hchildren, hlogged⟩ fk hfk hnoAction r hr p hp ⟨hchild, hparent, href⟩ hgone
    have htables : fk.parent ∈ [.threads, .messages, .message_evidence, .thread_memory, .email_log,
        .email_scheduled] := by
      rw [← hparent]
      exact deletedWith_table hgone
    have hkeys := noAction_threads fk hfk hnoAction htables
    simp only [List.mem_cons, List.not_mem_nil, or_false] at hkeys
    have hthread (htable : p.table = .threads) : p.id ∈ threads := by
      simpa only [deletedWith, purgedWith, htable, decide_eq_true_eq] using hgone
    show deletedWith threads db r = true
    rcases hkeys with rfl | rfl | rfl | rfl | rfl | rfl | rfl
    · simp only [deletedWith, purgedWith, hchild]
      exact refIn_iff.mpr ⟨p.id, href, hthread hparent⟩
    · simp only [deletedWith, purgedWith, hchild, decide_eq_true_eq]
      exact hchildren r hr hchild p.id href (hthread hparent)
    · simp only [deletedWith, purgedWith, hchild]
      exact refIn_iff.mpr ⟨p.id, href, hthread hparent⟩
    · simp only [deletedWith, hchild]
      exact refIn_iff.mpr ⟨p.id, href, hthread hparent⟩
    · simp only [deletedWith, hchild]
      exact refIn_iff.mpr ⟨p.id, href, hthread hparent⟩
    · have hmessage : p.table = .messages := hparent
      have hevidence : r.table = .message_evidence := hchild
      rw [deletedWith_eq_purgedWith (by rw [hmessage]; decide) (by rw [hmessage]; decide)] at hgone
      rw [deletedWith_eq_purgedWith (by rw [hevidence]; decide) (by rw [hevidence]; decide)]
      exact purgedWith_evidence hp hparent hchild href hgone
    · simp only [deletedWith, hparent] at hgone
      simp only [deletedWith, hchild]
      exact refIn_iff.mpr (hlogged r hr hchild p hp hparent href (refIn_iff.mp hgone))

end

/-- A statement on threads is complete if it selects them and their messages. -/
lemma complete_of_selected {selected : Row → Bool} {Threads : Uuid → Prop}
    (hvalid : Valid schema db) (hprojects : ∀ p ∈ db, p.table = .projects → selected p = false)
    (hselected : ∀ r, r.table ∈ [.threads, .messages, .artifacts] →
      (selected r = true ↔ OfThreads Threads r))
    (h : delete schema selected db = .ok db') : Complete (OfThreads Threads) db db' := by
  refine complete_of_represents hvalid (represents_of_delete hprojects h) ?_ ?_
  · intro r _ htable htarget hkept
    rw [(hselected r (by rw [htable]; decide)).mpr htarget] at hkept
    cases hkept
  · intro r _ htable htarget
    rwa [← hselected r htable, Bool.not_eq_true] at htarget

lemma ofThreads_congr {Threads Threads' : Uuid → Prop} (h : ∀ i, Threads i ↔ Threads' i) :
    OfThreads Threads = OfThreads Threads' := by
  rw [funext fun i => propext (h i)]

lemma refersInto_congr {Threads Threads' : Uuid → Prop} (h : ∀ i, Threads i ↔ Threads' i) :
    RefersInto Threads = RefersInto Threads' := by
  rw [funext fun i => propext (h i)]

/-! ### `delete_thread` -/

lemma leads_iff {i j : Uuid} :
    Leads (fun i => ids db .threads (refIs .parent_thread_id i)) i j ↔ ParentOf db i j := by
  simp only [Leads, mem_ids, refIs_iff, ParentOf]

lemma leads_eq : Leads (fun i => ids db .threads (refIs .parent_thread_id i)) = ParentOf db := by
  funext i j
  exact propext leads_iff

lemma mem_roots {id i : Uuid} : i ∈ ids db .threads (fun t => t.id = id) ↔
    i = id ∧ ∃ t ∈ db, t.table = .threads ∧ t.id = id := by
  simp only [mem_ids, decide_eq_true_eq]
  constructor
  · rintro ⟨t, ht, htable, hid, rfl⟩
    exact ⟨hid, t, ht, htable, hid⟩
  · rintro ⟨rfl, t, ht, htable, hid⟩
    exact ⟨t, ht, htable, hid, hid⟩

lemma mem_threadTree {fuel : ℕ} {id i : Uuid} {tree : List Uuid}
    (h : threadTree fuel db id = some tree) : i ∈ tree ↔ InTree db id i := by
  rw [threadTree] at h
  rw [mem_unionAll h, leads_eq]
  simp only [mem_roots, InTree]
  constructor
  · rintro ⟨_, ⟨rfl, hthread⟩, hpath⟩
    exact ⟨hthread, hpath⟩
  · rintro ⟨hthread, hpath⟩
    exact ⟨id, ⟨rfl, hthread⟩, hpath⟩

/-- The recursive query ends unless a descendant is one of itself. -/
lemma threadTree_ends_iff {id : Uuid} : (∃ fuel tree, threadTree fuel db id = some tree) ↔
    ∀ i, InTree db id i → ¬ Relation.TransGen (ParentOf db) i i := by
  have huniv (i j : Uuid)
      (h : Leads (fun i => ids db .threads (refIs .parent_thread_id i)) i j) :
      j ∈ ids db .threads fun _ => true := by
    obtain ⟨t, ht, htable, -, hid⟩ := leads_iff.mp h
    exact mem_ids.mpr ⟨t, ht, htable, rfl, hid⟩
  simp only [threadTree, ← Option.isSome_iff_exists]
  rw [unionAll_ends_iff huniv, leads_eq]
  simp only [mem_roots, InTree]
  constructor
  · rintro h i ⟨hthread, hpath⟩
    exact h id ⟨rfl, hthread⟩ i hpath
  · rintro h _ ⟨rfl, hthread⟩ i hpath
    exact h i ⟨hthread, hpath⟩

lemma closedUnderChildren_tree {fuel : ℕ} {id : Uuid} {tree : List Uuid}
    (h : threadTree fuel db id = some tree) : ClosedUnderChildren db tree := by
  intro t ht htable i href hi
  obtain ⟨hthread, hpath⟩ := (mem_threadTree h).mp hi
  exact (mem_threadTree h).mpr ⟨hthread, hpath.tail ⟨t, ht, htable, href, rfl⟩⟩

lemma deletedWith_projects {threads : List Uuid} :
    ∀ p ∈ db, p.table = .projects → deletedWith threads db p = false := by
  intro p _ htable
  simp only [deletedWith, purgedWith, htable]

theorem deletesThread_iff (hvalid : Valid schema db) (id : Uuid) :
    DeletesThread db id ↔ ThreadDeletable db id := by
  have hlogged (fuel : ℕ) (tree : List Uuid) (htree : threadTree fuel db id = some tree) :
      (∃ db', delete schema (deletedWith tree db) db = .ok db') ↔
        ∀ log ∈ db, log.table = .email_log → ∀ mail ∈ db, mail.table = .email_scheduled →
          log.ref .scheduled_email_id = some mail.id → RefersInto (InTree db id) mail →
          RefersInto (InTree db id) log := by
    rw [delete_ok_iff_unreferenced deletedWith_projects, unreferenced_deleted hvalid,
      refersInto_congr fun i => mem_threadTree htree]
    exact and_iff_right (closedUnderChildren_tree htree)
  constructor
  · rintro ⟨fuel, found, db', hdelete, -⟩
    obtain ⟨tree, htree, hmap⟩ := Option.map_eq_some_iff.mp hdelete
    obtain ⟨db'', hok, -⟩ := Fallible.map_eq_ok.mp hmap
    exact ⟨threadTree_ends_iff.mp ⟨fuel, tree, htree⟩, (hlogged fuel tree htree).mp ⟨db'', hok⟩⟩
  · rintro ⟨hacyclic, hlog⟩
    obtain ⟨fuel, tree, htree⟩ := threadTree_ends_iff.mpr hacyclic
    obtain ⟨db', hok⟩ := (hlogged fuel tree htree).mpr hlog
    refine ⟨fuel, 0 < (ids db .threads fun t => t.id ∈ tree).length, db', ?_, ?_⟩
    · rw [deleteThread, htree, Option.map_some, hok]
      rfl
    · rw [← ofThreads_congr fun i => mem_threadTree htree]
      exact complete_of_selected hvalid deletedWith_projects (fun r => deletedWith_iff) hok

/-! ### `purge_expired_threads` -/

lemma candidates_ok_iff {now : ℤ} {ts : List Row} : (∃ is, candidates now db ts = .ok is) ↔
    ∀ t ∈ ts, t.table = .threads → ∀ e, isExpired now db t ≠ .error e := by
  induction ts with
  | nil => exact ⟨fun _ => nofun, fun _ => ⟨[], rfl⟩⟩
  | cons t ts ih =>
    rw [List.forall_mem_cons, ← ih, candidates]
    by_cases htable : t.table = .threads
    · rw [if_pos htable]
      cases hexpired : isExpired now db t with
      | error e =>
        constructor
        · rintro ⟨_, ⟨⟩⟩
        · rintro ⟨hnot, -⟩
          exact absurd rfl (hnot htable e)
      | ok expired =>
        simp only [Fallible.map_eq_ok]
        constructor
        · rintro ⟨_, is, his, -⟩
          refine ⟨fun _ e herror => ?_, is, his⟩
          cases herror
        · rintro ⟨-, is, his⟩
          exact ⟨_, is, his, rfl⟩
    · rw [if_neg htable]
      exact ⟨fun h => ⟨fun h => absurd h htable, h⟩, fun h => h.2⟩

lemma mem_candidates {now : ℤ} {ts : List Row} {is : List Uuid} {i : Uuid}
    (h : candidates now db ts = .ok is) :
    i ∈ is ↔ ∃ t ∈ ts, t.table = .threads ∧ t.id = i ∧ isExpired now db t = .ok true := by
  induction ts generalizing is with
  | nil =>
    cases h
    simp
  | cons t ts ih =>
    rw [candidates] at h
    simp only [List.exists_mem_cons_iff]
    by_cases htable : t.table = .threads
    · rw [if_pos htable] at h
      cases hexpired : isExpired now db t with
      | error e =>
        rw [hexpired] at h
        cases h
      | ok expired =>
        rw [hexpired] at h
        obtain ⟨rest, hrest, rfl⟩ := Fallible.map_eq_ok.mp h
        rw [← ih hrest]
        cases expired with
        | true =>
          rw [if_pos rfl, List.mem_cons]
          exact or_congr ⟨fun hi => ⟨htable, hi.symm, rfl⟩, fun hi => hi.2.1.symm⟩ Iff.rfl
        | false =>
          rw [if_neg Bool.false_ne_true]
          exact ⟨.inr, fun hi => hi.resolve_left fun hi => by cases hi.2.2⟩
    · rw [if_neg htable] at h
      rw [← ih h]
      exact ⟨.inr, fun hi => hi.resolve_left fun hi => htable hi.1⟩

lemma mem_purged {now : ℤ} {is : List Uuid} {i : Uuid} (h : candidates now db db = .ok is) :
    i ∈ is.filter (fun i => (ids db .threads (refIs .parent_thread_id i)).isEmpty) ↔
      IsPurged now db i := by
  rw [List.mem_filter, mem_candidates h, IsPurged, List.isEmpty_iff,
    List.eq_nil_iff_forall_not_mem, not_exists]
  simp only [mem_ids, refIs_iff, ParentOf]

lemma purgedWith_projects {threads : List Uuid} :
    ∀ p ∈ db, p.table = .projects → purgedWith threads db p = false := by
  intro p _ htable
  simp only [purgedWith, htable]

theorem purges_iff (hvalid : Valid schema db) (now : ℤ) :
    Purges now db ↔ Purgeable now db := by
  have hmail (is : List Uuid) (his : candidates now db db = .ok is) :
      (∃ db', delete schema (purgedWith (is.filter fun i =>
          (ids db .threads (refIs .parent_thread_id i)).isEmpty) db) db = .ok db') ↔
        ∀ mail ∈ db, mail.table ∈ [.email_log, .email_scheduled] →
          ¬ RefersInto (IsPurged now db) mail := by
    rw [delete_ok_iff_unreferenced purgedWith_projects, unreferenced_purged hvalid,
      refersInto_congr fun i => mem_purged his]
    apply and_iff_right
    intro t ht htable i href hi
    exact absurd ⟨t.id, t, ht, htable, href, rfl⟩ ((mem_purged his).mp hi).2
  constructor
  · rintro ⟨n, db', hpurge, -⟩
    rw [purgeExpiredThreads] at hpurge
    cases his : candidates now db db with
    | error e =>
      rw [his] at hpurge
      cases hpurge
    | ok is =>
      refine ⟨candidates_ok_iff.mp ⟨is, his⟩, (hmail is his).mp ?_⟩
      simp only [his] at hpurge
      cases hdelete : delete schema (purgedWith (is.filter fun i =>
          (ids db .threads (refIs .parent_thread_id i)).isEmpty) db) db with
      | error fk =>
        rw [hdelete] at hpurge
        cases hpurge
      | ok db'' => exact ⟨db'', rfl⟩
  · rintro ⟨hinRange, hnoMail⟩
    obtain ⟨is, his⟩ := candidates_ok_iff.mpr hinRange
    obtain ⟨db', hok⟩ := (hmail is his).mpr hnoMail
    refine ⟨(ids db .threads fun t => t.id ∈ is.filter fun i =>
      (ids db .threads (refIs .parent_thread_id i)).isEmpty).length, db', ?_, ?_⟩
    · simp only [purgeExpiredThreads, his, hok]
    · rw [← ofThreads_congr fun i => mem_purged his]
      exact complete_of_selected hvalid purgedWith_projects (fun r => purgedWith_iff) hok

/-! ### `delete_project` -/

/-- `DELETE FROM t WHERE q`, and the rows that it removes if no project is among them. -/
def stage (t : TableName) (q : Tables → Row → Bool) (db : Tables) :
    Stage TableName Column Uuid RowData :=
  ⟨fun db => fromTable t (q db), fun r => r.table = t ∧ q db r = true⟩

/-- The last statement removes the project and its scheduled mail. -/
def lastStage (id : Uuid) : Stage TableName Column Uuid RowData :=
  ⟨fun _ => fromTable .projects fun p => p.id = id, fun r => (r.table = .projects ∧ r.id = id) ∨
    (r.table = .email_scheduled ∧ r.ref .project_id = some id)⟩

/-- The messages of the threads of a project. -/
def projectMessages (db : Tables) (id : Uuid) : List Uuid :=
  ids db .messages (refIn .thread_id (projectThreads db id))

def projectStages (id : Uuid) (db : Tables) : List (Stage TableName Column Uuid RowData) :=
  [stage .message_evidence (fun db => refIn .message_id (projectMessages db id)) db,
    stage .messages (fun db => refIn .thread_id (projectThreads db id)) db,
    stage .email_log (fun db => refIn .thread_id (projectThreads db id)) db,
    stage .email_scheduled (fun db => refIn .thread_id (projectThreads db id)) db,
    stage .threads (fun _ => refIs .project_id id) db,
    stage .tool_run_artifacts (fun db => refIn .tool_run_id (projectRuns db id)) db,
    stage .tool_run_events (fun db => refIn .tool_run_id (projectRuns db id)) db,
    stage .tool_runs (fun _ => refIs .project_id id) db,
    stage .artifacts (fun _ => refIs .project_id id) db,
    stage .project_members (fun _ => refIs .project_id id) db,
    stage .project_hooks (fun _ => refIs .project_id id) db,
    stage .email_log (fun _ => refIs .project_id id) db,
    lastStage id]

section

variable {id : Uuid}

lemma projectStages_selected :
    (projectStages id db).map (·.selected) = projectStatements id := rfl

lemma mem_projectThreads {i : Uuid} : i ∈ projectThreads db id ↔ InProject db id i := by
  simp only [projectThreads, mem_ids, refIs_iff, InProject]

lemma refIn_projectThreads :
    refIn .thread_id (projectThreads db id) r = true ↔ RefersInto (InProject db id) r := by
  simp only [refIn_iff, RefersInto, mem_projectThreads]

lemma fromTable_iff {t : TableName} {q : Row → Bool} :
    fromTable t q r = true ↔ r.table = t ∧ q r = true := by
  rw [fromTable, Bool.and_eq_true, decide_eq_true_eq]

/-- A statement on another table than the projects. -/
lemma removes_stage {t : TableName} {q : Tables → Row → Bool} (ht : t ≠ .projects)
    (hq : ∀ db', Represents schema Checked db Kept db' → ∀ r r', Same schema r r' →
      q db' r' = q db r) :
    Removes schema Checked db Kept (stage t q db).Gone (stage t q db).selected := by
  intro db' hrep r hr hchecked hkept r' hr' hsame
  have hprojects : ∀ p ∈ db', p.table = .projects → fromTable t (q db') p = false := by
    intro p _ htable
    rw [fromTable, htable, decide_eq_false ht.symm, Bool.false_and]
  have hchecked' : Checked r'.table := by rwa [hsame.table]
  show gone schema db' (fromTable t (q db')) r' = true ↔ r.table = t ∧ q db r = true
  rw [gone_of_noProjects hprojects hr' hchecked', fromTable_iff, hsame.table,
    hq db' hrep r r' hsame]

lemma removes_lastStage (hproject : ∃ p ∈ db, p.table = .projects ∧ p.id = id)
    (hprojects : ∀ p ∈ db, p.table = .projects → Kept p) :
    Removes schema Checked db Kept (lastStage id).Gone (lastStage id).selected := by
  have hagrees : ∀ db', Represents schema Checked db Kept db' → ∀ r r', Same schema r r' →
      (lastStage id).selected db' r' = (lastStage id).selected db r := by
    intro db' _ r r' hsame
    show fromTable .projects (fun p => p.id = id) r' = fromTable .projects (fun p => p.id = id) r
    rw [fromTable, fromTable, hsame.table, hsame.id]
  intro db' hrep r hr hchecked hkept r' hr' hsame
  rw [removes_of_agrees hprojects hagrees db' hrep r hr hchecked hkept r' hr' hsame]
  show gone schema db (fromTable .projects fun p => p.id = id) r = true ↔ _ ∨ _
  by_cases htable : r.table = .email_scheduled
  · rw [gone_email_scheduled hr htable]
    simp only [fromTable_iff, decide_eq_true_eq, htable, reduceCtorEq, false_and, false_or,
      true_and]
    constructor
    · rintro ⟨p, -, -, ⟨-, rfl⟩, href⟩
      exact href
    · obtain ⟨p, hp, hparent, rfl⟩ := hproject
      intro href
      exact ⟨p, hp, hparent, ⟨hparent, rfl⟩, href⟩
  · rw [gone_of_ne hr hchecked htable, fromTable_iff, decide_eq_true_eq]
    exact ⟨.inl, fun h => h.resolve_right fun h => htable h.1⟩

/-- The queries of a statement read tables from which nothing has been deleted. -/
lemma allRemove_project (hproject : ∃ p ∈ db, p.table = .projects ∧ p.id = id) :
    AllRemove schema Checked db (fun _ => True) (projectStages id db) := by
  have hproject_id : Plain .project_id := by decide
  have hthread_id : Plain .thread_id := by decide
  have hmessage_id : Plain .message_id := by decide
  have htool_run_id : Plain .tool_run_id := by decide
  have hthreads {Kept : Row → Prop} (hkept : ∀ r ∈ db, r.table = .threads → Kept r) :
      ∀ db', Represents schema Checked db Kept db' → ∀ i,
        i ∈ projectThreads db' id ↔ i ∈ projectThreads db id := by
    intro db' hrep i
    exact mem_ids_of_represents hrep (by decide) hkept
      (fun r r' h => refIs_of_same hproject_id h id) i
  have hmessages {Kept : Row → Prop}
      (hkept : ∀ r ∈ db, r.table = .threads ∨ r.table = .messages → Kept r) :
      ∀ db', Represents schema Checked db Kept db' → ∀ i,
        i ∈ projectMessages db' id ↔ i ∈ projectMessages db id := by
    intro db' hrep i
    refine mem_ids_of_represents hrep (by decide) (fun r hr h => hkept r hr (.inr h)) ?_ i
    intro r r' hsame
    exact refIn_of_same hthread_id hsame (hthreads (fun r hr h => hkept r hr (.inl h)) db' hrep)
  have hruns {Kept : Row → Prop} (hkept : ∀ r ∈ db, r.table = .tool_runs → Kept r) :
      ∀ db', Represents schema Checked db Kept db' → ∀ i,
        i ∈ projectRuns db' id ↔ i ∈ projectRuns db id := by
    intro db' hrep i
    exact mem_ids_of_represents hrep (by decide) hkept
      (fun r r' h => refIs_of_same hproject_id h id) i
  have hbyProject {Kept : Row → Prop} : ∀ db', Represents schema Checked db Kept db' →
      ∀ r r', Same schema r r' → refIs .project_id id r' = refIs .project_id id r :=
    fun _ _ r r' hsame => refIs_of_same hproject_id hsame id
  refine ⟨?_, ?_, ?_, ?_, ?_, ?_, ?_, ?_, ?_, ?_, ?_, ?_, ?_, trivial⟩
  · refine removes_stage (by decide) fun db' hrep r r' hsame => ?_
    exact refIn_of_same hmessage_id hsame (hmessages (fun _ _ _ => trivial) db' hrep)
  · refine removes_stage (by decide) fun db' hrep r r' hsame => ?_
    refine refIn_of_same hthread_id hsame (hthreads (fun r _ h => ?_) db' hrep)
    simp [stage, h]
  · refine removes_stage (by decide) fun db' hrep r r' hsame => ?_
    refine refIn_of_same hthread_id hsame (hthreads (fun r _ h => ?_) db' hrep)
    simp [stage, h]
  · refine removes_stage (by decide) fun db' hrep r r' hsame => ?_
    refine refIn_of_same hthread_id hsame (hthreads (fun r _ h => ?_) db' hrep)
    simp [stage, h]
  · exact removes_stage (by decide) hbyProject
  · refine removes_stage (by decide) fun db' hrep r r' hsame => ?_
    refine refIn_of_same htool_run_id hsame (hruns (fun r _ h => ?_) db' hrep)
    simp [stage, h]
  · refine removes_stage (by decide) fun db' hrep r r' hsame => ?_
    refine refIn_of_same htool_run_id hsame (hruns (fun r _ h => ?_) db' hrep)
    simp [stage, h]
  · exact removes_stage (by decide) hbyProject
  · exact removes_stage (by decide) hbyProject
  · exact removes_stage (by decide) hbyProject
  · exact removes_stage (by decide) hbyProject
  · exact removes_stage (by decide) hbyProject
  · refine removes_lastStage hproject fun p _ h => ?_
    simp [stage, h]

/-- The keys to a table that are checked. -/
def keysTo (t : TableName) : List (ForeignKey TableName Column) :=
  schema.filter fun fk => fk.on_delete = .noAction && fk.parent = t

lemma mem_keysTo {fk : ForeignKey TableName Column} {t : TableName} (hfk : fk ∈ schema)
    (hnoAction : fk.on_delete = .noAction) (hparent : fk.parent = t) : fk ∈ keysTo t := by
  rw [keysTo, List.mem_filter, Bool.and_eq_true, decide_eq_true_eq, decide_eq_true_eq]
  exact ⟨hfk, hnoAction, hparent⟩

lemma mem_projectRuns {i : Uuid} : i ∈ projectRuns db id ↔
    ∃ run ∈ db, run.table = .tool_runs ∧ run.ref .project_id = some id ∧ run.id = i := by
  simp only [projectRuns, mem_ids, refIs_iff]

/-- The references to the rows that a statement on one table removes. -/
lemma covered_stage {t : TableName} {q : Tables → Row → Bool}
    (h : ∀ fk ∈ keysTo t, ∀ r ∈ db, ∀ p ∈ db, r.table = fk.child → p.table = t →
      r.ref fk.column = some p.id → Kept r → Kept p → q db p = true →
        r.table = t ∧ q db r = true) :
    ∀ fk ∈ schema, fk.on_delete = .noAction → ∀ r ∈ db, ∀ p ∈ db, fk.Refers r p →
      Kept r → Kept p → (stage t q db).Gone p → (stage t q db).Gone r := by
  rintro fk hfk hnoAction r hr p hp ⟨hchild, hparent, href⟩ hkept hkept' ⟨htable, hsel⟩
  exact h fk (mem_keysTo hfk hnoAction (hparent.symm.trans htable)) r hr p hp hchild htable href
    hkept hkept' hsel

lemma keysTo_messages :
    keysTo .messages = [⟨.message_evidence, .message_id, .messages, .noAction⟩] :=
  rfl

lemma keysTo_email_scheduled : keysTo .email_scheduled =
    [⟨.email_log, .scheduled_email_id, .email_scheduled, .noAction⟩] :=
  rfl

lemma keysTo_threads : keysTo .threads = [⟨.messages, .thread_id, .threads, .noAction⟩,
    ⟨.threads, .parent_thread_id, .threads, .noAction⟩,
    ⟨.email_scheduled, .thread_id, .threads, .noAction⟩,
    ⟨.email_log, .thread_id, .threads, .noAction⟩,
    ⟨.thread_memory, .thread_id, .threads, .noAction⟩] :=
  rfl

lemma keysTo_tool_runs : keysTo .tool_runs =
    [⟨.tool_run_artifacts, .tool_run_id, .tool_runs, .noAction⟩,
      ⟨.tool_run_events, .tool_run_id, .tool_runs, .noAction⟩] :=
  rfl

lemma keysTo_artifacts :
    keysTo .artifacts = [⟨.tool_run_artifacts, .artifact_id, .artifacts, .noAction⟩] :=
  rfl

/-- A row that refers to a project, and is not mail, has it in the same column. -/
lemma keysTo_projects : ∀ fk ∈ keysTo .projects, fk.column = .project_id ∧ fk.child ∈
    [.artifacts, .tool_runs, .threads, .project_members, .project_hooks, .email_log] := by
  decide

/-- The statements are in the order of the foreign keys, those apart that the condition is
about. -/
lemma allCovered_of_deletable (h : ProjectDeletable db id) :
    AllCovered schema db (fun _ => True) (projectStages id db) := by
  refine ⟨?_, ?_, ?_, ?_, ?_, ?_, ?_, ?_, ?_, ?_, ?_, ?_, ?_, trivial⟩
  · exact covered_stage fun _ => nofun
  · refine covered_stage fun fk hfk r hr p hp hchild hparent href hkept _ hsel => ?_
    rw [keysTo_messages, List.mem_singleton] at hfk
    subst hfk
    obtain ⟨-, hnot⟩ := hkept
    exact absurd ⟨hchild, refIn_iff.mpr ⟨p.id, href, mem_ids.mpr ⟨p, hp, hparent, hsel, rfl⟩⟩⟩ hnot
  · exact covered_stage fun _ => nofun
  · refine covered_stage fun fk hfk r hr p hp hchild hparent href hkept _ hsel => ?_
    rw [keysTo_email_scheduled, List.mem_singleton] at hfk
    subst hfk
    obtain ⟨-, hnot⟩ := hkept
    have hlogged := h.loggedForThreads r hr hchild p hp hparent href (refIn_projectThreads.mp hsel)
    exact absurd ⟨hchild, refIn_projectThreads.mpr hlogged⟩ hnot
  · refine covered_stage fun fk hfk r hr p hp hchild hparent href hkept _ hsel => ?_
    have hinto : InProject db id p.id := ⟨p, hp, hparent, refIs_iff.mp hsel, rfl⟩
    obtain ⟨⟨⟨⟨-, -⟩, hmessages⟩, hlog⟩, hmail⟩ := hkept
    simp only [keysTo_threads, List.mem_cons, List.not_mem_nil, or_false] at hfk
    rcases hfk with rfl | rfl | rfl | rfl | rfl
    · exact absurd ⟨hchild, refIn_projectThreads.mpr ⟨p.id, href, hinto⟩⟩ hmessages
    · exact ⟨hchild, refIs_iff.mpr (h.children r hr hchild p.id href hinto)⟩
    · exact absurd ⟨hchild, refIn_projectThreads.mpr ⟨p.id, href, hinto⟩⟩ hmail
    · exact absurd ⟨hchild, refIn_projectThreads.mpr ⟨p.id, href, hinto⟩⟩ hlog
    · exact absurd ⟨p.id, href, hinto⟩ (h.memory r hr hchild)
  · exact covered_stage fun _ => nofun
  · exact covered_stage fun _ => nofun
  · refine covered_stage fun fk hfk r hr p hp hchild hparent href hkept _ hsel => ?_
    obtain ⟨⟨⟨⟨⟨⟨⟨-, -⟩, -⟩, -⟩, -⟩, -⟩, hlinks⟩, hevents⟩ := hkept
    have hruns : p.id ∈ projectRuns db id :=
      mem_projectRuns.mpr ⟨p, hp, hparent, refIs_iff.mp hsel, rfl⟩
    simp only [keysTo_tool_runs, List.mem_cons, List.not_mem_nil, or_false] at hfk
    rcases hfk with rfl | rfl
    · exact absurd ⟨hchild, refIn_iff.mpr ⟨p.id, href, hruns⟩⟩ hlinks
    · exact absurd ⟨hchild, refIn_iff.mpr ⟨p.id, href, hruns⟩⟩ hevents
  · refine covered_stage fun fk hfk r hr p hp hchild hparent href hkept _ hsel => ?_
    obtain ⟨⟨⟨-, hlinks⟩, -⟩, -⟩ := hkept
    rw [keysTo_artifacts, List.mem_singleton] at hfk
    subst hfk
    obtain ⟨run, hrun, htable, hproject, href'⟩ :=
      h.runs r hr hchild p hp hparent (refIs_iff.mp hsel) href
    have hruns : run.id ∈ projectRuns db id :=
      mem_projectRuns.mpr ⟨run, hrun, htable, hproject, rfl⟩
    exact absurd ⟨hchild, refIn_iff.mpr ⟨run.id, href', hruns⟩⟩ hlinks
  · exact covered_stage fun _ => nofun
  · exact covered_stage fun _ => nofun
  · exact covered_stage fun _ => nofun
  · rintro fk hfk hnoAction r hr p hp ⟨hchild, hparent, href⟩ hkept hkept' hgone
    obtain ⟨⟨⟨⟨⟨⟨⟨⟨⟨⟨-, hlogThreads⟩, -⟩, hthreads⟩, -⟩, -⟩, hruns⟩, hartifacts⟩, hmembers⟩,
      hhooks⟩, hlog⟩ := hkept
    rcases hgone with ⟨htable, rfl⟩ | ⟨htable, hproject⟩
    · obtain ⟨hcolumn, htables⟩ := keysTo_projects fk
        (mem_keysTo hfk hnoAction (hparent.symm.trans htable))
      rw [hcolumn] at href
      rw [← hchild] at htables
      have hsel := refIs_iff.mpr href
      simp only [List.mem_cons, List.not_mem_nil, or_false] at htables
      rcases htables with htable | htable | htable | htable | htable | htable
      · exact absurd ⟨htable, hsel⟩ hartifacts
      · exact absurd ⟨htable, hsel⟩ hruns
      · exact absurd ⟨htable, hsel⟩ hthreads
      · exact absurd ⟨htable, hsel⟩ hmembers
      · exact absurd ⟨htable, hsel⟩ hhooks
      · exact absurd ⟨htable, hsel⟩ hlog
    · have hkeys := mem_keysTo hfk hnoAction (hparent.symm.trans htable)
      rw [keysTo_email_scheduled, List.mem_singleton] at hkeys
      subst hkeys
      rcases h.loggedForProject r hr hchild p hp htable href hproject with hinto | hproject'
      · exact absurd ⟨hchild, refIn_projectThreads.mpr hinto⟩ hlogThreads
      · exact absurd ⟨hchild, refIs_iff.mpr hproject'⟩ hlog

lemma deletable_of_allCovered
    (h : AllCovered schema db (fun _ => True) (projectStages id db)) : ProjectDeletable db id := by
  obtain ⟨-, -, -, hmail, hthreads, -, -, -, hartifacts, -, -, -, hlast, -⟩ := h
  have hlogged : ∀ log ∈ db, log.table = .email_log → ∀ mail ∈ db, mail.table = .email_scheduled →
      log.ref .scheduled_email_id = some mail.id → RefersInto (InProject db id) mail →
      RefersInto (InProject db id) log := by
    intro log hlog htable mail hmail' htable' href hinto
    by_contra hnot
    rw [← refIn_projectThreads, Bool.not_eq_true] at hnot
    have hgone := hmail ⟨.email_log, .scheduled_email_id, .email_scheduled, .noAction⟩ (by decide)
      rfl log hlog mail hmail' ⟨htable, htable', href⟩ (by simp [stage, htable, hnot])
      (by simp [stage, htable']) ⟨htable', refIn_projectThreads.mpr hinto⟩
    exact absurd (htable.symm.trans hgone.1) (by decide)
  constructor
  · rintro m hm htable ⟨i, href, t, ht, hthread, hproject, rfl⟩
    have hgone := hthreads ⟨.thread_memory, .thread_id, .threads, .noAction⟩ (by decide) rfl m hm t
      ht ⟨htable, hthread, href⟩ (by simp [stage, htable]) (by simp [stage, hthread])
      ⟨hthread, refIs_iff.mpr hproject⟩
    exact absurd (htable.symm.trans hgone.1) (by decide)
  · rintro t ht htable _ href ⟨p, hp, hthread, hproject, rfl⟩
    have hgone := hthreads ⟨.threads, .parent_thread_id, .threads, .noAction⟩ (by decide) rfl t ht p
      hp ⟨htable, hthread, href⟩ (by simp [stage, htable]) (by simp [stage, hthread])
      ⟨hthread, refIs_iff.mpr hproject⟩
    exact refIs_iff.mp hgone.2
  · intro link hlink htable a ha htable' hproject href
    by_contra hnone
    have hnot : refIn .tool_run_id (projectRuns db id) link = false := by
      rw [← Bool.not_eq_true, refIn_iff]
      rintro ⟨_, href', hruns⟩
      obtain ⟨run, hrun, htable', hproject', rfl⟩ := mem_projectRuns.mp hruns
      exact hnone ⟨run, hrun, htable', hproject', href'⟩
    have hgone := hartifacts ⟨.tool_run_artifacts, .artifact_id, .artifacts, .noAction⟩ (by decide)
      rfl link hlink a ha ⟨htable, htable', href⟩ (by simp [stage, htable, hnot])
      (by simp [stage, htable']) ⟨htable', refIs_iff.mpr hproject⟩
    exact absurd (htable.symm.trans hgone.1) (by decide)
  · exact hlogged
  · intro log hlog htable mail hmail' htable' href hproject
    by_contra hnot
    obtain ⟨hthreads', hproject'⟩ := not_or.mp hnot
    have hmailThreads : refIn .thread_id (projectThreads db id) mail = false := by
      rw [← Bool.not_eq_true, refIn_projectThreads]
      exact fun hinto => hthreads' (hlogged log hlog htable mail hmail' htable' href hinto)
    rw [← refIn_projectThreads, Bool.not_eq_true] at hthreads'
    rw [← refIs_iff, Bool.not_eq_true] at hproject'
    have hgone := hlast ⟨.email_log, .scheduled_email_id, .email_scheduled, .noAction⟩ (by decide)
      rfl log hlog mail hmail' ⟨htable, htable', href⟩
      (by simp [stage, htable, hthreads', hproject']) (by simp [stage, htable', hmailThreads])
      (.inr ⟨htable', hproject⟩)
    rcases hgone with hgone | hgone
    · exact absurd (htable.symm.trans hgone.1) (by decide)
    · exact absurd (htable.symm.trans hgone.1) (by decide)

/-- The threads of the project are gone, with their messages, and so are its artifacts. -/
lemma complete_project (hvalid : Valid schema db)
    (hrep : Represents schema Checked db
      (fun r => True ∧ ∀ stage ∈ projectStages id db, ¬ stage.Gone r) db') :
    Complete (fun r => OfThreads (InProject db id) r ∨
      (r.table = .artifacts ∧ r.ref .project_id = some id)) db db' := by
  refine complete_of_represents hvalid hrep ?_ ?_
  · rintro r hr htable htarget ⟨-, hkept⟩
    have hthread : InProject db id r.id := by
      rcases htarget with (⟨-, hthread⟩ | ⟨hmessage, -⟩) | ⟨hartifact, -⟩
      · exact hthread
      · exact absurd (htable.symm.trans hmessage) (by decide)
      · exact absurd (htable.symm.trans hartifact) (by decide)
    obtain ⟨t, ht, hthread, hproject, hid⟩ := hthread
    obtain rfl := hvalid.eq_of_id ht hr (hthread.trans htable.symm) hid
    refine hkept (stage .threads (fun _ => refIs .project_id id) db) ?_
      ⟨htable, refIs_iff.mpr hproject⟩
    simp [projectStages]
  · intro r hr htable htarget
    obtain ⟨hthreads, hartifact⟩ := not_or.mp htarget
    refine ⟨trivial, ?_⟩
    simp only [List.mem_cons, List.not_mem_nil, or_false] at htable
    rcases htable with htable | htable | htable
    · have hproject : ¬ refIs .project_id id r = true := by
        rw [refIs_iff]
        exact fun hproject => hthreads (.inl ⟨htable, r, hr, htable, hproject, rfl⟩)
      simp [projectStages, stage, lastStage, htable, hproject]
    · have hinto : ¬ refIn .thread_id (projectThreads db id) r = true := by
        rw [refIn_projectThreads]
        exact fun hinto => hthreads (.inr ⟨htable, hinto⟩)
      simp [projectStages, stage, lastStage, htable, hinto]
    · have hproject : ¬ refIs .project_id id r = true := by
        rw [refIs_iff]
        exact fun hproject => hartifact ⟨htable, hproject⟩
      simp [projectStages, stage, lastStage, htable, hproject]

/-- A row that refers to a project by a key: the project is there. -/
lemma project_of_ref (hvalid : Valid schema db) {t : TableName} (action : OnDelete)
    (hfk : ⟨t, .project_id, .projects, action⟩ ∈ schema) (hr : r ∈ db) (htable : r.table = t)
    (href : r.ref .project_id = some id) : ∃ p ∈ db, p.table = .projects ∧ p.id = id := by
  obtain ⟨p, hp, -, hparent, href'⟩ := hvalid.refs _ hfk r hr htable (by rw [href]; rfl)
  exact ⟨p, hp, hparent, Option.some.inj (href'.symm.trans href)⟩

theorem deletesProject_iff (hvalid : Valid schema db) (id : Uuid) :
    DeletesProject db id ↔ ProjectDeletable db id := by
  by_cases hproject : ∃ p ∈ db, p.table = .projects ∧ p.id = id
  · have hfound : (ids db .projects fun p => p.id = id).isEmpty = false := by
      obtain ⟨p, hp, htable, hid⟩ := hproject
      have hmem : p.id ∈ ids db .projects fun p => p.id = id :=
        mem_ids.mpr ⟨p, hp, htable, decide_eq_true hid, rfl⟩
      rw [List.isEmpty_eq_false_iff]
      exact List.ne_nil_of_mem hmem
    have hrep : Represents schema Checked db (fun _ => True) db := .refl Checked db
    have hremove := allRemove_project hproject
    have hok := deleteAll_ok_iff separate_schema coreOf_checked hrep hremove
    rw [projectStages_selected] at hok
    constructor
    · rintro ⟨found, db', hdelete, -⟩
      rw [deleteProject, hfound, if_neg Bool.false_ne_true] at hdelete
      obtain ⟨db'', hdelete, -⟩ := Fallible.map_eq_ok.mp hdelete
      exact deletable_of_allCovered (hok.mp ⟨db'', hdelete⟩)
    · intro h
      obtain ⟨db', hdelete⟩ := hok.mpr (allCovered_of_deletable h)
      refine ⟨true, db', ?_, complete_project hvalid (hrep.deleteAll hremove ?_)⟩
      · rw [deleteProject, hfound, if_neg Bool.false_ne_true, hdelete]
        rfl
      · rwa [projectStages_selected]
  · have hnone : (ids db .projects fun p => p.id = id).isEmpty = true := by
      rw [List.isEmpty_iff, List.eq_nil_iff_forall_not_mem]
      rintro i hi
      obtain ⟨p, hp, htable, hid, -⟩ := mem_ids.mp hi
      exact hproject ⟨p, hp, htable, of_decide_eq_true hid⟩
    have hthreads (i : Uuid) : ¬ InProject db id i := by
      rintro ⟨t, ht, htable, href, -⟩
      exact hproject (project_of_ref hvalid .noAction (by decide) ht htable href)
    have hartifacts (a : Row) (ha : a ∈ db) (htable : a.table = .artifacts) :
        a.ref .project_id ≠ some id := fun href =>
      hproject (project_of_ref hvalid .noAction (by decide) ha htable href)
    have hmail (mail : Row) (hm : mail ∈ db) (htable : mail.table = .email_scheduled) :
        mail.ref .project_id ≠ some id := fun href =>
      hproject (project_of_ref hvalid .cascade (by decide) hm htable href)
    refine ⟨fun _ => ?_, fun _ => ⟨false, db, ?_, ?_, ?_⟩⟩
    · exact {
        memory := fun _ _ _ ⟨i, _, hi⟩ => hthreads i hi
        children := fun _ _ _ i _ hi => absurd hi (hthreads i)
        runs := fun _ _ _ a ha htable href => absurd href (hartifacts a ha htable)
        loggedForThreads := fun _ _ _ _ _ _ _ ⟨i, _, hi⟩ => absurd hi (hthreads i)
        loggedForProject := fun _ _ _ mail hm htable _ href => absurd href (hmail mail hm htable) }
    · rw [deleteProject, if_pos hnone]
    · rintro r _ htable ((⟨-, hi⟩ | ⟨-, i, -, hi⟩) | ⟨hartifact, -⟩)
      · exact absurd hi (hthreads _)
      · exact absurd hi (hthreads i)
      · exact absurd (htable.symm.trans hartifact) (by decide)
    · intro r hr _ _
      exact ⟨r, hr, rfl, rfl⟩

end

/-! ### All deletes -/

/-- Deletes and purges are complete exactly on the databases that are described. -/
theorem deletes_complete_iff (hvalid : Valid schema db) :
    (∀ id, DeletesThread db id ↔ ThreadDeletable db id) ∧
      (∀ id, DeletesProject db id ↔ ProjectDeletable db id) ∧
      ∀ now, Purges now db ↔ Purgeable now db :=
  ⟨deletesThread_iff hvalid, deletesProject_iff hvalid, purges_iff hvalid⟩

/-- A project that retains threads for thirty days. One of its threads, of the year 2000, has a
message, a memory and a logged email. -/
def mailedThread : Tables :=
  [⟨.projects, 0, fun _ => none, { thread_retention_days := some "30" }⟩,
    ⟨.threads, 1, fun c => if c = .project_id then some 0 else none, {}⟩,
    ⟨.messages, 2, fun c => if c = .thread_id then some 1 else none, {}⟩,
    ⟨.thread_memory, 3, fun c => if c = .thread_id then some 1 else none, {}⟩,
    ⟨.email_log, 4, fun c => if c = .thread_id then some 1 else
      if c = .project_id then some 0 else none, {}⟩]

lemma valid_mailedThread : Valid schema mailedThread := ⟨by decide, by decide⟩

theorem deletes_complete_iff_mailedThread : Valid schema mailedThread ∧
    (∀ id, DeletesThread mailedThread id ↔ ThreadDeletable mailedThread id) ∧
    (∀ id, DeletesProject mailedThread id ↔ ProjectDeletable mailedThread id) ∧
    ∀ now, Purges now mailedThread ↔ Purgeable now mailedThread :=
  ⟨valid_mailedThread, deletes_complete_iff valid_mailedThread⟩

/-- The purge does not delete the logged email of a thread, nor the deletion of a project the memory
of one. -/
theorem not_deletes_complete_mailedThread : Valid schema mailedThread ∧
    (∃ n, ¬ Purges n mailedThread) ∧ ¬ DeletesProject mailedThread 0 := by
  have hpurge : purgeExpiredThreads (days 31) mailedThread =
      .error (.foreignKey ⟨.email_log, .thread_id, .threads, .noAction⟩) := rfl
  have hproject : deleteProject mailedThread 0 =
      .error ⟨.thread_memory, .thread_id, .threads, .noAction⟩ := rfl
  refine ⟨valid_mailedThread, ⟨days 31, ?_⟩, ?_⟩
  · rintro ⟨n, db', hok, -⟩
    rw [hpurge] at hok
    cases hok
  · rintro ⟨found, db', hok, -⟩
    rw [hproject] at hok
    cases hok

end Arbeiterfarm.Db
