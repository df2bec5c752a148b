import Arbeiterfarm.Email.Scheduler

/-!
# Scheduled e-mail is sent at most once

A row in status `sending` belongs to the one tick whose claim has put it there: a claim and a
cancellation only touch rows that are `scheduled`, and the unguarded statements are only issued
by the tick that owns the row. A message that was handed over never becomes `scheduled` again.
-/

namespace Arbeiterfarm.Email

open Foundation

/-! ### What a step does to a row and to a tick -/

/-- What the step from `s` to `t` makes of the row `q`. -/
inductive RowChange (s t : Mailer) (q : EmailScheduledRow) : EmailScheduledRow → Prop
  | same : RowChange s t q q
  | guarded (status) (hst : q.status = .scheduled)
    (hstatus : status = .sending ∨ status = .cancelled) :
    RowChange s t q (setStatus s.now status q)
  | sent (k r due) (htick : s.ticks k = .completing r due) (hid : r.id = q.id)
    (hdone : (t.ticks k).current = none) : RowChange s t q (markSent s.now q)
  | attempted (k r error_msg due) (htick : s.ticks k = .failing r error_msg due)
    (hid : r.id = q.id) (hdone : (t.ticks k).current = none) :
    RowChange s t q (markAttempt s.now error_msg q)

lemma get_schedule {now : ℤ} {id : Uuid} {req : ScheduleRequest} {t t' : EmailTable}
    (h : createScheduled now id req t = some t') (id' : Uuid) :
    (∃ q, get id' t' = some q ∧ id = id' ∧ get id' t = none ∧ q.status = .scheduled ∧
      q.attempt_count < q.max_attempts) ∨ get id' t' = get id' t := by
  have hget := Table.lookup_insert h id'
  split_ifs at hget with hid
  · subst hid
    exact .inl ⟨_, hget, rfl, Table.lookup_eq_none_of_insert h, rfl,
      Nat.zero_lt_succ 2⟩
  · exact .inr hget

/-- No step removes a row. -/
lemma row_step {toLowercase : String → String} {s t : Mailer} {a : MailAction}
    (h : s.step toLowercase a = some t) {id : Uuid} {q : EmailScheduledRow}
    (hq : get id s.rows = some q) : ∃ q', get id t.rows = some q' ∧ RowChange s t q q' := by
  have hguarded (status : EmailStatus) (id' : Uuid) (e : Execution)
      (hstatus : status = .sending ∨ status = .cancelled) :
      ∃ q', get id (e.apply s.rows (guardedUpdate s.now status id' s.rows).2) = some q' ∧
        RowChange s t q q' := by
    rw [get_apply, get_guardedUpdate, hq]
    by_cases he : e = .failed
    · exact ⟨q, by rw [if_pos he], .same⟩
    · by_cases hp : isScheduled id' q
      · exact ⟨_, by rw [if_neg he, Option.map_some, if_pos hp],
          .guarded status (isScheduled_iff.mp hp).2 hstatus⟩
      · exact ⟨q, by rw [if_neg he, Option.map_some, if_neg hp], .same⟩
  cases MailRule.of_step h with
  | clock | listDue | prepared | blocked | handed | refused | crash => exact ⟨q, hq, .same⟩
  | schedule id' req rows hrows =>
    rcases get_schedule hrows id with ⟨-, -, -, hnone, -⟩ | hget
    · simp [hq] at hnone
    · exact ⟨q, hget.trans hq, .same⟩
  | cancel id' e => exact hguarded .cancelled id' e (.inr rfl)
  | claimed k r due htick hclaim => exact hguarded .sending r.id .answered (.inl rfl)
  | skipped k r due e htick => exact hguarded .sending r.id e (.inl rfl)
  | complete k r due e htick =>
    simp only [Mailer.setTick, get_apply, get_completeScheduled, hq, Option.map_some]
    by_cases he : e = .failed
    · exact ⟨q, by rw [if_pos he], .same⟩
    · by_cases hid : q.id = r.id
      · exact ⟨_, by rw [if_neg he, if_pos hid],
          .sent k r due htick hid.symm (by simp [TickPhase.current])⟩
      · exact ⟨q, by rw [if_neg he, if_neg hid], .same⟩
  | fail k r error_msg due e htick =>
    simp only [Mailer.setTick, get_apply, get_failScheduled, hq, Option.map_some]
    by_cases he : e = .failed
    · exact ⟨q, by rw [if_pos he], .same⟩
    · by_cases hid : q.id = r.id
      · exact ⟨_, by rw [if_neg he, if_pos hid],
          .attempted k r error_msg due htick hid.symm (by simp [TickPhase.current])⟩
      · exact ⟨q, by rw [if_neg he, if_neg hid], .same⟩

/-- A row after a step comes from the row before it, or has just been scheduled. -/
lemma row_of_step {toLowercase : String → String} {s t : Mailer} {a : MailAction}
    (h : s.step toLowercase a = some t) {id : Uuid} {q' : EmailScheduledRow}
    (hq' : get id t.rows = some q') :
    (∃ q, get id s.rows = some q ∧ RowChange s t q q') ∨
      q'.status = .scheduled ∧ q'.attempt_count < q'.max_attempts := by
  cases hq : get id s.rows with
  | some q =>
    obtain ⟨q'', hq'', hchange⟩ := row_step h hq
    rw [hq', Option.some.injEq] at hq''
    subst hq''
    exact .inl ⟨q, rfl, hchange⟩
  | none =>
    have habsurd {rows : EmailTable} (hrows : get id rows = none)
        (hq' : get id rows = some q') : False := by simp [hrows] at hq'
    cases MailRule.of_step h with
    | clock | listDue | prepared | blocked | handed | refused | crash =>
      exact (habsurd hq hq').elim
    | schedule id' req rows hrows =>
      rcases get_schedule hrows id with ⟨q, hget, -, -, hst, hlt⟩ | hget
      · rw [hq', Option.some.injEq] at hget
        subst hget
        exact .inr ⟨hst, hlt⟩
      · exact (habsurd (hget.trans hq) hq').elim
    | cancel id' e =>
      exact (habsurd (by simp [cancelMail, get_apply, cancelScheduled, hq]) hq').elim
    | claimed k r due htick hclaim =>
      exact (habsurd (by simp [Mailer.setTick, claimScheduled, hq]) hq').elim
    | skipped k r due e htick =>
      exact (habsurd (by simp [Mailer.setTick, get_apply, claimScheduled, hq]) hq').elim
    | complete k r due e htick | fail k r error_msg due e htick =>
      exact (habsurd (by simp [Mailer.setTick, get_apply, hq]) hq').elim

/-- A tick that is busy with a message after a step was busy with it before, in a phase before
the hand-over unless it stands still, or has just claimed it. -/
lemma tick_step {toLowercase : String → String} {s t : Mailer} {a : MailAction}
    (h : s.step toLowercase a = some t) {k : TickId} {r : EmailScheduledRow}
    (hr : (t.ticks k).current = some r) :
    ((s.ticks k).current = some r ∧
      ((∃ due, s.ticks k = .completing r due) → t.ticks k = s.ticks k)) ∨
    a = .claim k .answered ∧ (∃ q, get r.id s.rows = some q ∧ q.status = .scheduled) ∧
      ∃ q, get r.id t.rows = some q ∧ q.status = .sending := by
  have hkeep {k' : TickId} {phase : TickPhase} (hne : k ≠ k')
      (hr : (Function.update s.ticks k' phase k).current = some r) :
      (s.ticks k).current = some r ∧ Function.update s.ticks k' phase k = s.ticks k := by
    rw [Function.update_of_ne hne] at hr ⊢
    exact ⟨hr, rfl⟩
  have hmoved {k' : TickId} {phase : TickPhase}
      (hr : (Function.update s.ticks k' phase k).current = some r)
      (hphase : phase.current = some r → k = k' → (s.ticks k).current = some r ∧
        ∀ due, s.ticks k ≠ .completing r due) :
      (s.ticks k).current = some r ∧ ((∃ due, s.ticks k = .completing r due) →
        Function.update s.ticks k' phase k = s.ticks k) := by
    by_cases hk : k = k'
    · subst hk
      rw [Function.update_self] at hr
      obtain ⟨hcur, hne⟩ := hphase hr rfl
      exact ⟨hcur, fun ⟨due, hdue⟩ => absurd hdue (hne due)⟩
    · obtain ⟨hcur, heq⟩ := hkeep hk hr
      exact ⟨hcur, fun _ => heq⟩
  cases MailRule.of_step h with
  | clock | schedule | cancel => exact .inl ⟨hr, fun _ => rfl⟩
  | listDue | skipped | complete | fail | crash =>
    exact .inl (hmoved hr fun hphase => by simp [TickPhase.current] at hphase)
  | prepared k' r' due lookups msg credentials htick
  | blocked k' r' due lookups e htick
  | handed k' r' msg credentials due provider_message_id htick
  | refused k' r' msg credentials due e htick =>
    refine .inl (hmoved hr ?_)
    rintro hphase rfl
    rw [htick]
    exact ⟨hphase, by simp⟩
  | claimed k' r' due htick hclaim =>
    by_cases hk : k = k'
    · subst hk
      simp only [Mailer.setTick, Function.update_self, TickPhase.current,
        Option.some.injEq] at hr
      subst hr
      obtain ⟨q, hq, hst⟩ := guardedUpdate_fst.mp hclaim
      refine .inr ⟨rfl, ⟨q, hq, hst⟩, setStatus s.now .sending q, ?_, rfl⟩
      simp only [Mailer.setTick, claimScheduled, get_guardedUpdate, hq, Option.map_some]
      rw [if_pos (isScheduled_iff.mpr ⟨id_of_get hq, hst⟩)]
    · exact .inl ((hkeep hk hr).imp_right fun heq _ => heq)

/-! ### The invariant -/

structure MailInv (s : Mailer) : Prop where
  /-- A tick owns the message that it is busy with. -/
  owns : ∀ k r, (s.ticks k).current = some r →
    ∃ q, get r.id s.rows = some q ∧ q.status = .sending
  unique : ∀ k k' r r', (s.ticks k).current = some r → (s.ticks k').current = some r' →
    r.id = r'.id → k = k'
  handed_nodup : s.handed.Nodup
  /-- What was handed over is not scheduled again; whoever owns it has only to say so. -/
  handed : ∀ id ∈ s.handed, (∃ q, get id s.rows = some q ∧ (q.status = .sending ∨
    q.status = .sent)) ∧ ∀ k r, (s.ticks k).current = some r → r.id = id →
      ∃ due, s.ticks k = .completing r due
  cancels : ∀ id ∈ s.cancels, ∃ q, get id s.rows = some q ∧ q.status = .cancelled
  attempts : ∀ id q, get id s.rows = some q → q.attempt_count ≤ q.max_attempts ∧
    (q.status = .scheduled ∨ q.status = .sending → q.attempt_count < q.max_attempts)

lemma mailInv_init : MailInv .init := by
  refine ⟨?_, ?_, List.nodup_nil, ?_, ?_, ?_⟩
  · intro k r h
    cases h
  · intro k k' r r' h
    cases h
  · intro id h
    cases h
  · intro id h
    cases h
  · intro id q h
    simp [Mailer.init, get] at h

variable {toLowercase : String → String} {s t : Mailer} {a : MailAction}

/-- The statement of an owner finds its row in status `sending`. -/
lemma MailInv.sending_of_owner (hs : MailInv s) {k : TickId} {r q : EmailScheduledRow}
    {id : Uuid} (hr : (s.ticks k).current = some r) (hq : get id s.rows = some q)
    (hid : r.id = q.id) : q.status = .sending := by
  obtain ⟨q', hq', hst⟩ := hs.owns k r hr
  rw [hid, id_of_get hq, hq, Option.some.injEq] at hq'
  subst hq'
  exact hst

lemma MailInv.owns_step (hs : MailInv s) (h : s.step toLowercase a = some t) (k : TickId)
    (r : EmailScheduledRow) (hr : (t.ticks k).current = some r) :
    ∃ q, get r.id t.rows = some q ∧ q.status = .sending := by
  rcases tick_step h hr with ⟨hold, -⟩ | ⟨-, -, hnew⟩
  · obtain ⟨q, hq, hst⟩ := hs.owns k r hold
    obtain ⟨q', hq', hchange⟩ := row_step h hq
    have hid : q.id = r.id := id_of_get hq
    cases hchange with
    | same => exact ⟨q, hq', hst⟩
    | guarded status hsch => simp [hst] at hsch
    | sent k' r' due htick hid' hdone =>
      -- only the owner reports, and it is done afterwards
      have hk : k = k' := hs.unique k k' r r' hold (by rw [htick]; rfl) (hid.symm.trans hid'.symm)
      rw [← hk, hr] at hdone
      cases hdone
    | attempted k' r' error_msg due htick hid' hdone =>
      have hk : k = k' := hs.unique k k' r r' hold (by rw [htick]; rfl) (hid.symm.trans hid'.symm)
      rw [← hk, hr] at hdone
      cases hdone
  · exact hnew

lemma MailInv.unique_step (hs : MailInv s) (h : s.step toLowercase a = some t) (k k' : TickId)
    (r r' : EmailScheduledRow) (hr : (t.ticks k).current = some r)
    (hr' : (t.ticks k').current = some r') (hid : r.id = r'.id) : k = k' := by
  have hconflict {k : TickId} {r r' : EmailScheduledRow} (hold : (s.ticks k).current = some r)
      (hnew : ∃ q, get r'.id s.rows = some q ∧ q.status = .scheduled) : r.id ≠ r'.id := by
    obtain ⟨q, hq, hst⟩ := hnew
    intro hid
    have hsending := hs.sending_of_owner hold hq (hid.trans (id_of_get hq).symm)
    simp [hst] at hsending
  rcases tick_step h hr with ⟨hold, -⟩ | ⟨ha, hnew, -⟩ <;>
    rcases tick_step h hr' with ⟨hold', -⟩ | ⟨ha', hnew', -⟩
  · exact hs.unique k k' r r' hold hold' hid
  · exact absurd hid (hconflict hold hnew')
  · exact absurd hid.symm (hconflict hold' hnew)
  · rw [ha] at ha'
    cases ha'
    rfl

/-- A message that was handed over before the step stays out of the hands of the ticks. -/
lemma MailInv.handed_of_mem (hs : MailInv s) (h : s.step toLowercase a = some t) {id : Uuid}
    (hmem : id ∈ s.handed) : (∃ q, get id t.rows = some q ∧ (q.status = .sending ∨
      q.status = .sent)) ∧ ∀ k r, (t.ticks k).current = some r → r.id = id →
        ∃ due, t.ticks k = .completing r due := by
  obtain ⟨⟨q, hq, hst⟩, howner⟩ := hs.handed id hmem
  have hsch : q.status ≠ .scheduled := by
    intro heq
    simp [heq] at hst
  constructor
  · obtain ⟨q', hq', hchange⟩ := row_step h hq
    cases hchange with
    | same => exact ⟨q, hq', hst⟩
    | guarded status hsch' => exact absurd hsch' hsch
    | sent => exact ⟨_, hq', .inr rfl⟩
    | attempted k r error_msg due htick hid =>
      obtain ⟨due', hdue⟩ := howner k r (by rw [htick]; rfl) (hid.trans (id_of_get hq))
      simp [htick] at hdue
  · intro k r hr hid
    rcases tick_step h hr with ⟨hold, hstill⟩ | ⟨-, ⟨q', hq', hst'⟩, -⟩
    · obtain ⟨due, hdue⟩ := howner k r hold hid
      exact ⟨due, (hstill ⟨due, hdue⟩).trans hdue⟩
    · rw [hid, hq, Option.some.injEq] at hq'
      subst hq'
      exact absurd hst' hsch

lemma MailInv.handed_step (hs : MailInv s) (h : s.step toLowercase a = some t) :
    t.handed.Nodup ∧ ∀ id ∈ t.handed, (∃ q, get id t.rows = some q ∧ (q.status = .sending ∨
      q.status = .sent)) ∧ ∀ k r, (t.ticks k).current = some r → r.id = id →
        ∃ due, t.ticks k = .completing r due := by
  have hold := fun id (hmem : id ∈ s.handed) => hs.handed_of_mem h hmem
  have howns := hs.owns_step h
  have hunique := hs.unique_step h
  cases MailRule.of_step h with
  | handed k r msg credentials due provider_message_id htick =>
    have hcur : (s.ticks k).current = some r := by rw [htick]; rfl
    have hfresh : r.id ∉ s.handed := by
      intro hmem
      obtain ⟨due', hdue⟩ := (hs.handed r.id hmem).2 k r hcur rfl
      simp [htick] at hdue
    constructor
    · exact List.nodup_append.mpr ⟨hs.handed_nodup, List.nodup_singleton _, by
        rintro id hid _ hid' rfl
        exact hfresh (List.mem_singleton.mp hid' ▸ hid)⟩
    · intro id hmem
      rcases List.mem_append.mp hmem with hmem | hmem
      · exact hold id hmem
      · obtain rfl := List.mem_singleton.mp hmem
        have hcur' : ((Function.update s.ticks k (.completing r due)) k).current = some r := by
          rw [Function.update_self]
          rfl
        obtain ⟨q, hq, hst⟩ := howns k r hcur'
        refine ⟨⟨q, hq, .inl hst⟩, ?_⟩
        intro k' r' hr' hid
        obtain rfl := hunique k' k r' r hr' hcur' hid
        simp only [Mailer.setTick, Function.update_self, TickPhase.current,
          Option.some.injEq] at hr' ⊢
        subst hr'
        exact ⟨due, rfl⟩
  | _ => exact ⟨hs.handed_nodup, hold⟩

lemma MailInv.cancels_step (hs : MailInv s) (h : s.step toLowercase a = some t) (id : Uuid)
    (hmem : id ∈ t.cancels) : ∃ q, get id t.rows = some q ∧ q.status = .cancelled := by
  have hold (hmem : id ∈ s.cancels) : ∃ q, get id t.rows = some q ∧ q.status = .cancelled := by
    obtain ⟨q, hq, hst⟩ := hs.cancels id hmem
    obtain ⟨q', hq', hchange⟩ := row_step h hq
    cases hchange with
    | same => exact ⟨q, hq', hst⟩
    | guarded status hsch => simp [hst] at hsch
    | sent k r due htick hid | attempted k r error_msg due htick hid =>
      have hsending := hs.sending_of_owner (k := k) (by rw [htick]; rfl) hq hid
      simp [hst] at hsending
  cases MailRule.of_step h with
  | cancel id' e =>
    by_cases hnew : e = .answered ∧ (cancelScheduled s.now id' s.rows).1
    · rw [cancels_cancelMail, if_pos hnew] at hmem
      rcases List.mem_append.mp hmem with hmem | hmem
      · exact hold hmem
      · obtain rfl := List.mem_singleton.mp hmem
        obtain ⟨q, hq, hst⟩ := guardedUpdate_fst.mp hnew.2
        refine ⟨setStatus s.now .cancelled q, ?_, rfl⟩
        simp only [cancelMail, hnew.1, get_apply, cancelScheduled, get_guardedUpdate, hq,
          Option.map_some, reduceCtorEq, if_false]
        rw [if_pos (isScheduled_iff.mpr ⟨id_of_get hq, hst⟩)]
    · rw [cancels_cancelMail, if_neg hnew] at hmem
      exact hold hmem
  | _ => exact hold hmem

lemma MailInv.attempts_step (hs : MailInv s) (h : s.step toLowercase a = some t) (id : Uuid)
    (q' : EmailScheduledRow) (hq' : get id t.rows = some q') :
    q'.attempt_count ≤ q'.max_attempts ∧
      (q'.status = .scheduled ∨ q'.status = .sending → q'.attempt_count < q'.max_attempts) := by
  rcases row_of_step h hq' with ⟨q, hq, hchange⟩ | ⟨-, hlt⟩
  · obtain ⟨hle, hlt⟩ := hs.attempts id q hq
    cases hchange with
    | same => exact ⟨hle, hlt⟩
    | guarded status hst => exact ⟨hle, fun _ => hlt (.inl hst)⟩
    | sent =>
      refine ⟨hle, ?_⟩
      intro hst
      simp [markSent] at hst
    | attempted k r error_msg due htick hid =>
      have hsending := hs.sending_of_owner (k := k) (by rw [htick]; rfl) hq hid
      refine ⟨hlt (.inr hsending), ?_⟩
      intro hst
      show q.attempt_count + 1 < q.max_attempts
      simp only [markAttempt] at hst
      split_ifs at hst with hge
      · simp at hst
      · exact not_le.mp hge
  · exact ⟨hlt.le, fun _ => hlt⟩

lemma mailInv_step (hs : MailInv s) (h : s.step toLowercase a = some t) : MailInv t := by
  obtain ⟨hnodup, hhanded⟩ := hs.handed_step h
  exact ⟨hs.owns_step h, hs.unique_step h, hnodup, hhanded, hs.cancels_step h,
    hs.attempts_step h⟩

/-! ### At most once -/

/-- What the scheduler promises: no message is handed over twice, a message whose cancellation
reported success is neither handed over nor about to be, and no message is tried more often than
`max_attempts` says. -/
structure SentOnce (s : Mailer) : Prop where
  once : s.handed.Nodup
  cancelled_not_handed : ∀ id ∈ s.cancels, id ∉ s.handed
  cancelled_not_sending : ∀ id ∈ s.cancels, ∀ k r msg credentials due,
    s.ticks k = .sending r msg credentials due → r.id ≠ id
  attempts_le : ∀ id q, get id s.rows = some q → q.attempt_count ≤ q.max_attempts

/-- However ticks, send outcomes and cancellations interleave, and whichever statement fails or
whichever tick stops, scheduled messages are sent at most once and never after a cancel. -/
theorem sentOnce {as : List MailAction} (h : exec (Mailer.step toLowercase) .init as = some s) :
    SentOnce s := by
  have hinv : MailInv s :=
    exec_preserves (fun _ _ _ => mailInv_step) mailInv_init h
  refine ⟨hinv.handed_nodup, ?_, ?_, ?_⟩
  · intro id hcancel hhanded
    obtain ⟨q, hq, hst⟩ := hinv.cancels id hcancel
    obtain ⟨⟨q', hq', hst'⟩, -⟩ := hinv.handed id hhanded
    rw [hq, Option.some.injEq] at hq'
    subst hq'
    simp [hst] at hst'
  · rintro id hcancel k r msg credentials due htick rfl
    obtain ⟨q, hq, hst⟩ := hinv.cancels r.id hcancel
    have hsending := hinv.sending_of_owner (k := k) (by rw [htick]; rfl) hq (id_of_get hq).symm
    simp [hst] at hsending
  · intro id q hq
    exact (hinv.attempts id q hq).1

/-! ### Two servers -/

def reminder : ScheduleRequest :=
  ⟨1, some 3, "gmail", "me@example.org", .arr [.str "you@example.org"], .arr [], .arr [],
    "Reminder", some "Tomorrow at nine.", none, 10⟩

def gmailAccount : Lookups := ⟨.ok (some .null), .ok []⟩

/-- Two ticks list the same message; one claims and sends it, and the cancellation comes too
late. -/
def twoTicks : List MailAction :=
  [.schedule 7 reminder, .clock 20, .listDue 0, .listDue 1, .claim 0 .answered,
   .claim 1 .answered, .prepare 0 gmailAccount, .cancel 7 .answered, .send 0 (.ok "m1"),
   .complete 0 .answered]

theorem sentOnce_twoTicks : ∃ s, exec (Mailer.step fun x => x) .init twoTicks = some s ∧
    SentOnce s ∧ s.handed = [7] ∧ s.cancels = [] := by
  obtain ⟨s, h⟩ : ∃ s, exec (Mailer.step fun x => x) .init twoTicks = some s := ⟨_, rfl⟩
  refine ⟨s, h, sentOnce h, ?_⟩
  obtain rfl := Option.some.inj h
  exact ⟨rfl, rfl⟩

end Arbeiterfarm.Email
