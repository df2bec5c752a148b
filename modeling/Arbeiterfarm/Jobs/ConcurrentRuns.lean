import Arbeiterfarm.Jobs.Enqueue

/-!
# The quota of concurrent runs

From the count of a transaction to its commit, the advisory lock keeps every other transaction of
the user from inserting, and no statement of a worker or of the reaper makes a run active. So the
count is an upper bound until the transaction has committed its one row.
-/

namespace Arbeiterfarm.Jobs

open Foundation

variable {hashtext : Uuid → ℤ} {getQuota : Uuid → Option ℤ}

/-! ### The count -/

/-- No statement of a worker or of the reaper makes a run count that did not count before. -/
lemma RowRule.countsFor {s t : Farm} {a : Action} {r r' : ToolRunRow} (h : RowRule s a t r r')
    {uid : Uuid} (hr' : countsFor uid r') : countsFor uid r := by
  simp only [Jobs.countsFor, decide_eq_true_eq] at hr' ⊢
  cases h with
  | same | extended => exact hr'
  | claimed hqueued => exact ⟨hr'.1, by simp [hqueued, RunStatus.active]⟩
  | reported w run result =>
    rw [reportRow_status] at hr'
    split_ifs at hr' <;> simp [RunStatus.active] at hr'
  | requeued ha hp =>
    have hrun := running_of_leaseExpired (reclaimable_iff.mp hp).1
    exact ⟨hr'.1, by simp [hrun, RunStatus.active]⟩
  | exhausted => simp [markExhausted, RunStatus.active] at hr'

/-- The workers and the reaper never raise the count. -/
lemma countActiveRuns_farm {s t : Farm} {a : Action} (ha : ∀ id req, a ≠ .enqueue id req)
    (h : s.step a = some t) (uid : Uuid) :
    countActiveRuns uid t.rows ≤ countActiveRuns uid s.rows := by
  rcases RowRule.of_step h with ⟨id, req, rfl, -⟩ | ⟨p, f, hf, hrows, hrule⟩
  · exact absurd rfl (ha id req)
  · rw [hrows]
    simp only [countActiveRuns, Table.update, List.countP_map]
    apply List.countP_mono_left
    intro r hr hcount
    exact (hrule r hr).countsFor hcount

/-- A committed row adds one to the count of its own user. -/
lemma countActiveRuns_insert {row : ToolRunRow} {t t' : ToolRuns} (h : t.insert row = some t')
    (uid : Uuid) : countActiveRuns uid t' =
      countActiveRuns uid t + if countsFor uid row then 1 else 0 := by
  simp only [countActiveRuns, Table.rows_insert h, List.countP_append, List.countP_singleton]

/-! ### The invariant -/

/-- The user's active runs are within the quota; a quota below zero admits none. -/
def WithinQuota (getQuota : Uuid → Option ℤ) (s : JobSystem) : Prop :=
  ∀ uid q, getQuota uid = some q → (countActiveRuns uid s.farm.rows : ℤ) ≤ max q 0

/-- The transaction has passed the check of the quota. -/
def TxPhase.Passed : TxPhase → Prop
  | .admitted | .inserted _ => True
  | _ => False

structure QuotaInv (hashtext : Uuid → ℤ) (getQuota : Uuid → Option ℤ) (s : JobSystem) :
    Prop where
  within : WithinQuota getQuota s
  /-- Past its first statement, a transaction holds the lock of its user. -/
  holds : ∀ tx x uid, s.txs tx = some x → x.req.actor_user_id = some uid → x.phase ≠ .begun →
    s.locks (hashtext uid) = some tx
  counted : ∀ tx x uid n, s.txs tx = some x → x.req.actor_user_id = some uid →
    x.phase = .counted n → countActiveRuns uid s.farm.rows ≤ n
  passed : ∀ tx x uid q, s.txs tx = some x → x.req.actor_user_id = some uid →
    x.phase.Passed → getQuota uid = some q → (countActiveRuns uid s.farm.rows : ℤ) < q
  inserted : ∀ tx x row, s.txs tx = some x → x.phase = .inserted row →
    row.actor_user_id = x.req.actor_user_id

lemma quotaInv_init : QuotaInv hashtext getQuota .init := by
  refine ⟨?_, ?_, ?_, ?_, ?_⟩
  · intro uid q _
    exact le_max_right q 0
  all_goals
    intros
    contradiction

/-- A transaction that moves on keeps what the other transactions rely on. -/
lemma QuotaInv.setPhase {s : JobSystem} (hs : QuotaInv hashtext getQuota s) {tx : TxId}
    {x : EnqueueTx} {phase : TxPhase} {locks : ℤ → Option TxId}
    (hlocks : ∀ key tx', tx' ≠ tx → s.locks key = some tx' → locks key = some tx')
    (hholds : ∀ uid, x.req.actor_user_id = some uid → phase ≠ .begun →
      locks (hashtext uid) = some tx)
    (hcounted : ∀ uid n, x.req.actor_user_id = some uid → phase = .counted n →
      countActiveRuns uid s.farm.rows ≤ n)
    (hpassed : ∀ uid q, x.req.actor_user_id = some uid → phase.Passed → getQuota uid = some q →
      (countActiveRuns uid s.farm.rows : ℤ) < q)
    (hinserted : ∀ row, phase = .inserted row → row.actor_user_id = x.req.actor_user_id) :
    QuotaInv hashtext getQuota { s.setPhase tx x phase with locks := locks } := by
  have hcases {tx' : TxId} {y : EnqueueTx}
      (h : Function.update s.txs tx (some { x with phase := phase }) tx' = some y) :
      (tx' = tx ∧ y = { x with phase := phase }) ∨ (tx' ≠ tx ∧ s.txs tx' = some y) := by
    by_cases heq : tx' = tx
    · subst heq
      rw [Function.update_self, Option.some.injEq] at h
      exact .inl ⟨rfl, h.symm⟩
    · rw [Function.update_of_ne heq] at h
      exact .inr ⟨heq, h⟩
  refine ⟨hs.within, ?_, ?_, ?_, ?_⟩
  · intro tx' y uid hy huid hphase
    rcases hcases hy with ⟨rfl, rfl⟩ | ⟨hne, hold⟩
    · exact hholds uid huid hphase
    · exact hlocks _ tx' hne (hs.holds tx' y uid hold huid hphase)
  · intro tx' y uid n hy huid hphase
    rcases hcases hy with ⟨rfl, rfl⟩ | ⟨-, hold⟩
    · exact hcounted uid n huid hphase
    · exact hs.counted tx' y uid n hold huid hphase
  · intro tx' y uid q hy huid hphase hq
    rcases hcases hy with ⟨rfl, rfl⟩ | ⟨-, hold⟩
    · exact hpassed uid q huid hphase hq
    · exact hs.passed tx' y uid q hold huid hphase hq
  · intro tx' y row hy hphase
    rcases hcases hy with ⟨rfl, rfl⟩ | ⟨-, hold⟩
    · exact hinserted row hphase
    · exact hs.inserted tx' y row hold hphase

/-- The end of a transaction keeps the invariant as long as the counts that the others rely on
have not grown. -/
lemma QuotaInv.finish {s : JobSystem} (hs : QuotaInv hashtext getQuota s) {tx : TxId}
    {result : Except EnqueueError Uuid} {farm : Farm}
    (hwithin : WithinQuota getQuota { s with farm := farm })
    (hcount : ∀ tx' x uid, tx' ≠ tx → s.txs tx' = some x → x.req.actor_user_id = some uid →
      x.phase ≠ .begun → countActiveRuns uid farm.rows ≤ countActiveRuns uid s.farm.rows) :
    QuotaInv hashtext getQuota ({ s with farm := farm }.finish tx result) := by
  have hold {tx' : TxId} {y : EnqueueTx} (h : Function.update s.txs tx none tx' = some y) :
      tx' ≠ tx ∧ s.txs tx' = some y := by
    by_cases heq : tx' = tx
    · subst heq
      simp at h
    · rw [Function.update_of_ne heq] at h
      exact ⟨heq, h⟩
  refine ⟨hwithin, ?_, ?_, ?_, ?_⟩
  · intro tx' y uid hy huid hphase
    obtain ⟨hne, hy⟩ := hold hy
    have hlock := hs.holds tx' y uid hy huid hphase
    show (if s.locks (hashtext uid) = some tx then none else s.locks (hashtext uid)) = some tx'
    rw [hlock, if_neg (by simpa using hne)]
  · intro tx' y uid n hy huid hphase
    obtain ⟨hne, hy⟩ := hold hy
    exact (hcount tx' y uid hne hy huid (by simp [hphase])).trans
      (hs.counted tx' y uid n hy huid hphase)
  · intro tx' y uid q hy huid hphase hq
    obtain ⟨hne, hy⟩ := hold hy
    have hbegun : y.phase ≠ .begun := by
      intro heq
      simp [heq, TxPhase.Passed] at hphase
    have hle := hcount tx' y uid hne hy huid hbegun
    have hlt := hs.passed tx' y uid q hy huid hphase hq
    show (countActiveRuns uid farm.rows : ℤ) < q
    omega
  · intro tx' y row hy hphase
    exact hs.inserted tx' y row (hold hy).2 hphase

/-- Two transactions of one user are not both past their first statement. -/
lemma QuotaInv.unique {s : JobSystem} (hs : QuotaInv hashtext getQuota s) {tx tx' : TxId}
    {x x' : EnqueueTx} {uid : Uuid} (hx : s.txs tx = some x) (hx' : s.txs tx' = some x')
    (huid : x.req.actor_user_id = some uid) (huid' : x'.req.actor_user_id = some uid)
    (hphase : x.phase ≠ .begun) (hphase' : x'.phase ≠ .begun) : tx = tx' := by
  have hlock := hs.holds tx x uid hx huid hphase
  rw [hs.holds tx' x' uid hx' huid' hphase', Option.some.injEq] at hlock
  exact hlock.symm

/-- The workers and the reaper leave all counts as they are, or lower. -/
lemma QuotaInv.farm {s : JobSystem} (hs : QuotaInv hashtext getQuota s) {a : Action} {farm : Farm}
    (ha : ∀ id req, a ≠ .enqueue id req) (hfarm : s.farm.step a = some farm) :
    QuotaInv hashtext getQuota { s with farm := farm } := by
  have hle := countActiveRuns_farm ha hfarm
  refine ⟨?_, hs.holds, ?_, ?_, hs.inserted⟩
  · intro uid q hq
    have hwithin := hs.within uid q hq
    have := hle uid
    show (countActiveRuns uid farm.rows : ℤ) ≤ max q 0
    omega
  · intro tx x uid n hx huid hphase
    exact (hle uid).trans (hs.counted tx x uid n hx huid hphase)
  · intro tx x uid q hx huid hphase hq
    have hlt := hs.passed tx x uid q hx huid hphase hq
    have := hle uid
    show (countActiveRuns uid farm.rows : ℤ) < q
    omega

/-- The new row takes the place that the check has left. -/
lemma QuotaInv.commit {s : JobSystem} (hs : QuotaInv hashtext getQuota s) {tx : TxId}
    {x : EnqueueTx} {row : ToolRunRow} {rows : ToolRuns} (htx : s.txs tx = some x)
    (hphase : x.phase = .inserted row) (hrows : s.farm.rows.insert row = some rows) :
    QuotaInv hashtext getQuota
      ({ s with farm := { s.farm with rows := rows } }.finish tx (.ok row.id)) := by
  have hcount := countActiveRuns_insert hrows
  have hactor := hs.inserted tx x row htx hphase
  have hbegun : x.phase ≠ .begun := by simp [hphase]
  apply hs.finish
  · intro uid q hq
    show (countActiveRuns uid rows : ℤ) ≤ max q 0
    rw [hcount uid]
    split_ifs with hrow
    · simp only [countsFor, decide_eq_true_eq] at hrow
      have hlt := hs.passed tx x uid q htx (hactor ▸ hrow.1)
        (by simp [hphase, TxPhase.Passed]) hq
      omega
    · exact hs.within uid q hq
  · intro tx' x' uid hne htx' huid' hphase'
    show countActiveRuns uid rows ≤ countActiveRuns uid s.farm.rows
    rw [hcount uid, if_neg, Nat.add_zero]
    intro hrow
    simp only [countsFor, decide_eq_true_eq] at hrow
    exact hne (hs.unique htx' htx huid' (hactor ▸ hrow.1) hphase' hbegun)

lemma quotaInv_step {s t : JobSystem} {a : SystemAction} (hs : QuotaInv hashtext getQuota s)
    (h : s.step hashtext getQuota a = some t) : QuotaInv hashtext getQuota t := by
  cases SystemRule.of_step hashtext getQuota h with
  | farm a farm ha hfarm => exact hs.farm ha hfarm
  | begin tx req htx =>
    apply hs.setPhase (fun _ _ _ h => h)
    · intro uid huid hphase
      simp only [show req.actor_user_id = some uid from huid] at hphase
      exact absurd rfl hphase
    · intro uid n huid hphase
      simp only [show req.actor_user_id = some uid from huid] at hphase
      cases hphase
    · intro uid q huid hphase
      simp only [show req.actor_user_id = some uid from huid] at hphase
      exact hphase.elim
    · intro row hphase
      split_ifs at hphase
  | lock tx x uid htx hphase huid hfree =>
    apply hs.setPhase
    · intro key tx' hne hkey
      have hne' : key ≠ hashtext uid := by
        rintro rfl
        simp [hfree] at hkey
      rw [Function.update_of_ne hne', hkey]
    · intro uid' huid' _
      rw [huid, Option.some.injEq] at huid'
      subst huid'
      rw [Function.update_self]
    · intro uid' n _ hphase'
      cases hphase'
    · intro uid' q _ hphase'
      exact hphase'.elim
    · intro row hphase'
      cases hphase'
  | count tx x uid htx hphase huid =>
    apply hs.setPhase (fun _ _ _ h => h)
    · intro uid' huid' _
      exact hs.holds tx x uid' htx huid' (by simp [hphase])
    · intro uid' n huid' hphase'
      rw [huid, Option.some.injEq] at huid'
      subst huid'
      cases hphase'
      exact le_rfl
    · intro uid' q _ hphase'
      exact hphase'.elim
    · intro row hphase'
      cases hphase'
  | exceeded tx x uid active q htx hphase huid hq hge =>
    exact hs.finish hs.within (fun _ _ _ _ _ _ _ => le_rfl)
  | admitted tx x uid active htx hphase huid hlt =>
    apply hs.setPhase (fun _ _ _ h => h)
    · intro uid' huid' _
      exact hs.holds tx x uid' htx huid' (by simp [hphase])
    · intro uid' n _ hphase'
      cases hphase'
    · intro uid' q huid' _ hq
      have hle := hs.counted tx x uid' active htx huid' hphase
      rw [huid, Option.some.injEq] at huid'
      subst huid'
      have := hlt q hq
      omega
    · intro row hphase'
      cases hphase'
  | insert tx x id htx hphase =>
    apply hs.setPhase (fun _ _ _ h => h)
    · intro uid huid _
      exact hs.holds tx x uid htx huid (by simp [hphase])
    · intro uid n _ hphase'
      cases hphase'
    · intro uid q huid _ hq
      exact hs.passed tx x uid q htx huid (by simp [hphase, TxPhase.Passed]) hq
    · intro row hphase'
      cases hphase'
      rfl
  | commit tx x row rows htx hphase hrows => exact hs.commit htx hphase hrows
  | rollback tx x message htx =>
    exact hs.finish hs.within (fun _ _ _ _ _ _ _ => le_rfl)

/-- However the enqueues of a user interleave with each other, with the workers and with the
reaper, the queued and running runs of the user stay within the quota. -/
theorem withinQuota {as : List SystemAction} {s : JobSystem}
    (h : exec (JobSystem.step hashtext getQuota) .init as = some s) : WithinQuota getQuota s := by
  have hinv : QuotaInv hashtext getQuota s :=
    exec_preserves (fun _ _ _ => quotaInv_step) quotaInv_init h
  exact hinv.within

/-! ### Two requests at the limit -/

def userRequest : EnqueueRequest := ⟨"file.info", 1, .obj [], some 3⟩

/-- Two requests of user 3, whose quota is one run: the second waits for the lock of the first
and is refused, while a worker claims the run that the first has enqueued. -/
def twoRequests : List SystemAction :=
  [.begin 0 userRequest, .begin 1 userRequest, .lock 0, .count 0, .quota 0, .insert 0 7,
   .commit 0, .lock 1, .farm (.claim 0 []), .count 1, .quota 1]

theorem withinQuota_twoRequests :
    ∃ s, exec (JobSystem.step (fun uid => uid) fun _ => some 1) .init twoRequests = some s ∧
      WithinQuota (fun _ => some 1) s ∧ s.results 1 = some (.error (concurrentRunLimit 1)) := by
  obtain ⟨s, h⟩ : ∃ s, exec (JobSystem.step (fun uid => uid) fun _ => some 1) .init twoRequests =
    some s := ⟨_, rfl⟩
  refine ⟨s, h, withinQuota h, ?_⟩
  obtain rfl := Option.some.inj h
  rfl

end Arbeiterfarm.Jobs
