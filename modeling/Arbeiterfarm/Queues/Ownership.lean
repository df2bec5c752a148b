import Arbeiterfarm.Queues.Processors

/-!
# Who decides the outcome of an item

The guards on the status keep the attempts of an item within bounds and its final states final,
whatever the workers do. They do not keep a worker from deciding an item that was recovered from
it as stale and that another worker has claimed since. That takes an item to be claimed only when
nobody is at work on it.
-/

namespace Arbeiterfarm.Queues

open Foundation QueueState

variable {K : QueueKind} {s t : QueueState K} {a : QueueAction K}

/-! ### The rows -/

/-- An item after a step is new, or a statement has left it as it is. -/
lemma row_step (h : s.step a = some t) (id : Uuid) :
    Option.Rel RowChange (get id s.rows) (get id t.rows) ∨
      get id s.rows = none ∧ ∃ now project_id data,
        get id t.rows = some (newRow now id project_id data) := by
  cases QueueRule.of_step h with
  | other _ rows now hrows => exact .inl (hrows id)
  | inserted id' project_id data rows hinsert =>
    show Option.Rel RowChange (get id s.rows) (get id rows) ∨ _ ∧ ∃ now project_id data,
      get id rows = some (newRow now id project_id data)
    rcases get_enqueue hinsert id with hsame | ⟨hnone, hnew⟩
    · rw [hsame]
      exact .inl (RowsChange.refl s.rows id)
    · have hid : id' = id := id_of_get hnew
      subst hid
      exact .inr ⟨hnone, s.now, project_id, data, hnew⟩
  | free _ k rows phase hrows => exact .inl (hrows id)
  | claimed k id' due e rows phase hk he hclaim hrows => exact .inl (hrows id)
  | reported k r e id' n rows phase hk hrows => exact .inl (hrows id)
  | unrecorded k r e id' n rows phase hk hrows => exact .inl (hrows id)

/-- The attempts are within bounds, and an item that is not final has some left, or can be given
some. -/
def AttemptsInv (q : QueueRow K.Data) : Prop :=
  q.attempt_count ≤ q.max_attempts ∧ 0 < q.max_attempts ∧
    (q.status = .pending ∨ q.status = .processing → q.attempt_count < q.max_attempts)

lemma attemptsInv_newRow (now : ℤ) (id project_id : Uuid) (data : K.Data) :
    AttemptsInv (newRow now id project_id data) :=
  ⟨Nat.zero_le 5, Nat.zero_lt_succ 4, fun _ => Nat.zero_lt_succ 4⟩

lemma AttemptsInv.change {q q' : QueueRow K.Data} (hq : AttemptsInv q) (h : RowChange q q') :
    AttemptsInv q' := by
  obtain ⟨hle, hpos, hlt⟩ := hq
  cases h with
  | same => exact ⟨hle, hpos, hlt⟩
  | claimed now hst => exact ⟨hle, hpos, fun _ => hlt (.inl hst)⟩
  | completed now set hst => exact ⟨hle, hpos, fun h => by simp [markCompleted] at h⟩
  | attempted now error_msg hst =>
    refine ⟨hlt (.inr hst), hpos, ?_⟩
    intro h
    show q.attempt_count + 1 < q.max_attempts
    simp only [markAttempt, QueueRow.nextStatus] at h
    split_ifs at h with hge
    · simp at h
    · exact not_le.mp hge
  | failed now error_msg hst => exact ⟨le_refl _, hpos, fun h => by simp [markFailed] at h⟩
  | cancelled now hst => exact ⟨hle, hpos, fun h => by simp [markCancelled] at h⟩
  | retried now hst => exact ⟨Nat.zero_le _, hpos, fun _ => hpos⟩
  | progress now set => exact ⟨hle, hpos, hlt⟩

lemma attemptsInv_step (hs : ∀ id, ∀ q ∈ get id s.rows, AttemptsInv q) (h : s.step a = some t) :
    ∀ id, ∀ q ∈ get id t.rows, AttemptsInv q := by
  intro id q' hq'
  rcases row_step h id with hrel | ⟨-, now, project_id, data, hnew⟩
  · rw [Option.mem_def] at hq'
    rw [hq'] at hrel
    cases hq : get id s.rows with
    | none =>
      rw [hq] at hrel
      cases hrel
    | some q =>
      rw [hq] at hrel
      cases hrel with
      | some hchange => exact (hs id q hq).change hchange
  · rw [hnew, Option.mem_some_iff] at hq'
    subst hq'
    exact attemptsInv_newRow ..

lemma RowChange.final {δ : Type} {q q' : QueueRow δ} (h : RowChange q q')
    (hfinal : q.status.IsFinal) : q'.status = q.status := by
  cases h with
  | same | progress => rfl
  | claimed now hst | cancelled now hst | completed now set hst | attempted now error_msg hst
  | failed now error_msg hst | retried now hst => simp [QueueStatus.IsFinal, hst] at hfinal

/-- The final items of `s` are in the same state in `t`. -/
def FinalKept (s t : QueueState K) : Prop :=
  ∀ id q, get id s.rows = some q → q.status.IsFinal →
    ∃ q', get id t.rows = some q' ∧ q'.status = q.status

lemma finalKept_step (h : s.step a = some t) : FinalKept s t := by
  intro id q hq hfinal
  rcases row_step h id with hrel | ⟨hnone, -⟩
  · rw [hq] at hrel
    cases hq' : get id t.rows with
    | none =>
      rw [hq'] at hrel
      cases hrel
    | some q' =>
      rw [hq'] at hrel
      cases hrel with
      | some hchange => exact ⟨q', rfl, hchange.final hfinal⟩
  · rw [hq] at hnone
    cases hnone

lemma FinalKept.trans {u : QueueState K} (h : FinalKept s t) (h' : FinalKept t u) :
    FinalKept s u := by
  intro id q hq hfinal
  obtain ⟨q', hq', hst⟩ := h id q hq hfinal
  obtain ⟨q'', hq'', hst'⟩ := h' id q' hq' (hst ▸ hfinal)
  exact ⟨q'', hq'', hst'.trans hst⟩

lemma FinalKept.of_exec {as : List (QueueAction K)} (h : exec QueueState.step s as = some t) :
    FinalKept s t := by
  apply exec_related (C := fun _ _ => True) (I := fun _ => True) ?_ ?_ ?_ ?_ trivial
    (Along.of_forall (fun _ _ => trivial) s as) h
  · intro s id q hq _
    exact ⟨q, hq, rfl⟩
  · intro s t u h h'
    exact h.trans h'
  · intro s a t _ _ _
    trivial
  · intro s a t _ _ h
    exact finalKept_step h

/-! ### The owners -/

/-- No item is claimed while a worker is still at work on it, from an earlier claim. -/
def ClaimsAbandoned (s : QueueState K) : QueueAction K → Prop
  | .claim k e => ∀ id due, s.workers k = .claiming (id :: due) → e.executed = true →
      (claim s.now id s.rows).1 = true → ∀ k' n, (s.workers k').atWork ≠ some (id, n)
  | _ => True

/-- Whoever is at work on an item holds its last claim. -/
def HoldersInv (s : QueueState K) : Prop :=
  ∀ k id n, (s.workers k).atWork = some (id, n) → s.holder id = some n

def Owned (s : QueueState K) : Prop := ∀ r ∈ s.recorded, r.current = some r.claim

lemma holdersInv_init : HoldersInv (.init K) := by
  intro k id n h
  cases h

/-- A worker that moves to a phase without an item, or keeps its item, breaks no claim. -/
lemma HoldersInv.setWorker {k : WorkerId} {phase : WorkerPhase} (hs : HoldersInv s)
    (hphase : ∀ id n, phase.atWork = some (id, n) → s.holder id = some n) :
    HoldersInv (s.setWorker k phase) := by
  intro k' id n hk'
  simp only [QueueState.setWorker] at hk' ⊢
  by_cases hkk : k' = k
  · subst hkk
    rw [Function.update_self] at hk'
    exact hphase id n hk'
  · rw [Function.update_of_ne hkk] at hk'
    exact hs k' id n hk'

lemma holdersInv_step (hs : HoldersInv s) (hC : ClaimsAbandoned s a) (h : s.step a = some t) :
    HoldersInv t := by
  have hkeep {id n : ℕ} {phase : WorkerPhase} {k : WorkerId}
      (hk : (s.workers k).atWork = some (id, n))
      (hphase : phase.atWork = none ∨ phase.atWork = some (id, n)) (id' n' : ℕ)
      (h : phase.atWork = some (id', n')) : s.holder id' = some n' := by
    rcases hphase with hnone | hsome
    · rw [hnone] at h
      cases h
    · rw [hsome, ← hk] at h
      exact hs k id' n' h
  cases QueueRule.of_step h with
  | other | inserted => exact hs
  | free _ k rows phase hrows hphase =>
    refine HoldersInv.setWorker (s := { s with rows := rows }) hs ?_
    intro id n hat
    rw [hphase] at hat
    cases hat
  | claimed k id due e rows phase hk he hclaim hrows hphase =>
    apply HoldersInv.setWorker (s := { s with
        rows := rows
        claims := s.claims + 1
        holder := Function.update s.holder id (some s.claims) })
    · intro k' id' n hk'
      have hne : id' ≠ id := by
        rintro rfl
        exact hC id' due hk he hclaim k' n hk'
      show Function.update s.holder id (some s.claims) id' = some n
      rw [Function.update_of_ne hne]
      exact hs k' id' n hk'
    · intro id' n hat
      rcases hphase with hnone | hsome
      · rw [hnone] at hat
        cases hat
      · rw [hsome, Option.some.injEq, Prod.mk.injEq] at hat
        obtain ⟨rfl, rfl⟩ := hat
        exact Function.update_self ..
  | reported k r e id n rows phase hk hrows hphase =>
    exact HoldersInv.setWorker (s := { s with
        rows := rows
        recorded := s.recorded ++ [Recorded.mk id n (s.holder id)] }) hs (hkeep hk hphase)
  | unrecorded k r e id n rows phase hk hrows hphase =>
    exact HoldersInv.setWorker (s := { s with rows := rows }) hs (hkeep hk hphase)

lemma owned_step (hs : Owned s) (hinv : HoldersInv s) (h : s.step a = some t) : Owned t := by
  cases QueueRule.of_step h with
  | other | inserted | free | claimed | unrecorded => exact hs
  | reported k r e id n rows phase hk =>
    intro r' hr'
    rcases List.mem_append.mp hr' with hr' | hr'
    · exact hs r' hr'
    · obtain rfl := List.mem_singleton.mp hr'
      exact hinv k id n hk

/-- What a queue promises of two states of a run, one after the other. -/
structure QueueSafe (s t : QueueState K) : Prop where
  attempts : ∀ id q, get id t.rows = some q → q.attempt_count ≤ q.max_attempts
  final : FinalKept s t
  owned : Owned t

/-- In a run of any of the queues that claims an item only while no worker is at work on it, the
attempts are within bounds, final items stay final, and an outcome is only recorded by the worker
that holds the claim. -/
theorem queueSafe {q : QueueName} {s t : QueueState q.kind} {as bs : List (QueueAction q.kind)}
    (h : exec QueueState.step (.init q.kind) as = some s) (h' : exec QueueState.step s bs = some t)
    (hC : Along QueueState.step ClaimsAbandoned (.init q.kind) (as ++ bs)) : QueueSafe s t := by
  have hrun : exec QueueState.step (.init q.kind) (as ++ bs) = some t := by
    rw [exec_append, h]
    exact h'
  refine ⟨?_, FinalKept.of_exec h', ?_⟩
  · have hattempts : ∀ id, ∀ q' ∈ get id t.rows, AttemptsInv q' := by
      apply exec_preserves (fun s a t hs hstep => attemptsInv_step hs hstep) ?_ hrun
      intro id q' hq'
      cases hq'
    intro id q' hq'
    exact (hattempts id q' hq').1
  · refine (exec_invariant (I := fun s => HoldersInv s ∧ Owned s) ?_ ?_ hC hrun).2
    · intro s a t hs hC hstep
      exact ⟨holdersInv_step hs.1 hC hstep, owned_step hs.2 hs.1 hstep⟩
    · refine ⟨holdersInv_init, ?_⟩
      intro r hr
      cases hr

/-! ### Two workers -/

def chunksItem : EmbedData where
  chunks_artifact_id := 40
  source_artifact_id := some 41
  tool_name := "url.ingest"

/-- Worker 0 stops, its item is recovered as stale, and worker 1 completes it. -/
def handedOver : List (QueueAction embedQueue) :=
  [.enqueue 7 1 chunksItem, .list 0, .claim 0 .answered, .crash 0, .clock 121000000,
    .recoverStale .answered, .list 1, .claim 1 .answered, .report 1 (.complete ()) .answered]

/-- Worker 0 is only slow, and reports a failure while worker 1 is at work on the item. -/
def lateFailure : List (QueueAction embedQueue) :=
  [.enqueue 7 1 chunksItem, .list 0, .claim 0 .answered, .clock 121000000,
    .recoverStale .answered, .list 1, .claim 1 .answered,
    .report 0 (.fail "embedding failed: timeout") .answered]

lemma claimsAbandoned_handedOver :
    Along QueueState.step ClaimsAbandoned (.init embedQueue) handedOver := by
  have hidle {x : Option (Uuid × ℕ)} (hx : x = none) (p : Uuid × ℕ) : x ≠ some p := by
    rintro rfl
    cases hx
  apply Along.cons rfl trivial
  apply Along.cons rfl trivial
  apply Along.cons rfl
  · rintro id due - - - (_ | k') n
    · exact hidle rfl _
    · exact hidle rfl _
  apply Along.cons rfl trivial
  apply Along.cons rfl trivial
  apply Along.cons rfl trivial
  apply Along.cons rfl trivial
  apply Along.cons rfl
  · rintro id due - - - (_ | _ | k') n
    · exact hidle rfl _
    · exact hidle rfl _
    · exact hidle rfl _
  exact Along.cons rfl trivial trivial

theorem queueSafe_handedOver : ∃ s, exec QueueState.step (.init embedQueue) handedOver = some s ∧
    QueueSafe (.init embedQueue) s ∧ s.recorded = [⟨7, 1, some 1⟩] := by
  obtain ⟨s, h⟩ : ∃ s, exec QueueState.step (.init embedQueue) handedOver = some s := ⟨_, rfl⟩
  refine ⟨s, h, @queueSafe .embed _ s [] _ rfl h claimsAbandoned_handedOver, ?_⟩
  obtain rfl := Option.some.inj h
  rfl

/-- The failure counts against the item of worker 1, which is pending again. -/
theorem not_queueSafe_lateFailure :
    ∃ s, exec QueueState.step (.init embedQueue) lateFailure = some s ∧
      ¬ QueueSafe (.init embedQueue) s ∧
      (get 7 s.rows).map (fun r => (r.status, r.attempt_count)) = some (.pending, 2) := by
  refine ⟨_, rfl, ?_, rfl⟩
  intro h
  cases h.owned ⟨7, 0, some 1⟩ (List.mem_singleton_self _)

end Arbeiterfarm.Queues
