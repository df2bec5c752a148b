import Arbeiterfarm.Queues.EmbedResume

/-!
# The embedding workers are processors of a queue

What a worker does between its statements on the queue is hidden from the queue, so that a run
of the embedding workers is a run of the processors of `embedQueue`, with the same rows at the same
time.
-/

namespace Arbeiterfarm.Queues

open Foundation

variable {cfg : EmbedConfig} {s t : EmbedState}

/-- A worker as the processor of a queue: it has the ids of its items, and a claim. -/
def PhaseRefines : EmbedPhase → WorkerPhase → Prop
  | .idle, p => p = .idle
  | .claiming due, p => p = .claiming (due.map (·.id))
  | .processing item _ due, p => ∃ n, p = .processing item.id n (due.map (·.id))

structure Refines (s : EmbedState) (q : QueueState embedQueue) : Prop where
  now : q.now = s.now
  rows : q.rows = s.rows
  workers : ∀ k, PhaseRefines (s.workers k) (q.workers k)

lemma phaseRefines_rest (e : Execution) (due : List EmbedRow) :
    PhaseRefines (EmbedState.rest e due) (QueueState.rest embedQueue e (due.map (·.id))) := by
  cases e <;> rfl

variable {q : QueueState embedQueue}

lemma Refines.setWorker (h : Refines s q) (k : WorkerId) {phase : EmbedPhase}
    {phase' : WorkerPhase} (hphase : PhaseRefines phase phase') :
    Refines (s.setWorker k phase) (q.setWorker k phase') := by
  refine ⟨h.now, h.rows, ?_⟩
  intro k'
  simp only [EmbedState.setWorker, QueueState.setWorker]
  by_cases hkk : k' = k
  · subst hkk
    rw [Function.update_self, Function.update_self]
    exact hphase
  · rw [Function.update_of_ne hkk, Function.update_of_ne hkk]
    exact h.workers k'

lemma Refines.execute (h : Refines s q) (e : Execution) (rows : QueueTable EmbedData) :
    Refines (s.execute e rows) (q.execute e rows) :=
  ⟨h.now, congrArg (e.apply · rows) h.rows, h.workers⟩

lemma Refines.grow (h : Refines s q) (m : EmbeddingTable) :
    Refines { s with embeddings := m } q :=
  ⟨h.now, h.rows, h.workers⟩

/-- The history variables do not matter. -/
lemma Refines.history (h : Refines s q) (claims : ℕ) (holder : Uuid → Option ℕ)
    (recorded : List Recorded) :
    Refines s { q with claims := claims, holder := holder, recorded := recorded } :=
  ⟨h.now, h.rows, h.workers⟩

lemma Refines.workers_eq (h : Refines s q) {k : WorkerId} {item : EmbedRow} {task : EmbedTask}
    {due : List EmbedRow} (hk : s.workers k = .processing item task due) :
    ∃ n, q.workers k = .processing item.id n (due.map (·.id)) := by
  have hk' := h.workers k
  rw [hk] at hk'
  exact hk'

/-- A worker that goes on with its item does nothing that the queue sees. -/
lemma Refines.stutter (h : Refines s q) {k : WorkerId} {item : EmbedRow}
    {task : EmbedTask} {due : List EmbedRow} (hk : s.workers k = .processing item task due)
    (task' : EmbedTask) : Refines (s.setWorker k (.processing item task' due)) q := by
  have hk' : Refines (s.setWorker k (.processing item task' due)) (q.setWorker k (q.workers k)) :=
    h.setWorker k (h.workers_eq hk)
  rwa [show q.setWorker k (q.workers k) = q by rw [QueueState.setWorker, Function.update_eq_self]]
    at hk'

lemma refines_claimItem (h : Refines s q) {k : WorkerId} {e : Execution}
    (hstep : s.claimItem k e = some t) : ∃ q', q.step (.claim k e) = some q' ∧ Refines t q' := by
  simp only [EmbedState.claimItem] at hstep
  split at hstep
  · next item due hk =>
    obtain rfl := Option.some.inj hstep
    have hk' : q.workers k = .claiming (item.id :: due.map (·.id)) := by
      have hphase := h.workers k
      rw [hk] at hphase
      exact hphase
    have hrows := h.execute e (claim s.now item.id s.rows).2
    simp only [QueueState.step, QueueState.claimItem, hk', h.now, h.rows]
    by_cases hclaim : (claim s.now item.id s.rows).1 = true
    · cases e with
      | answered =>
        simp only [hclaim]
        exact ⟨_, rfl, (hrows.history _ _ _).setWorker k ⟨_, rfl⟩⟩
      | lost =>
        simp only [hclaim]
        exact ⟨_, rfl, (hrows.history _ _ _).setWorker k rfl⟩
      | failed => exact ⟨_, rfl, hrows.setWorker k rfl⟩
    · simp only [hclaim, Bool.false_eq_true, and_false, if_false]
      exact ⟨_, rfl, hrows.setWorker k (phaseRefines_rest e due)⟩
  · cases hstep

/-- The outcome of an item, which the queue records if it is written. -/
lemma refines_reportItem (h : Refines s q) {k : WorkerId} {phase : EmbedPhase}
    {phase' : WorkerPhase} (hphase : PhaseRefines phase phase') (id : Uuid) (n : ℕ)
    (e : Execution) (result : Bool × QueueTable EmbedData) :
    Refines ((s.execute e result.2).setWorker k phase)
      ((q.reportItem id n e result).setWorker k phase') := by
  have hrows := h.execute e result.2
  simp only [QueueState.reportItem]
  split_ifs
  · exact (hrows.history _ _ _).setWorker k hphase
  · exact hrows.setWorker k hphase

lemma refines_progress (h : Refines s q) {k : WorkerId} {e : Execution} {msg : String}
    (hstep : s.progress k e msg = some t) :
    ∃ p q', q.step (.progress k p e) = some q' ∧ Refines t q' := by
  simp only [EmbedState.progress] at hstep
  split at hstep
  · next item chunks due hk =>
    obtain rfl := Option.some.inj hstep
    obtain ⟨n, hk'⟩ := h.workers_eq hk
    refine ⟨(item.data.chunks_embedded, some chunks.length), ?_⟩
    simp only [QueueState.step, hk', h.now, h.rows]
    exact ⟨_, rfl, Refines.stutter (h.execute e _) hk _⟩
  · next item remaining embedded_so_far due hk =>
    obtain rfl := Option.some.inj hstep
    obtain ⟨n, hk'⟩ := h.workers_eq hk
    refine ⟨(embedded_so_far, none), ?_⟩
    simp only [QueueState.step, hk', h.now, h.rows]
    exact ⟨_, rfl, Refines.stutter (h.execute e _) hk _⟩
  · cases hstep

lemma refines_load (h : Refines s q) {k : WorkerId} {failure : Option String}
    (hstep : s.load cfg k failure = some t) : Refines t q := by
  simp only [EmbedState.load] at hstep
  split at hstep
  · next item due hk =>
    split at hstep
    · obtain rfl := Option.some.inj hstep
      exact h.stutter hk _
    · obtain rfl := Option.some.inj hstep
      exact h.stutter hk _
    · cases hstep
  · cases hstep

lemma refines_embedBatch (h : Refines s q) {k : WorkerId}
    {response : Except String (List (List F32))} {e : Execution} {msg : String}
    (hstep : s.embedBatch cfg k response e msg = some t) : Refines t q := by
  simp only [EmbedState.embedBatch] at hstep
  split at hstep
  · next item remaining n due hk =>
    split at hstep
    · obtain rfl := Option.some.inj hstep
      exact h.stutter hk _
    · split at hstep
      · obtain rfl := Option.some.inj hstep
        exact h.stutter hk _
      · obtain rfl := Option.some.inj hstep
        apply Refines.stutter (h.grow _)
        exact hk
  · cases hstep

/-- Each step of the embedding workers is a step of the queue's processors, or none. -/
lemma refines_step {a : EmbedAction} (h : Refines s q) (hstep : s.step cfg a = some t) :
    ∃ bs q', exec QueueState.step q bs = some q' ∧ Refines t q' := by
  have one {b : QueueAction embedQueue} (hb : ∃ q', q.step b = some q' ∧ Refines t q') :
      ∃ bs q', exec QueueState.step q bs = some q' ∧ Refines t q' := by
    obtain ⟨q', hq', ht⟩ := hb
    refine ⟨[b], q', ?_, ht⟩
    rw [exec_cons, hq']
    rfl
  cases a with
  | clock d =>
    obtain rfl := Option.some.inj hstep
    refine one (b := .clock d) ⟨_, rfl, ?_, h.rows, h.workers⟩
    rw [h.now]
  | enqueue id project_id data =>
    obtain ⟨rows, hins, rfl⟩ := Option.map_eq_some_iff.mp hstep
    apply one (b := .enqueue id project_id { data with chunk_count := none, chunks_embedded := 0 })
    simp only [QueueState.step, h.now, h.rows, hins, Option.map_some]
    exact ⟨_, rfl, rfl, rfl, h.workers⟩
  | cancel id e =>
    obtain rfl := Option.some.inj hstep
    apply one (b := .cancel id e)
    simp only [QueueState.step, h.now, h.rows]
    exact ⟨_, rfl, h.execute e _⟩
  | retry id e =>
    obtain ⟨r, hr, rfl⟩ := Option.map_eq_some_iff.mp hstep
    apply one (b := .retry id e)
    simp only [QueueState.step, h.now, h.rows, hr, Option.map_some]
    exact ⟨_, rfl, h.execute e _⟩
  | recoverStale e =>
    obtain rfl := Option.some.inj hstep
    apply one (b := .recoverStale e)
    simp only [QueueState.step, h.now, h.rows]
    exact ⟨_, rfl, h.execute e _⟩
  | insertEmbedding row e =>
    obtain rfl := Option.some.inj hstep
    exact ⟨[], q, rfl, h.grow _⟩
  | list k =>
    apply one (b := .list k)
    have hk := h.workers k
    simp only [EmbedState.step] at hstep
    split at hstep
    · next hidle =>
      obtain rfl := Option.some.inj hstep
      rw [hidle] at hk
      simp only [QueueState.step, show q.workers k = .idle from hk, h.rows]
      exact ⟨_, rfl, h.setWorker k rfl⟩
    · next hclaiming =>
      obtain rfl := Option.some.inj hstep
      rw [hclaiming] at hk
      simp only [QueueState.step, show q.workers k = .claiming [] from hk, h.rows]
      exact ⟨_, rfl, h.setWorker k rfl⟩
    · cases hstep
  | claim k e => exact one (refines_claimItem h hstep)
  | load k failure => exact ⟨[], q, rfl, refines_load h hstep⟩
  | progress k e msg =>
    obtain ⟨p, hp⟩ := refines_progress h hstep
    exact one hp
  | batch k response e msg => exact ⟨[], q, rfl, refines_embedBatch h hstep⟩
  | complete k e =>
    simp only [EmbedState.step] at hstep
    split at hstep
    · next item due hk =>
      obtain rfl := Option.some.inj hstep
      obtain ⟨n, hk'⟩ := h.workers_eq hk
      apply one (b := .report k (.complete ()) e)
      simp only [QueueState.step, QueueState.report, hk', h.now, h.rows, Bool.false_eq_true,
        and_false, if_false]
      exact ⟨_, rfl, refines_reportItem h (phaseRefines_rest e due) item.id n e _⟩
    · cases hstep
  | fail k e =>
    simp only [EmbedState.step] at hstep
    split at hstep
    · next item msg due hk =>
      obtain rfl := Option.some.inj hstep
      obtain ⟨n, hk'⟩ := h.workers_eq hk
      apply one (b := .report k (.fail msg) e)
      simp only [QueueState.step, QueueState.report, hk', h.now, h.rows]
      exact ⟨_, rfl, refines_reportItem h (phaseRefines_rest e due) item.id n e _⟩
    · cases hstep
  | crash k =>
    obtain rfl := Option.some.inj hstep
    exact one (b := .crash k) ⟨_, rfl, h.setWorker k rfl⟩

/-- A run of the embedding workers is a run of the queue's processors. -/
theorem embedWorkers_refine {as : List EmbedAction}
    (h : exec (EmbedState.step cfg) .init as = some s) :
    ∃ bs q, exec QueueState.step (.init embedQueue) bs = some q ∧ Refines s q := by
  apply exec_simulates (R := Refines) _ _ h
  · intro s a t q hs hstep
    exact refines_step hs hstep
  · exact ⟨rfl, rfl, fun _ => rfl⟩

/-- Where a worker stops after a batch and another one goes on. -/
theorem embedWorkers_refine_resumed : ∃ s bs q,
    exec (EmbedState.step embedCfg) .init resumed = some s ∧
      exec QueueState.step (.init embedQueue) bs = some q ∧ Refines s q := by
  obtain ⟨s, hs⟩ : ∃ s, exec (EmbedState.step embedCfg) .init resumed = some s := ⟨_, rfl⟩
  obtain ⟨bs, q, hq, hrefines⟩ := embedWorkers_refine hs
  exact ⟨s, bs, q, hs, hq, hrefines⟩

end Arbeiterfarm.Queues
