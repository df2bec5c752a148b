import Arbeiterfarm.Queues.EmbedWorkers

/-!
# Resuming an item loses no chunk

The progress of an item is read into a copy, carried along and written back by workers that may
overlap, so that the column may go down as well as up. What carries the invariant is that every
such number, wherever it is, counts chunks that have been stored already.
-/

namespace Arbeiterfarm.Queues

open Foundation

/-- The columns of an item that no statement changes. -/
structure ItemKey where
  project_id : Uuid
  chunks_artifact_id : Uuid
  source_artifact_id : Option Uuid

def itemKey (r : EmbedRow) : ItemKey :=
  ⟨r.project_id, r.data.chunks_artifact_id, r.data.source_artifact_id⟩

variable {cfg : EmbedConfig} {m m' : EmbeddingTable} {rows rows' : QueueTable EmbedData}
  {s t : EmbedState} {key : ItemKey} {chunks : List Chunk}

/-! ### Stored chunks -/

/-- There is an embedding of the chunk, under its label. -/
def Stored (cfg : EmbedConfig) (m : EmbeddingTable) (key : ItemKey) (chunk : Chunk) : Prop :=
  (m.lookup (key.project_id, key.source_artifact_id, chunk.label, cfg.backend.name)).isSome

/-- The chunks at positions below `n` are stored. -/
def StoredBelow (cfg : EmbedConfig) (m : EmbeddingTable) (key : ItemKey) (n : ℕ) : Prop :=
  ∀ chunks, cfg.chunksOf key.chunks_artifact_id = some chunks →
    ∀ chunk ∈ chunks.take n, Stored cfg m key chunk

def AllStored (cfg : EmbedConfig) (m : EmbeddingTable) (key : ItemKey) : Prop :=
  ∃ chunks, cfg.chunksOf key.chunks_artifact_id = some chunks ∧
    ∀ chunk ∈ chunks, Stored cfg m key chunk

/-- The keys that have an embedding in `m` have one in `m'`. -/
def Grows (m m' : EmbeddingTable) : Prop :=
  ∀ k, (m.lookup k).isSome → (m'.lookup k).isSome

lemma Grows.refl (m : EmbeddingTable) : Grows m m := fun _ h => h

lemma Stored.grow {chunk : Chunk} (h : Stored cfg m key chunk) (hm : Grows m m') :
    Stored cfg m' key chunk := hm _ h

lemma StoredBelow.grow {n : ℕ} (h : StoredBelow cfg m key n) (hm : Grows m m') :
    StoredBelow cfg m' key n := by
  intro chunks hchunks chunk hchunk
  exact (h chunks hchunks chunk hchunk).grow hm

lemma AllStored.grow (h : AllStored cfg m key) (hm : Grows m m') : AllStored cfg m' key := by
  obtain ⟨chunks, hchunks, hstored⟩ := h
  exact ⟨chunks, hchunks, fun chunk hchunk => (hstored chunk hchunk).grow hm⟩

lemma grows_insertEmbedding (row : EmbeddingRow) (m : EmbeddingTable) :
    Grows m (insertEmbedding row m) := by
  intro k hk
  exact (Table.isSome_lookup_upsert _ _ _ _ _).mpr (.inr hk)

lemma grows_insertBatch (backend : EmbeddingBackend) (item : EmbedRow) (batch : List Chunk)
    (embeddings : List (List F32)) (m : EmbeddingTable) :
    Grows m (insertBatch backend item batch embeddings m) := by
  simp only [insertBatch]
  induction batch.zip embeddings generalizing m with
  | nil => exact Grows.refl m
  | cons p ps ih =>
    intro k hk
    exact ih _ k (grows_insertEmbedding _ m k hk)

/-- A transaction that commits stores the chunks of its batch. -/
lemma stored_insertBatch {item : EmbedRow} {batch : List Chunk} {embeddings : List (List F32)}
    (hlen : embeddings.length = batch.length) (m : EmbeddingTable) :
    ∀ chunk ∈ batch,
      Stored cfg (insertBatch cfg.backend item batch embeddings m) (itemKey item) chunk := by
  induction batch generalizing embeddings m with
  | nil =>
    intro chunk hchunk
    cases hchunk
  | cons c batch ih =>
    cases embeddings with
    | nil => cases hlen
    | cons v embeddings =>
      intro chunk hchunk
      rcases List.mem_cons.mp hchunk with rfl | hchunk
      · apply grows_insertBatch cfg.backend item batch embeddings
        exact (Table.isSome_lookup_upsert _ _ _ _ _).mpr (.inl rfl)
      · exact ih (Nat.succ.inj hlen) _ chunk hchunk

lemma length_of_checkEmbeddings {backend : EmbeddingBackend} {item : EmbedRow} {n : ℕ}
    {batch : List Chunk} {embeddings : List (List F32)}
    (h : checkEmbeddings backend item n batch embeddings = .ok ()) :
    embeddings.length = batch.length := by
  by_contra hlen
  rw [checkEmbeddings, if_pos hlen] at h
  cases h

/-! ### The rows -/

/-- The progress of a row is backed by embeddings, and so is its completion. -/
def RowOk (cfg : EmbedConfig) (m : EmbeddingTable) (r : EmbedRow) : Prop :=
  StoredBelow cfg m (itemKey r) r.data.chunks_embedded ∧
    (r.status = .completed → AllStored cfg m (itemKey r))

def RowsOk (cfg : EmbedConfig) (m : EmbeddingTable) (rows : QueueTable EmbedData) : Prop :=
  ∀ id r, get id rows = some r → RowOk cfg m r

/-- The items of `rows` are still there. -/
def ItemsKept (rows rows' : QueueTable EmbedData) : Prop :=
  ∀ id r, get id rows = some r → ∃ r', get id rows' = some r' ∧ itemKey r' = itemKey r

/-- What a statement on the queue keeps. -/
def Keeps (cfg : EmbedConfig) (m : EmbeddingTable) (rows rows' : QueueTable EmbedData) : Prop :=
  ItemsKept rows rows' ∧ (RowsOk cfg m rows → RowsOk cfg m rows')

lemma Keeps.refl (cfg : EmbedConfig) (m : EmbeddingTable) (rows : QueueTable EmbedData) :
    Keeps cfg m rows rows :=
  ⟨fun _ r hr => ⟨r, hr, rfl⟩, fun h => h⟩

lemma Keeps.apply (e : Execution) (h : Keeps cfg m rows rows') :
    Keeps cfg m rows (e.apply rows rows') :=
  e.apply_preserves (Keeps.refl cfg m rows) h

lemma RowOk.grow {r : EmbedRow} (h : RowOk cfg m r) (hm : Grows m m') : RowOk cfg m' r :=
  ⟨h.1.grow hm, fun hst => (h.2 hst).grow hm⟩

lemma Keeps.of_map {f : EmbedRow → EmbedRow}
    (hmap : ∀ id, get id rows' = (get id rows).map f) (hkey : ∀ r, itemKey (f r) = itemKey r)
    (hok : ∀ r, get r.id rows = some r → RowOk cfg m r → RowOk cfg m (f r)) :
    Keeps cfg m rows rows' := by
  constructor
  · intro id r hr
    refine ⟨f r, ?_, hkey r⟩
    rw [hmap, hr, Option.map_some]
  · intro hrows id r hr
    rw [hmap, Option.map_eq_some_iff] at hr
    obtain ⟨q, hq, rfl⟩ := hr
    obtain rfl := id_of_get hq
    exact hok q hq (hrows q.id q hq)

/-- A change of status, other than to `completed`. -/
lemma RowOk.of_data {q r : EmbedRow} (h : RowOk cfg m q) (hproject : r.project_id = q.project_id)
    (hdata : r.data = q.data) (hst : r.status = .completed → q.status = .completed) :
    RowOk cfg m r := by
  have hkey : itemKey r = itemKey q := by
    rw [itemKey, hproject, hdata]
    rfl
  refine ⟨?_, ?_⟩
  · rw [hkey, hdata]
    exact h.1
  · intro hr
    rw [hkey]
    exact h.2 (hst hr)

lemma nextStatus_ne_completed (r : EmbedRow) : r.nextStatus ≠ .completed := by
  simp only [QueueRow.nextStatus]
  split_ifs <;> simp

lemma RowOk.markAttempt {r : EmbedRow} (now : ℤ) (error_msg : String) (h : RowOk cfg m r) :
    RowOk cfg m (markAttempt now error_msg r) :=
  h.of_data rfl rfl fun hst => absurd hst (nextStatus_ne_completed r)

lemma Keeps.updateInStatus {id : Uuid} {st : QueueStatus} {f : EmbedRow → EmbedRow}
    {hf : ∀ r, (f r).id = r.id} (hkey : ∀ r, itemKey (f r) = itemKey r)
    (hok : ∀ r, get id rows = some r → RowOk cfg m r → RowOk cfg m (f r)) :
    Keeps cfg m rows (updateInStatus id st f hf rows).2 := by
  apply Keeps.of_map (fun id' => get_updateInStatus id id' st f hf rows)
  · intro r
    split_ifs
    · exact hkey r
    · rfl
  · intro r hget hr
    split_ifs with hst
    · obtain ⟨rfl, -⟩ := hasStatus_iff.mp hst
      exact hok r hget hr
    · exact hr

/-- A statement that leaves the data alone and completes nothing. -/
lemma Keeps.of_status {id : Uuid} {st : QueueStatus} {f : EmbedRow → EmbedRow}
    {hf : ∀ r, (f r).id = r.id} (hproject : ∀ r, (f r).project_id = r.project_id)
    (hdata : ∀ r, (f r).data = r.data) (hst : ∀ r, (f r).status ≠ .completed) :
    Keeps cfg m rows (Queues.updateInStatus id st f hf rows).2 := by
  apply Keeps.updateInStatus
  · intro r
    rw [itemKey, hproject, hdata]
    rfl
  · intro r _ hr
    exact hr.of_data (hproject r) (hdata r) fun h => absurd h (hst r)

lemma keeps_claim (now : ℤ) (id : Uuid) : Keeps cfg m rows (claim now id rows).2 :=
  Keeps.of_status (fun _ => rfl) (fun _ => rfl) (by simp [markProcessing])

lemma keeps_fail (now : ℤ) (error_msg : String) (id : Uuid) :
    Keeps cfg m rows (fail now error_msg id rows).2 :=
  Keeps.of_status (fun _ => rfl) (fun _ => rfl) nextStatus_ne_completed

lemma keeps_cancel (now : ℤ) (id : Uuid) : Keeps cfg m rows (cancel now id rows).2 :=
  Keeps.of_status (fun _ => rfl) (fun _ => rfl) (by simp [markCancelled])

lemma keeps_retry {conflicts : EmbedRow → EmbedRow → Bool} {now : ℤ} {id : Uuid}
    {r : Bool × QueueTable EmbedData} (h : retry conflicts now id rows = some r) :
    Keeps cfg m rows r.2 := by
  simp only [retry] at h
  split_ifs at h
  obtain rfl := Option.some.inj h
  exact Keeps.of_status (fun _ => rfl) (fun _ => rfl) (by simp [markRetried])

lemma keeps_recoverStale (now : ℤ) (stale_minutes : ℕ) :
    Keeps cfg m rows (recoverStale now stale_minutes rows) := by
  apply Keeps.of_map (fun id' => get_recoverStale now stale_minutes id' rows)
  · intro r
    split_ifs <;> rfl
  · intro r _ hr
    split_ifs
    · exact hr.of_data rfl rfl fun hst => absurd hst (nextStatus_ne_completed r)
    · exact hr

/-- An item may be completed once all of its chunks are stored. -/
lemma keeps_complete {item_id : Uuid} (now : ℤ)
    (hall : ∀ r, get item_id rows = some r → AllStored cfg m (itemKey r)) :
    Keeps cfg m rows (complete now id item_id rows).2 := by
  apply Keeps.updateInStatus
  · intro r
    rfl
  · intro r hget hr
    exact ⟨hr.1, fun _ => hall r hget⟩

/-- Progress may be recorded up to where the chunks are stored, whatever the row has. -/
lemma keeps_updateProgress {id : Uuid} (now : ℤ) {n : ℕ} (chunk_count : Option ℕ)
    (hstored : ∀ r, get id rows = some r → StoredBelow cfg m (itemKey r) n) :
    Keeps cfg m rows (updateProgress now (embedProgress (n, chunk_count)) id rows) := by
  apply Keeps.of_map (fun id' => get_updateProgress now _ id id' rows)
  · intro r
    split_ifs <;> rfl
  · intro r hget hr
    split_ifs with hid
    · subst hid
      exact ⟨hstored r hget, hr.2⟩
    · exact hr

/-- A new item has no progress. -/
lemma keeps_enqueue {conflicts : EmbedRow → EmbedRow → Bool} {now : ℤ} {id project_id : Uuid}
    {data : EmbedData} (hdata : data.chunks_embedded = 0)
    (h : enqueue conflicts now id project_id data rows = some rows') :
    Keeps cfg m rows rows' := by
  constructor
  · intro id' r hr
    rcases get_enqueue h id' with hsame | ⟨hnone, -⟩
    · exact ⟨r, hsame.trans hr, rfl⟩
    · rw [hr] at hnone
      cases hnone
  · intro hrows id' r hr
    rcases get_enqueue h id' with hsame | ⟨-, hnew⟩
    · exact hrows id' r (hsame.symm.trans hr)
    · obtain rfl := Option.some.inj (hnew.symm.trans hr)
      refine ⟨?_, fun hst => by cases hst⟩
      intro chunks _ chunk hchunk
      simp only [newRow, hdata, List.take_zero, List.not_mem_nil] at hchunk

/-! ### The workers -/

/-- The copy of a row, as it was when it was listed. -/
def CopyOk (cfg : EmbedConfig) (m : EmbeddingTable) (rows : QueueTable EmbedData)
    (item : EmbedRow) : Prop :=
  (∃ r, get item.id rows = some r ∧ itemKey r = itemKey item) ∧
    StoredBelow cfg m (itemKey item) item.data.chunks_embedded

/-- What is stored of the chunks, in the course of processing an item. -/
def TaskOk (cfg : EmbedConfig) (m : EmbeddingTable) (key : ItemKey) : EmbedTask → Prop
  | .loading | .failing _ => True
  | .starting chunks => cfg.chunksOf key.chunks_artifact_id = some chunks
  | .embedding remaining n | .recording remaining n =>
    ∃ done, cfg.chunksOf key.chunks_artifact_id = some (done ++ remaining) ∧ done.length = n ∧
      ∀ chunk ∈ done, Stored cfg m key chunk
  | .completing => AllStored cfg m key

def PhaseOk (cfg : EmbedConfig) (m : EmbeddingTable) (rows : QueueTable EmbedData) :
    EmbedPhase → Prop
  | .idle => True
  | .claiming due => ∀ item ∈ due, CopyOk cfg m rows item
  | .processing item task due =>
    CopyOk cfg m rows item ∧ TaskOk cfg m (itemKey item) task ∧
      ∀ item ∈ due, CopyOk cfg m rows item

structure EmbedInv (cfg : EmbedConfig) (s : EmbedState) : Prop where
  rows : RowsOk cfg s.embeddings s.rows
  workers : ∀ k, PhaseOk cfg s.embeddings s.rows (s.workers k)

lemma CopyOk.itemKey_eq {item r : EmbedRow} (h : CopyOk cfg m rows item)
    (hr : get item.id rows = some r) : itemKey r = itemKey item := by
  obtain ⟨⟨r', hr', hkey⟩, -⟩ := h
  obtain rfl := Option.some.inj (hr'.symm.trans hr)
  exact hkey

lemma CopyOk.mono {item : EmbedRow} (h : CopyOk cfg m rows item) (hm : Grows m m')
    (hrows : ItemsKept rows rows') : CopyOk cfg m' rows' item := by
  obtain ⟨⟨r, hr, hkey⟩, hstored⟩ := h
  obtain ⟨r', hr', hkey'⟩ := hrows item.id r hr
  exact ⟨⟨r', hr', hkey'.trans hkey⟩, hstored.grow hm⟩

lemma TaskOk.grow {task : EmbedTask} (h : TaskOk cfg m key task) (hm : Grows m m') :
    TaskOk cfg m' key task := by
  cases task with
  | loading | failing msg => trivial
  | starting chunks => exact h
  | embedding remaining n | recording remaining n =>
    obtain ⟨done, hchunks, hlen, hstored⟩ := h
    exact ⟨done, hchunks, hlen, fun chunk hchunk => (hstored chunk hchunk).grow hm⟩
  | completing => exact AllStored.grow h hm

lemma PhaseOk.mono {phase : EmbedPhase} (h : PhaseOk cfg m rows phase) (hm : Grows m m')
    (hrows : ItemsKept rows rows') : PhaseOk cfg m' rows' phase := by
  cases phase with
  | idle => trivial
  | claiming due => exact fun item hitem => (h item hitem).mono hm hrows
  | processing item task due =>
    obtain ⟨hitem, htask, hdue⟩ := h
    exact ⟨hitem.mono hm hrows, htask.grow hm, fun i hi => (hdue i hi).mono hm hrows⟩

/-- What has been recorded for an item may be counted on by any worker. -/
lemma TaskOk.storedBelow {remaining : List Chunk} {n : ℕ}
    (h : TaskOk cfg m key (.recording remaining n)) : StoredBelow cfg m key n := by
  obtain ⟨done, hdone, rfl, hstored⟩ := h
  intro chunks hchunks chunk hchunk
  obtain rfl := Option.some.inj (hdone.symm.trans hchunks)
  rw [List.take_left] at hchunk
  exact hstored chunk hchunk

lemma taskOk_nextTask {remaining : List Chunk} {n : ℕ}
    (h : TaskOk cfg m key (.recording remaining n)) :
    TaskOk cfg m key (EmbedState.nextTask remaining n) := by
  simp only [EmbedState.nextTask]
  split_ifs with hnil
  · obtain ⟨done, hdone, -, hstored⟩ := h
    rw [hnil, List.append_nil] at hdone
    exact ⟨done, hdone, hstored⟩
  · exact h

lemma taskOk_orFailing {task : EmbedTask} (e : Execution) (msg : String)
    (h : TaskOk cfg m key task) : TaskOk cfg m key (EmbedState.orFailing e msg task) := by
  simp only [EmbedState.orFailing]
  split_ifs
  · exact h
  · trivial

lemma phaseOk_rest {due : List EmbedRow} (e : Execution)
    (hdue : ∀ item ∈ due, CopyOk cfg m rows item) :
    PhaseOk cfg m rows (EmbedState.rest e due) := by
  simp only [EmbedState.rest]
  split_ifs
  · exact hdue
  · trivial

/-! ### The steps -/

lemma embedInv_init (cfg : EmbedConfig) : EmbedInv cfg EmbedState.init := by
  constructor
  · intro id r hr
    cases hr
  · intro k
    trivial

lemma EmbedInv.setWorker (hs : EmbedInv cfg s) (k : WorkerId) {phase : EmbedPhase}
    (hphase : PhaseOk cfg s.embeddings s.rows phase) : EmbedInv cfg (s.setWorker k phase) := by
  refine ⟨hs.rows, ?_⟩
  intro k'
  simp only [EmbedState.setWorker]
  by_cases hkk : k' = k
  · subst hkk
    rw [Function.update_self]
    exact hphase
  · rw [Function.update_of_ne hkk]
    exact hs.workers k'

lemma EmbedInv.execute (hs : EmbedInv cfg s) (e : Execution)
    (h : Keeps cfg s.embeddings s.rows rows) : EmbedInv cfg (s.execute e rows) := by
  obtain ⟨hitems, hrows⟩ := h.apply e
  refine ⟨hrows hs.rows, ?_⟩
  intro k
  exact (hs.workers k).mono (Grows.refl _) hitems

lemma EmbedInv.grow (hs : EmbedInv cfg s) (hm : Grows s.embeddings m) :
    EmbedInv cfg { s with embeddings := m } := by
  refine ⟨?_, ?_⟩
  · intro id r hr
    exact (hs.rows id r hr).grow hm
  · intro k
    exact (hs.workers k).mono hm (Keeps.refl cfg m s.rows).1

/-- What an item's worker knows, for the row that it is about. -/
lemma EmbedInv.processing (hs : EmbedInv cfg s) {k : WorkerId} {item : EmbedRow}
    {task : EmbedTask} {due : List EmbedRow} (hk : s.workers k = .processing item task due) :
    PhaseOk cfg s.embeddings s.rows (.processing item task due) := by
  rw [← hk]
  exact hs.workers k

lemma embedInv_claimItem (hs : EmbedInv cfg s) {k : WorkerId} {e : Execution}
    (h : s.claimItem k e = some t) : EmbedInv cfg t := by
  simp only [EmbedState.claimItem] at h
  split at h
  · next item due hk =>
    obtain rfl := Option.some.inj h
    have hs' := hs.execute e (keeps_claim s.now item.id)
    have hcopies := hs'.workers k
    rw [show (s.execute e _).workers k = _ from hk] at hcopies
    have hdue := fun i hi => hcopies i (List.mem_cons_of_mem item hi)
    apply hs'.setWorker
    split_ifs
    · exact ⟨hcopies item List.mem_cons_self, trivial, hdue⟩
    · exact phaseOk_rest e hdue
  · cases h

lemma embedInv_load (hs : EmbedInv cfg s) {k : WorkerId} {failure : Option String}
    (h : s.load cfg k failure = some t) : EmbedInv cfg t := by
  simp only [EmbedState.load] at h
  split at h
  · next item due hk =>
    obtain ⟨hitem, -, hdue⟩ := hs.processing hk
    split at h
    · obtain rfl := Option.some.inj h
      exact hs.setWorker k ⟨hitem, trivial, hdue⟩
    · next chunks hchunks =>
      obtain rfl := Option.some.inj h
      exact hs.setWorker k ⟨hitem, hchunks, hdue⟩
    · cases h
  · cases h

/-- Progress is recorded by a worker that knows it to be stored. -/
lemma embedInv_record (hs : EmbedInv cfg s) {k : WorkerId} {item : EmbedRow} {task : EmbedTask}
    {due : List EmbedRow} {n : ℕ} (hk : s.workers k = .processing item task due)
    (hstored : StoredBelow cfg s.embeddings (itemKey item) n) (chunk_count : Option ℕ)
    (e : Execution) {task' : EmbedTask} (htask' : TaskOk cfg s.embeddings (itemKey item) task') :
    EmbedInv cfg ((s.execute e
      (updateProgress s.now (embedProgress (n, chunk_count)) item.id s.rows)).setWorker k
        (.processing item task' due)) := by
  obtain ⟨hitem, htask, hdue⟩ := hs.processing hk
  have hs' := hs.execute e (keeps_updateProgress s.now chunk_count fun r hr => by
    rw [hitem.itemKey_eq hr]
    exact hstored)
  have hcopies := hs'.workers k
  rw [show (s.execute e _).workers k = _ from hk] at hcopies
  exact hs'.setWorker k ⟨hcopies.1, htask', hcopies.2.2⟩

lemma embedInv_progress (hs : EmbedInv cfg s) {k : WorkerId} {e : Execution} {msg : String}
    (h : s.progress k e msg = some t) : EmbedInv cfg t := by
  simp only [EmbedState.progress] at h
  split at h
  · next item chunks due hk =>
    obtain rfl := Option.some.inj h
    obtain ⟨hitem, hchunks, -⟩ := hs.processing hk
    apply embedInv_record hs hk hitem.2
    apply taskOk_orFailing
    -- What is left is empty if the offset is past the end.
    by_cases hskip : item.data.chunks_embedded ≤ chunks.length
    · apply taskOk_nextTask
      refine ⟨chunks.take item.data.chunks_embedded, ?_, List.length_take_of_le hskip,
        hitem.2 chunks hchunks⟩
      rw [List.take_append_drop]
      exact hchunks
    · rw [EmbedState.nextTask, if_pos (List.drop_eq_nil_of_le (le_of_not_ge hskip))]
      refine ⟨chunks, hchunks, ?_⟩
      intro chunk hchunk
      apply hitem.2 chunks hchunks
      rwa [List.take_of_length_le (le_of_not_ge hskip)]
  · next item remaining n due hk =>
    obtain rfl := Option.some.inj h
    obtain ⟨-, htask, -⟩ := hs.processing hk
    exact embedInv_record hs hk htask.storedBelow none e
      (taskOk_orFailing e msg (taskOk_nextTask htask))
  · cases h

lemma embedInv_embedBatch (hs : EmbedInv cfg s) {k : WorkerId}
    {response : Except String (List (List F32))} {e : Execution} {msg : String}
    (h : s.embedBatch cfg k response e msg = some t) : EmbedInv cfg t := by
  simp only [EmbedState.embedBatch] at h
  split at h
  · next item remaining n due hk =>
    obtain ⟨hitem, ⟨done, hchunks, hlen, hdone⟩, hdue⟩ := hs.processing hk
    split at h
    · obtain rfl := Option.some.inj h
      exact hs.setWorker k ⟨hitem, trivial, hdue⟩
    · next embeddings =>
      split at h
      · obtain rfl := Option.some.inj h
        exact hs.setWorker k ⟨hitem, trivial, hdue⟩
      · next hcheck =>
        obtain rfl := Option.some.inj h
        set batch := remaining.take EMBED_BATCH_SIZE with hbatch
        set m := insertBatch cfg.backend item batch embeddings s.embeddings with hm
        have hgrows : Grows s.embeddings m := grows_insertBatch cfg.backend item batch embeddings _
        have hs' := hs.grow (e.apply_preserves (Grows.refl _) hgrows)
        obtain ⟨hitem', -, hdue'⟩ := hs'.processing (k := k) hk
        refine hs'.setWorker k ⟨hitem', ?_, hdue'⟩
        cases e with
        | answered =>
          refine ⟨done ++ batch, ?_, ?_, ?_⟩
          · rw [List.append_assoc, hbatch, List.take_append_drop]
            exact hchunks
          · rw [List.length_append, hlen]
          · intro chunk hchunk
            rcases List.mem_append.mp hchunk with hchunk | hchunk
            · exact (hdone chunk hchunk).grow hgrows
            · exact stored_insertBatch (length_of_checkEmbeddings hcheck) _ chunk hchunk
        | lost | failed => trivial
  · cases h

lemma embedInv_step {a : EmbedAction} (hs : EmbedInv cfg s) (h : s.step cfg a = some t) :
    EmbedInv cfg t := by
  cases a with
  | clock d =>
    obtain rfl := Option.some.inj h
    exact ⟨hs.rows, hs.workers⟩
  | enqueue id project_id data =>
    obtain ⟨rows, hrows, rfl⟩ := Option.map_eq_some_iff.mp h
    exact hs.execute .answered (keeps_enqueue rfl hrows)
  | cancel id e =>
    obtain rfl := Option.some.inj h
    exact hs.execute e (keeps_cancel s.now id)
  | retry id e =>
    obtain ⟨r, hr, rfl⟩ := Option.map_eq_some_iff.mp h
    exact hs.execute e (keeps_retry hr)
  | recoverStale e =>
    obtain rfl := Option.some.inj h
    exact hs.execute e (keeps_recoverStale s.now _)
  | insertEmbedding row e =>
    obtain rfl := Option.some.inj h
    exact hs.grow (e.apply_preserves (Grows.refl _) (grows_insertEmbedding row _))
  | list k =>
    have hlist : PhaseOk cfg s.embeddings s.rows
        (.claiming (listPending embedQueue.batchSize s.rows)) := by
      intro item hitem
      have hget : get item.id s.rows = some item := by
        apply Table.lookup_of_mem
        have hmem := (List.mem_insertionSort _).mp (List.mem_of_mem_take hitem)
        exact List.mem_of_mem_filter hmem
      exact ⟨⟨item, hget, rfl⟩, (hs.rows item.id item hget).1⟩
    simp only [EmbedState.step] at h
    split at h
    · obtain rfl := Option.some.inj h
      exact hs.setWorker k hlist
    · obtain rfl := Option.some.inj h
      exact hs.setWorker k hlist
    · cases h
  | claim k e => exact embedInv_claimItem hs h
  | load k failure => exact embedInv_load hs h
  | progress k e msg => exact embedInv_progress hs h
  | batch k response e msg => exact embedInv_embedBatch hs h
  | complete k e =>
    simp only [EmbedState.step] at h
    split at h
    · next item due hk =>
      obtain rfl := Option.some.inj h
      obtain ⟨hitem, hall, hdue⟩ := hs.processing hk
      have hs' := hs.execute e (keeps_complete s.now fun r hr => by
        rw [hitem.itemKey_eq hr]
        exact hall)
      exact hs'.setWorker k (phaseOk_rest e (hs'.processing (k := k) hk).2.2)
    · cases h
  | fail k e =>
    simp only [EmbedState.step] at h
    split at h
    · next item msg due hk =>
      obtain rfl := Option.some.inj h
      have hs' := hs.execute e (keeps_fail s.now msg item.id)
      exact hs'.setWorker k (phaseOk_rest e (hs'.processing (k := k) hk).2.2)
    · cases h
  | crash k =>
    obtain rfl := Option.some.inj h
    exact hs.setWorker k trivial

/-- In every run, the chunks of an item at positions below its progress are stored under their
labels, and all the chunks of a completed item are. -/
theorem resume_complete {as : List EmbedAction} (h : exec (EmbedState.step cfg) .init as = some s)
    (id : Uuid) (r : EmbedRow) (hr : get id s.rows = some r) :
    StoredBelow cfg s.embeddings (itemKey r) r.data.chunks_embedded ∧
      (r.status = .completed → AllStored cfg s.embeddings (itemKey r)) := by
  have hinv : EmbedInv cfg s :=
    exec_preserves (fun s a t hs hstep => embedInv_step hs hstep) (embedInv_init cfg) h
  exact hinv.rows id r hr

/-! ### A worker that stops after a batch -/

def embedCfg : EmbedConfig where
  backend := ⟨"nomic-embed-text", 1⟩
  chunksOf id := if id = 40 then some [⟨0, 0, 5, "Hello", "page_0"⟩] else none

def pageItem : EmbedData where
  chunks_artifact_id := 40
  source_artifact_id := some 41
  tool_name := "url.ingest"

/-- Worker 0 has stored its batch when it stops, and worker 1 stores it once more. -/
def resumed : List EmbedAction :=
  [.enqueue 7 1 pageItem, .list 0, .claim 0 .answered, .load 0 none, .progress 0 .answered "",
    .batch 0 (.ok [[0]]) .answered "", .crash 0, .clock 121000000, .recoverStale .answered,
    .list 1, .claim 1 .answered, .load 1 none, .progress 1 .answered "",
    .batch 1 (.ok [[0]]) .answered "", .progress 1 .answered "", .complete 1 .answered]

theorem resume_complete_resumed : ∃ s r,
    exec (EmbedState.step embedCfg) .init resumed = some s ∧ get 7 s.rows = some r ∧
      r.status = .completed ∧ r.data.chunks_embedded = 1 ∧
      StoredBelow embedCfg s.embeddings (itemKey r) r.data.chunks_embedded ∧
      AllStored embedCfg s.embeddings (itemKey r) := by
  obtain ⟨s, h⟩ : ∃ s, exec (EmbedState.step embedCfg) .init resumed = some s := ⟨_, rfl⟩
  obtain ⟨r, hr, hst, hn⟩ : ∃ r, get 7 s.rows = some r ∧ r.status = .completed ∧
      r.data.chunks_embedded = 1 := by
    obtain rfl := Option.some.inj h
    exact ⟨_, rfl, rfl, rfl⟩
  obtain ⟨hbelow, hall⟩ := resume_complete h 7 r hr
  exact ⟨s, r, h, hr, hst, hn, hbelow, hall hst⟩

end Arbeiterfarm.Queues
