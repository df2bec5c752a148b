import Arbeiterfarm.Orchestrator.Fanout
import Mathlib.Algebra.BigOperators.Group.Finset.Basic
import Mathlib.Algebra.Order.BigOperators.Group.Finset
import Mathlib.Data.Finset.Prod
import Mathlib.Order.Interval.Finset.Nat

/-!
# The tree of child threads

A child thread knows the hashes of its ancestors and of the whole batches that they were spawned
in, so that along a chain of child threads no hash comes back. The depth bounds the length of a
chain and the cap the size of a batch; together they bound the tree by the number of fan-outs
that a workflow makes.
-/

namespace Arbeiterfarm.Orchestrator

open Foundation

/-! ### The invariant -/

/-- What a child thread takes over from its parent. -/
structure SpawnedBy (p t : WorkflowThread) : Prop where
  depth : t.fanout_depth = p.fanout_depth + 1
  depth_lt : p.fanout_depth < MAX_FANOUT_DEPTH
  visited : p.visited_sha256 ⊆ t.visited_sha256
  event_lt : t.event < p.events
  unvisited : ∃ a, t.artifact = some a ∧ a.sha256 ∉ p.visited_sha256

structure TreeInv (rows : List WorkflowThread) : Prop where
  root : ∀ t ∈ rows, t.parent_thread_id = none → t.artifact = none ∧ t.fanout_depth = 0
  child : ∀ t ∈ rows, ∀ i, t.parent_thread_id = some i → ∃ p ∈ rows, p.id = i ∧ SpawnedBy p t
  batch : ∀ t ∈ rows, ∀ u ∈ rows, t.parent_thread_id.isSome →
    u.parent_thread_id = t.parent_thread_id → u.event = t.event →
      ∀ a, u.artifact = some a → a.sha256 ∈ t.visited_sha256
  cap : ∀ i e, (rows.countP fun t => t.parent_thread_id = some i ∧ t.event = e) ≤
    MAX_FANOUT_CHILDREN
  fanning : ∀ t ∈ rows, ∀ children batches awaited,
    t.phase = .fanningOut (children :: batches) awaited → t.fanout_depth < MAX_FANOUT_DEPTH

/-- The thread is the same up to its phase, and has made no fewer fan-outs. -/
structure Continues (t u : WorkflowThread) : Prop where
  id : u.id = t.id
  parent : u.parent_thread_id = t.parent_thread_id
  artifact : u.artifact = t.artifact
  event : u.event = t.event
  depth : u.fanout_depth = t.fanout_depth
  visited : u.visited_sha256 = t.visited_sha256
  events : t.events ≤ u.events

lemma Continues.refl (t : WorkflowThread) : Continues t t := ⟨rfl, rfl, rfl, rfl, rfl, rfl, le_rfl⟩

lemma continues_setPhase (phase : Phase) (t : WorkflowThread) : Continues t (setPhase phase t) :=
  ⟨rfl, rfl, rfl, rfl, rfl, rfl, le_rfl⟩

lemma continues_setSpawned (batches : List (List ArtifactRow)) (awaited : List Uuid)
    (t : WorkflowThread) : Continues t (setSpawned batches awaited t) :=
  ⟨rfl, rfl, rfl, rfl, rfl, rfl, Nat.le_succ _⟩

lemma Continues.spawnedBy {p q t u : WorkflowThread} (hp : Continues p q) (ht : Continues t u)
    (h : SpawnedBy p t) : SpawnedBy q u where
  depth := by rw [ht.depth, hp.depth, h.depth]
  depth_lt := by rw [hp.depth]; exact h.depth_lt
  visited := by rw [hp.visited, ht.visited]; exact h.visited
  event_lt := by rw [ht.event]; exact h.event_lt.trans_le hp.events
  unvisited := by rw [ht.artifact, hp.visited]; exact h.unvisited

lemma TreeInv.map {rows : List WorkflowThread} (h : TreeInv rows)
    {f : WorkflowThread → WorkflowThread} (hf : ∀ t ∈ rows, Continues t (f t))
    (hfan : ∀ t ∈ rows, ∀ children batches awaited,
      (f t).phase = .fanningOut (children :: batches) awaited →
        t.fanout_depth < MAX_FANOUT_DEPTH) : TreeInv (rows.map f) := by
  constructor
  · simp only [List.mem_map]
    rintro _ ⟨t, ht, rfl⟩ hroot
    rw [(hf t ht).artifact, (hf t ht).depth]
    exact h.root t ht ((hf t ht).parent ▸ hroot)
  · simp only [List.mem_map]
    rintro _ ⟨t, ht, rfl⟩ i hi
    obtain ⟨p, hp, hid, hspawned⟩ := h.child t ht i ((hf t ht).parent ▸ hi)
    exact ⟨f p, ⟨p, hp, rfl⟩, (hf p hp).id.trans hid, (hf p hp).spawnedBy (hf t ht) hspawned⟩
  · simp only [List.mem_map]
    rintro _ ⟨t, ht, rfl⟩ _ ⟨u, hu, rfl⟩
    rw [(hf t ht).parent, (hf u hu).parent, (hf t ht).event, (hf u hu).event,
      (hf u hu).artifact, (hf t ht).visited]
    exact h.batch t ht u hu
  · intro i e
    rw [List.countP_map]
    refine (List.countP_congr fun t ht => ?_).trans_le (h.cap i e)
    simp [(hf t ht).parent, (hf t ht).event]
  · simp only [List.mem_map]
    rintro _ ⟨t, ht, rfl⟩ children batches awaited hphase
    rw [(hf t ht).depth]
    exact hfan t ht children batches awaited hphase

lemma TreeInv.setPhase {s : Project} (hs : TreeInv s.threads.rows) {id : Uuid}
    {t : WorkflowThread} {phase : Phase} (ht : s.threads.lookup id = some t)
    (hfan : ∀ children batches awaited, phase = .fanningOut (children :: batches) awaited →
      t.fanout_depth < MAX_FANOUT_DEPTH) : TreeInv (s.setPhase id phase).threads.rows := by
  refine hs.map (fun u _ => ?_) fun u hu children batches awaited hphase => ?_
  · split_ifs
    · exact continues_setPhase phase u
    · exact .refl u
  · split_ifs at hphase with hid
    · obtain rfl : u = t := by
        have := Table.lookup_of_mem hu
        rw [of_decide_eq_true hid, ht] at this
        exact (Option.some.inj this).symm
      exact hfan children batches awaited hphase
    · exact hs.fanning u hu children batches awaited hphase

lemma treeInv_init : TreeInv Project.init.threads.rows := by
  constructor <;> simp [Project.init, Table.empty]

lemma TreeInv.startWorkflow {rows : List WorkflowThread} (h : TreeInv rows) (id : Uuid) :
    TreeInv (rows ++ [rootThread id]) := by
  have hmem {t : WorkflowThread} (ht : t ∈ rows ++ [rootThread id]) :
      t ∈ rows ∨ t = rootThread id := by simpa using ht
  refine ⟨?_, ?_, ?_, ?_, ?_⟩
  · intro t ht hroot
    rcases hmem ht with ht | rfl
    · exact h.root t ht hroot
    · exact ⟨rfl, rfl⟩
  · intro t ht i hi
    rcases hmem ht with ht | rfl
    · obtain ⟨p, hp, hid, hspawned⟩ := h.child t ht i hi
      exact ⟨p, List.mem_append_left _ hp, hid, hspawned⟩
    · cases hi
  · intro t ht u hu hsome hparent
    rcases hmem ht with ht | rfl
    · rcases hmem hu with hu | rfl
      · exact h.batch t ht u hu hsome hparent
      · rw [← hparent] at hsome
        cases hsome
    · cases hsome
  · intro i e
    simpa [List.countP_append, rootThread] using h.cap i e
  · intro t ht children batches awaited hphase
    rcases hmem ht with ht | rfl
    · exact h.fanning t ht children batches awaited hphase
    · cases hphase

lemma sha256_of_mem_unvisited {t : WorkflowThread} {children : List ArtifactRow}
    {a : ArtifactRow} (h : a ∈ unvisited t children) :
    a.sha256 ∉ t.visited_sha256 ∧ a.sha256 ∈ (capped children).map (·.sha256) := by
  obtain ⟨hmem, hnew⟩ := List.mem_filter.mp h
  exact ⟨of_decide_eq_true hnew, List.mem_map_of_mem hmem⟩

/-- The threads of a new batch: `rows` already counts the fan-out that spawns them. -/
lemma TreeInv.append_children {rows : List WorkflowThread} (h : TreeInv rows)
    {p : WorkflowThread} (hp : p ∈ rows)
    (hdepth : p.fanout_depth < MAX_FANOUT_DEPTH) {t : WorkflowThread} (hcont : Continues t p)
    (hevents : t.events < p.events) (hold : ∀ u ∈ rows, u.parent_thread_id = some t.id →
      u.event ≠ t.events) (children : List ArtifactRow) (ids : List (Option Uuid)) :
    TreeInv (rows ++ childThreads t children ids) := by
  refine ⟨?_, ?_, ?_, ?_, ?_⟩
  · intro u hu hroot
    rcases List.mem_append.mp hu with hu | hu
    · exact h.root u hu hroot
    · obtain ⟨-, -, hparent, -⟩ := mem_childThreads hu
      rw [hroot] at hparent
      cases hparent
  · intro u hu i hi
    rcases List.mem_append.mp hu with hu | hu
    · obtain ⟨q, hq, hqi, hspawned⟩ := h.child u hu i hi
      exact ⟨q, List.mem_append_left _ hq, hqi, hspawned⟩
    · obtain ⟨a, ha, hparent, hartifact, hev, hd, hvisited, -⟩ := mem_childThreads hu
      obtain rfl := Option.some.inj (hparent.symm.trans hi)
      refine ⟨p, List.mem_append_left _ hp, hcont.id, ?_, hdepth, ?_, ?_, a, hartifact, ?_⟩
      · rw [hd, hcont.depth]
      · rw [hvisited, hcont.visited]
        exact List.subset_append_left _ _
      · rw [hev]
        exact hevents
      · rw [hcont.visited]
        exact (sha256_of_mem_unvisited ha).1
  · intro u hu v hv hsome hparent hevent a ha
    rcases List.mem_append.mp hu with hu | hu <;> rcases List.mem_append.mp hv with hv | hv
    · exact h.batch u hu v hv hsome hparent hevent a ha
    · -- a thread of the new batch is not in the batch of an old one
      obtain ⟨-, -, hvparent, -, hvevent, -⟩ := mem_childThreads hv
      exact absurd (hevent.symm.trans hvevent) (hold u hu (hparent.symm.trans hvparent))
    · obtain ⟨-, -, huparent, -, huevent, -⟩ := mem_childThreads hu
      exact absurd (hevent.trans huevent) (hold v hv (hparent.trans huparent))
    · obtain ⟨-, -, -, -, -, -, hvisited, -⟩ := mem_childThreads hu
      obtain ⟨b, hb, -, hartifact, -⟩ := mem_childThreads hv
      obtain rfl := Option.some.inj (hartifact.symm.trans ha)
      rw [hvisited]
      exact List.mem_append_right _ (sha256_of_mem_unvisited hb).2
  · intro i e
    rw [List.countP_append]
    by_cases hnew : i = t.id ∧ e = t.events
    · obtain ⟨rfl, rfl⟩ := hnew
      have hzero :
          (rows.countP fun u => u.parent_thread_id = some t.id ∧ u.event = t.events) = 0 := by
        rw [List.countP_eq_zero]
        intro u hu hmem
        obtain ⟨hparent, hevent⟩ := of_decide_eq_true hmem
        exact hold u hu hparent hevent
      rw [hzero, Nat.zero_add]
      exact List.countP_le_length.trans (length_childThreads_le t children ids)
    · have hzero : ((childThreads t children ids).countP fun u =>
          u.parent_thread_id = some i ∧ u.event = e) = 0 := by
        rw [List.countP_eq_zero]
        intro u hu hmem
        obtain ⟨hparent, hevent⟩ := of_decide_eq_true hmem
        obtain ⟨-, -, huparent, -, huevent, -⟩ := mem_childThreads hu
        exact hnew ⟨Option.some.inj (hparent.symm.trans huparent), hevent.symm.trans huevent⟩
      rw [hzero, Nat.add_zero]
      exact h.cap i e
  · intro u hu batch batches awaited hphase
    rcases List.mem_append.mp hu with hu | hu
    · exact h.fanning u hu batch batches awaited hphase
    · obtain ⟨-, -, -, -, -, -, -, -, hidle⟩ := mem_childThreads hu
      rw [hidle] at hphase
      cases hphase

lemma TreeInv.spawnChildren {s : Project} (hs : TreeInv s.threads.rows) {id : Uuid}
    {t : WorkflowThread} {ids : List (Option Uuid)} {children : List ArtifactRow}
    {batches : List (List ArtifactRow)} {threads : Table WorkflowThread.id}
    (ht : s.threads.lookup id = some t) (hphase : t.phase = .fanningOut (children :: batches) [])
    (h : (s.threads.update (fun t => t.id = id) (setSpawned batches ids.reduceOption)
      (id_setSpawned _ _)).insertAll (childThreads t children ids) = some threads) :
    TreeInv threads.rows := by
  obtain ⟨htmem, rfl⟩ := Table.lookup_eq_some_iff.mp ht
  have hunique {u : WorkflowThread} (hu : u ∈ s.threads.rows) (hid : u.id = t.id) : u = t := by
    have := Table.lookup_of_mem hu
    rw [hid, ht] at this
    exact (Option.some.inj this).symm
  have hdepth := hs.fanning t htmem children batches [] hphase
  have hold : ∀ u ∈ s.threads.rows, u.parent_thread_id = some t.id → u.event ≠ t.events := by
    intro u hu hparent heq
    obtain ⟨p, hp, hid, hspawned⟩ := hs.child u hu t.id hparent
    obtain rfl := hunique hp hid
    exact absurd heq hspawned.event_lt.ne
  set f : WorkflowThread → WorkflowThread := fun u =>
    if decide (u.id = t.id) then setSpawned batches ids.reduceOption u else u with hf
  have hcont : ∀ u ∈ s.threads.rows, Continues u (f u) := by
    intro u _
    simp only [hf]
    split_ifs
    · exact continues_setSpawned batches ids.reduceOption u
    · exact .refl u
  have hft : f t = setSpawned batches ids.reduceOption t := by simp [hf]
  have hmap : TreeInv (s.threads.rows.map f) := by
    apply hs.map hcont
    intro u hu children' batches' awaited hphase'
    simp only [hf] at hphase'
    split_ifs at hphase' with hid
    · rw [hunique hu (of_decide_eq_true hid)]
      exact hdepth
    · exact hs.fanning u hu children' batches' awaited hphase'
  rw [Table.rows_insertAll h]
  refine hmap.append_children (p := f t) (t := t) (List.mem_map_of_mem htmem) ?_
    (hcont t htmem) ?_ ?_ children ids
  · rw [hft]
    exact hdepth
  · rw [hft]
    exact Nat.lt_succ_self _
  · simp only [List.mem_map]
    rintro _ ⟨u, hu, rfl⟩ hparent
    rw [(hcont u hu).event]
    exact hold u hu ((hcont u hu).parent ▸ hparent)

lemma treeInv_step {s u : Project} {action : FanoutAction} (hs : TreeInv s.threads.rows)
    (h : s.step action = some u) : TreeInv u.threads.rows := by
  cases FanoutRule.of_step h with
  | tick d => exact hs
  | startWorkflow id threads hthreads =>
    simp only [Table.rows_insert hthreads]
    exact hs.startWorkflow id
  | createArtifact id sha256 fan_out_from artifacts hartifacts => exact hs
  | startGroup id t ht hphase => exact hs.setPhase ht fun _ _ _ hphase => by cases hphase
  | endGroup id parents t since batches ht hphase hbatches =>
    apply hs.setPhase ht
    intro children rest awaited hfan
    obtain ⟨rfl, -⟩ := Phase.fanningOut.inj hfan
    simp only [fanoutBatches] at hbatches
    split_ifs at hbatches with hdepth
    · exact hdepth
    · cases hbatches
  | spawnChildren id ids t children batches threads ht hphase hthreads =>
    exact hs.spawnChildren ht hphase hthreads
  | joinChildren id t batches awaited ht hphase =>
    apply hs.setPhase ht
    intro children rest awaited' hfan
    obtain ⟨rfl, -⟩ := Phase.fanningOut.inj hfan
    exact hs.fanning t (Table.lookup_eq_some_iff.mp ht).1 children rest awaited hphase
  | endFanout id t ht hphase | finish id t ht =>
    exact hs.setPhase ht fun _ _ _ hphase => by cases hphase

/-! ### Chains -/

/-- A chain of threads, each spawned by the one before it. -/
def SpawnChain (s : Project) (l : List WorkflowThread) : Prop :=
  (∀ t ∈ l, t ∈ s.threads.rows) ∧ l.IsChain fun p t => t.parent_thread_id = some p.id

/-- The later thread knows all hashes of the earlier one, and its own is not among them. -/
def Sees (p t : WorkflowThread) : Prop :=
  p.visited_sha256 ⊆ t.visited_sha256 ∧ ∀ a, t.artifact = some a → a.sha256 ∉ p.visited_sha256

instance : Trans Sees Sees Sees where
  trans hpq hqt := ⟨List.Subset.trans hpq.1 hqt.1, fun a ha hmem => hqt.2 a ha (hpq.1 hmem)⟩

section Reachable

variable {s : Project} (hs : TreeInv s.threads.rows)
include hs

lemma spawnedBy_of_parent {p t : WorkflowThread} (hp : p ∈ s.threads.rows)
    (ht : t ∈ s.threads.rows) (h : t.parent_thread_id = some p.id) : SpawnedBy p t := by
  obtain ⟨q, hq, hid, hspawned⟩ := hs.child t ht p.id h
  have := Table.lookup_of_mem hq
  rw [hid, Table.lookup_of_mem hp] at this
  exact Option.some.inj this ▸ hspawned

lemma isChain_spawnedBy {l : List WorkflowThread} (hl : SpawnChain s l) : l.IsChain SpawnedBy :=
  hl.2.imp_of_mem_imp fun p t hp ht h => spawnedBy_of_parent hs (hl.1 p hp) (hl.1 t ht) h

lemma pairwise_sees {l : List WorkflowThread} (hl : SpawnChain s l) : l.Pairwise Sees := by
  refine List.IsChain.pairwise ((isChain_spawnedBy hs hl).imp fun p t h => ⟨h.visited, ?_⟩)
  obtain ⟨b, hb, hnew⟩ := h.unvisited
  intro a ha
  obtain rfl := Option.some.inj (hb.symm.trans ha)
  exact hnew

lemma depth_le {t : WorkflowThread} (ht : t ∈ s.threads.rows) :
    t.fanout_depth ≤ MAX_FANOUT_DEPTH ∧ (t.parent_thread_id.isSome → 1 ≤ t.fanout_depth) := by
  cases hparent : t.parent_thread_id with
  | none => simp [(hs.root t ht hparent).2]
  | some i =>
    obtain ⟨p, -, -, hspawned⟩ := hs.child t ht i hparent
    have := hspawned.depth
    have := hspawned.depth_lt
    exact ⟨by omega, fun _ => by omega⟩

lemma chain_length_le {l : List WorkflowThread} (hl : SpawnChain s l) :
    l.countP (·.parent_thread_id.isSome) ≤ MAX_FANOUT_DEPTH := by
  have hpairwise : l.Pairwise fun p t => p.fanout_depth < t.fanout_depth := by
    have hchain : (l.map (·.fanout_depth)).IsChain (· < ·) :=
      List.isChain_map _ |>.mpr ((isChain_spawnedBy hs hl).imp fun p t h => by
        rw [h.depth]
        exact Nat.lt_succ_self _)
    exact List.pairwise_map.mp hchain.pairwise
  have hnodup : ((l.filter (·.parent_thread_id.isSome)).map (·.fanout_depth)).Nodup :=
    List.pairwise_map.mpr ((hpairwise.imp fun h => h.ne).sublist List.filter_sublist)
  calc l.countP (·.parent_thread_id.isSome)
      = ((l.filter (·.parent_thread_id.isSome)).map (·.fanout_depth)).toFinset.card := by
        rw [List.toFinset_card_of_nodup hnodup, List.length_map, List.countP_eq_length_filter]
    _ ≤ (Finset.Icc 1 MAX_FANOUT_DEPTH).card := by
        apply Finset.card_le_card
        intro d hd
        simp only [List.mem_toFinset, List.mem_map, List.mem_filter] at hd
        obtain ⟨t, ⟨ht, hchild⟩, rfl⟩ := hd
        exact Finset.mem_Icc.mpr ⟨(depth_le hs (hl.1 t ht)).2 hchild, (depth_le hs (hl.1 t ht)).1⟩
    _ = MAX_FANOUT_DEPTH := by simp

/-! ### The size of the tree -/

/-- The threads at a depth. -/
def level (s : Project) (d : ℕ) : Finset WorkflowThread :=
  s.threads.rows.toFinset.filter fun t => t.fanout_depth = d

lemma card_batch_le (i : Uuid) (e : ℕ) :
    (s.threads.rows.toFinset.filter fun t => t.parent_thread_id = some i ∧ t.event = e).card ≤
      MAX_FANOUT_CHILDREN := by
  refine le_trans ?_ (hs.cap i e)
  rw [List.countP_eq_length_filter]
  refine le_trans (Finset.card_le_card fun t ht => ?_) (List.toFinset_card_le _)
  simpa using ht

/-- A level is as large as the batches that the level above it has spawned. -/
lemma card_level_succ_le {k : ℕ} (hk : ∀ t ∈ s.threads.rows, t.events ≤ k) (d : ℕ) :
    (level s (d + 1)).card ≤ MAX_FANOUT_CHILDREN * ((level s d).card * k) := by
  have hparent {t : WorkflowThread} (ht : t ∈ level s (d + 1)) :
      ∃ p ∈ level s d, t.parent_thread_id = some p.id ∧ t.event < k := by
    obtain ⟨hmem, hd⟩ := Finset.mem_filter.mp ht
    rw [List.mem_toFinset] at hmem
    cases hi : t.parent_thread_id with
    | none => simp [(hs.root t hmem hi).2] at hd
    | some i =>
      obtain ⟨p, hp, rfl, hspawned⟩ := hs.child t hmem i hi
      refine ⟨p, ?_, rfl, hspawned.event_lt.trans_le (hk p hp)⟩
      have := hspawned.depth
      simp only [level, Finset.mem_filter, List.mem_toFinset]
      exact ⟨hp, by omega⟩
  have himage : (level s (d + 1)).image (fun t => (t.parent_thread_id, t.event)) ⊆
      ((level s d).image fun p => some p.id) ×ˢ Finset.range k := by
    intro x hx
    obtain ⟨t, ht, rfl⟩ := Finset.mem_image.mp hx
    obtain ⟨p, hp, heq, hlt⟩ := hparent ht
    exact Finset.mem_product.mpr
      ⟨Finset.mem_image.mpr ⟨p, hp, heq.symm⟩, Finset.mem_range.mpr hlt⟩
  calc (level s (d + 1)).card
      ≤ MAX_FANOUT_CHILDREN *
          ((level s (d + 1)).image fun t => (t.parent_thread_id, t.event)).card := by
        apply Finset.card_le_mul_card_image _ _
        intro x hx
        obtain ⟨⟨i, e⟩, rfl⟩ : ∃ ie : Uuid × ℕ, x = (some ie.1, ie.2) := by
          obtain ⟨t, ht, rfl⟩ := Finset.mem_image.mp hx
          obtain ⟨p, -, heq, -⟩ := hparent ht
          exact ⟨(p.id, t.event), by rw [heq]⟩
        refine le_trans (Finset.card_le_card fun t ht => ?_) (card_batch_le hs i e)
        simp only [level, Finset.mem_filter, Prod.mk.injEq] at ht ⊢
        exact ⟨ht.1.1, ht.2⟩
    _ ≤ MAX_FANOUT_CHILDREN * ((level s d).card * k) := by
        refine Nat.mul_le_mul_left _ ((Finset.card_le_card himage).trans ?_)
        rw [Finset.card_product, Finset.card_range]
        exact Nat.mul_le_mul_right _ Finset.card_image_le

lemma card_level_le {k : ℕ} (hk : ∀ t ∈ s.threads.rows, t.events ≤ k) (d : ℕ) :
    (level s d).card ≤ (level s 0).card * (MAX_FANOUT_CHILDREN * k) ^ d := by
  induction d with
  | zero => simp
  | succ d ih =>
    calc (level s (d + 1)).card
        ≤ MAX_FANOUT_CHILDREN * ((level s d).card * k) := card_level_succ_le hs hk d
      _ = (level s d).card * (MAX_FANOUT_CHILDREN * k) := by
          rw [Nat.mul_left_comm]
      _ ≤ (level s 0).card * (MAX_FANOUT_CHILDREN * k) ^ d * (MAX_FANOUT_CHILDREN * k) :=
          Nat.mul_le_mul_right _ ih
      _ = (level s 0).card * (MAX_FANOUT_CHILDREN * k) ^ (d + 1) := by
          rw [Nat.mul_assoc, ← Nat.pow_succ]

lemma card_threads_le {k : ℕ} (hk : ∀ t ∈ s.threads.rows, t.events ≤ k) :
    s.threads.rows.length ≤ ∑ d ∈ Finset.range (MAX_FANOUT_DEPTH + 1),
      (level s 0).card * (MAX_FANOUT_CHILDREN * k) ^ d := by
  have hnodup : s.threads.rows.Nodup := s.threads.nodup.of_map
  rw [← List.toFinset_card_of_nodup hnodup,
    Finset.card_eq_sum_card_fiberwise (f := fun t : WorkflowThread => t.fanout_depth)
      (t := Finset.range (MAX_FANOUT_DEPTH + 1))]
  · exact Finset.sum_le_sum fun d _ => card_level_le hs hk d
  · intro t ht
    have := (depth_le hs (List.mem_toFinset.mp (Finset.mem_coe.mp ht))).1
    simpa using Nat.lt_succ_of_le this

end Reachable

/-! ### Well-founded fan-out -/

/-- The bounds of the fan-out. The threads of a batch have the same parent and the same event. -/
structure WellFoundedFanout (s : Project) : Prop where
  /-- Along a chain, the hash of an ancestor, or of a thread of its batch, does not come back. -/
  distinct : ∀ l, SpawnChain s l → l.Pairwise fun p t => ∀ u ∈ s.threads.rows,
    u.parent_thread_id = p.parent_thread_id → u.event = p.event →
      ∀ a b, u.artifact = some a → t.artifact = some b → a.sha256 ≠ b.sha256
  depth : ∀ l, SpawnChain s l → l.countP (·.parent_thread_id.isSome) ≤ MAX_FANOUT_DEPTH
  children : ∀ i e, (s.threads.rows.countP fun t => t.parent_thread_id = some i ∧ t.event = e) ≤
    MAX_FANOUT_CHILDREN
  /-- The tree is finite as long as the workflows make finitely many fan-outs. -/
  finite : ∀ k, (∀ t ∈ s.threads.rows, t.events ≤ k) →
    s.threads.rows.length ≤ ∑ d ∈ Finset.range (MAX_FANOUT_DEPTH + 1),
      (level s 0).card * (MAX_FANOUT_CHILDREN * k) ^ d

lemma distinct_of_treeInv {s : Project} (hs : TreeInv s.threads.rows) {l : List WorkflowThread}
    (hl : SpawnChain s l) : l.Pairwise fun p t => ∀ u ∈ s.threads.rows,
      u.parent_thread_id = p.parent_thread_id → u.event = p.event →
        ∀ a b, u.artifact = some a → t.artifact = some b → a.sha256 ≠ b.sha256 := by
  refine (pairwise_sees hs hl).imp_of_mem ?_
  intro p t hp _ hsees u hu hparent hevent a b ha hb heq
  cases hroot : p.parent_thread_id with
  | none =>
    -- a root was not created for an artifact
    rw [(hs.root u hu (hparent.trans hroot)).1] at ha
    cases ha
  | some i =>
    have := hs.batch p (hl.1 p hp) u hu (by simp [hroot]) hparent hevent a ha
    exact hsees.2 b hb (heq ▸ this)

/-- In every state that the workflows of a project reach, whatever artifacts their tools create,
the tree of child threads is bounded. -/
theorem wellFoundedFanout_of_exec (actions : List FanoutAction) (s : Project)
    (h : exec Project.step .init actions = some s) : WellFoundedFanout s := by
  have hs : TreeInv s.threads.rows :=
    exec_preserves (I := fun s => TreeInv s.threads.rows) (fun _ _ _ => treeInv_step)
      treeInv_init h
  exact ⟨fun l hl => distinct_of_treeInv hs hl, fun l hl => chain_length_le hs hl, hs.cap,
    fun k hk => card_threads_le hs hk⟩

/-! ### What does not hold -/

/-- The stronger claim that a hash does not come back that was spawned for any thread which an
ancestor had spawned before. -/
def SiblingsDistinct (s : Project) : Prop :=
  ∀ l, SpawnChain s l → l.Pairwise fun p t => ∀ u, [u, p].Sublist s.threads.rows →
    u.parent_thread_id = p.parent_thread_id →
      ∀ a b, u.artifact = some a → t.artifact = some b → a.sha256 ≠ b.sha256

/-- The stronger claim that the cap is one on the children of a parent artifact. -/
def CapPerParent (s : Project) : Prop :=
  ∀ parent, (s.threads.rows.countP fun t =>
    (t.artifact.bind (·.fan_out_from)) = some parent) ≤ MAX_FANOUT_CHILDREN

/-- Two archives with one file each are fanned out one after the other; the file of the second
one contains the file of the first one. -/
def reusedHash : List FanoutAction :=
  [.startWorkflow 0, .startGroup 0, .createArtifact 1 "a" (some "zip1"),
   .createArtifact 2 "b" (some "zip2"), .endGroup 0 (some ["zip1", "zip2"]),
   .spawnChildren 0 [some 10], .finish 10, .joinChildren 0, .spawnChildren 0 [some 11], .tick 1,
   .startGroup 11, .createArtifact 3 "a" (some "2"), .endGroup 11 (some ["2"]),
   .spawnChildren 11 [some 20]]

/-- Fifty files of an archive are fanned out in one group and one more in the next. -/
def secondGroup : List FanoutAction :=
  let ids := List.range MAX_FANOUT_CHILDREN
  [.startWorkflow 0, .startGroup 0] ++
    ids.map (fun i => .createArtifact i (toString i) (some "zip")) ++
  [.endGroup 0 (some ["zip"]), .spawnChildren 0 (ids.map fun i => some (100 + i))] ++
    ids.map (fun i => .finish (100 + i)) ++
  [.joinChildren 0, .endFanout 0, .tick 1, .startGroup 0, .createArtifact 50 "50" (some "zip"),
   .endGroup 0 (some ["zip"]), .spawnChildren 0 [some 200]]

def reusedHashEnd : Project := (exec Project.step .init reusedHash).get (by decide)

theorem wellFoundedFanout_reusedHash : WellFoundedFanout reusedHashEnd :=
  wellFoundedFanout_of_exec reusedHash reusedHashEnd (Option.some_get _).symm

def secondGroupEnd : Project := (exec Project.step .init secondGroup).get (by decide +kernel)

/-- A hash comes back below a sibling of another batch, and a parent artifact gets more children
than the cap over two groups. -/
theorem not_siblingsDistinct_not_capPerParent :
    (exec Project.step .init reusedHash = some reusedHashEnd ∧ ¬ SiblingsDistinct reusedHashEnd) ∧
      exec Project.step .init secondGroup = some secondGroupEnd ∧
        ¬ CapPerParent secondGroupEnd := by
  refine ⟨⟨(Option.some_get _).symm, ?_⟩, (Option.some_get _).symm, ?_⟩
  · intro h
    obtain ⟨root, u, p, t, hrows, hparent, hsibling, hu, ht⟩ : ∃ root u p t,
        reusedHashEnd.threads.rows = [root, u, p, t] ∧ t.parent_thread_id = some p.id ∧
          u.parent_thread_id = p.parent_thread_id ∧
          u.artifact.map (·.sha256) = some "a" ∧ t.artifact.map (·.sha256) = some "a" :=
      ⟨_, _, _, _, rfl, by decide⟩
    have hchain : SpawnChain reusedHashEnd [p, t] := by
      simp [SpawnChain, hrows, hparent]
    obtain ⟨a, ha, hasha⟩ := Option.map_eq_some_iff.mp hu
    obtain ⟨b, hb, hbsha⟩ := Option.map_eq_some_iff.mp ht
    have hpair := List.rel_of_pairwise_cons (h _ hchain) (List.mem_singleton_self t)
    refine hpair u ?_ hsibling a b ha hb (hasha.trans hbsha.symm)
    rw [hrows]
    exact (List.sublist_append_left [u, p] [t]).cons root
  · intro h
    exact absurd (h "zip") (by decide +kernel)

end Arbeiterfarm.Orchestrator
