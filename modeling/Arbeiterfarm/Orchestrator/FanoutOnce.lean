import Arbeiterfarm.Orchestrator.Fanout
import Mathlib.Algebra.Order.BigOperators.Group.List
import Mathlib.Data.List.Dedup

/-!
# One child thread per artifact

A workflow claims an artifact when it watches it (the artifact was created in the current group
of the workflow), when it is about to fan it out, and when it was created for it. As long as no
artifact is claimed by two workflows when it is created, or when a group starts, it gets at most
one child thread. The workflows of a project do not know of each other, so nothing ensures this.
-/

namespace Arbeiterfarm.Orchestrator

open Foundation

/-! ### Claims -/

/-- The query at the end of the group will select the artifact. -/
def Watches (t : WorkflowThread) (a : ArtifactRow) : Prop :=
  match t.phase with
  | .running group_start_time =>
    t.fanout_depth < MAX_FANOUT_DEPTH ∧ group_start_time ≤ a.created_at ∧
      a.fan_out_from.isSome ∧ a.sha256 ∉ t.visited_sha256
  | _ => False

instance (t : WorkflowThread) (a : ArtifactRow) : Decidable (Watches t a) := by
  simp only [Watches]
  cases t.phase <;> infer_instance

/-- How often the artifact is among the children that are still to be fanned out. -/
def pendingCount (t : WorkflowThread) (a : ArtifactRow) : ℕ :=
  match t.phase with
  | .fanningOut batches _ => if a.sha256 ∈ t.visited_sha256 then 0 else batches.flatten.count a
  | _ => 0

def claims (t : WorkflowThread) (a : ArtifactRow) : ℕ :=
  (if t.artifact = some a then 1 else 0) + pendingCount t a + if Watches t a then 1 else 0

def claimCount (s : Project) (a : ArtifactRow) : ℕ := (s.threads.rows.map (claims · a)).sum

/-- The number of child threads of the artifact. -/
def childCount (s : Project) (a : ArtifactRow) : ℕ :=
  s.threads.rows.countP fun t => t.artifact = some a

lemma childCount_le_claimCount (s : Project) (a : ArtifactRow) :
    childCount s a ≤ claimCount s a := by
  simp only [childCount, claimCount]
  induction s.threads.rows with
  | nil => simp
  | cons t rows ih =>
    have hle : (if decide (t.artifact = some a) then 1 else 0) ≤ claims t a := by
      simp only [claims, decide_eq_true_eq]
      omega
    rw [List.countP_cons, List.map_cons, List.sum_cons]
    omega

lemma pendingCount_fanningOut {t : WorkflowThread} {batches : List (List ArtifactRow)}
    {awaited : List Uuid} (h : t.phase = .fanningOut batches awaited) (a : ArtifactRow) :
    pendingCount t a =
      if a.sha256 ∈ t.visited_sha256 then 0 else batches.flatten.count a := by
  simp [pendingCount, h]

lemma pendingCount_le_count {t : WorkflowThread} {batches : List (List ArtifactRow)}
    {awaited : List Uuid} (h : t.phase = .fanningOut batches awaited) (a : ArtifactRow) :
    pendingCount t a ≤ batches.flatten.count a := by
  rw [pendingCount_fanningOut h]
  split_ifs
  · exact Nat.zero_le _
  · exact le_rfl

lemma not_watches {t : WorkflowThread} {a : ArtifactRow}
    (h : ∀ since, t.phase ≠ .running since) : ¬ Watches t a := by
  unfold Watches
  split
  · rename_i since hphase
    exact absurd hphase (h since)
  · exact not_false

lemma claims_of_idle {t : WorkflowThread} (h : t.phase = .idle) (a : ArtifactRow) :
    claims t a = if t.artifact = some a then 1 else 0 := by
  simp [claims, pendingCount, Watches, h]

lemma claims_eq_of_setPhase {t : WorkflowThread} {phase : Phase} {a : ArtifactRow} :
    claims (setPhase phase t) a = (if t.artifact = some a then 1 else 0) +
      pendingCount (setPhase phase t) a + if Watches (setPhase phase t) a then 1 else 0 := rfl

lemma claims_eq_of_setSpawned {t : WorkflowThread} {batches : List (List ArtifactRow)}
    {awaited : List Uuid} {a : ArtifactRow} :
    claims (setSpawned batches awaited t) a = (if t.artifact = some a then 1 else 0) +
      pendingCount (setSpawned batches awaited t) a +
        if Watches (setSpawned batches awaited t) a then 1 else 0 := rfl

lemma claimCount_setPhase {s : Project} {id : Uuid} {t : WorkflowThread} (phase : Phase)
    (ht : s.threads.lookup id = some t) (a : ArtifactRow) :
    claimCount (s.setPhase id phase) a + claims t a =
      claimCount s a + claims (setPhase phase t) a :=
  Table.sum_update_key (claims · a) _ (id_setPhase phase) ht

/-! ### What the fan-out selects -/

lemma nodup_rows (artifacts : Table ArtifactRow.id) : artifacts.rows.Nodup :=
  artifacts.nodup.of_map

lemma count_byParent_le {artifacts : List ArtifactRow} (hnodup : artifacts.Nodup)
    {parents : List String} {batches : List (List ArtifactRow)}
    (h : byParent artifacts parents = some batches) (a : ArtifactRow) :
    batches.flatten.count a ≤ if a ∈ artifacts then 1 else 0 := by
  simp only [byParent] at h
  split_ifs at h with hperm
  obtain rfl := Option.some.inj h
  have hparents : parents.Nodup := hperm.nodup_iff.mpr (List.nodup_dedup _)
  have hflat : (parents.map fun parent =>
      artifacts.filter fun a => a.fan_out_from = some parent).flatten.Nodup := by
    refine List.nodup_flatten.mpr ⟨fun l hl => ?_, ?_⟩
    · obtain ⟨parent, -, rfl⟩ := List.mem_map.mp hl
      exact hnodup.filter _
    · refine List.pairwise_map.mpr (hparents.imp fun hne => ?_)
      intro a ha hb
      simp only [List.mem_filter, decide_eq_true_eq] at ha hb
      exact hne (Option.some.inj (ha.2.symm.trans hb.2))
  split_ifs with hmem
  · exact List.nodup_iff_count_le_one.mp hflat a
  · refine (List.count_eq_zero.mpr fun hin => hmem ?_).le
    obtain ⟨l, hl, hal⟩ := List.mem_flatten.mp hin
    obtain ⟨parent, -, rfl⟩ := List.mem_map.mp hl
    exact List.mem_of_mem_filter hal

lemma mem_findFanoutArtifactsSince {since : ℕ} {artifacts : Table ArtifactRow.id}
    {a : ArtifactRow} : a ∈ findFanoutArtifactsSince since artifacts ↔
      a ∈ artifacts.rows ∧ since ≤ a.created_at ∧ a.fan_out_from.isSome := by
  simp [findFanoutArtifactsSince]

/-- The fan-out selects an artifact at most once, and only one that was watched. -/
lemma count_fanoutBatches_le {t : WorkflowThread} {since : ℕ} {artifacts : Table ArtifactRow.id}
    {parents : Option (List String)} {batches : List (List ArtifactRow)}
    (h : fanoutBatches t since artifacts parents = some batches) (a : ArtifactRow) :
    batches.flatten.count a ≤
      if t.fanout_depth < MAX_FANOUT_DEPTH ∧ a ∈ findFanoutArtifactsSince since artifacts then 1
      else 0 := by
  simp only [fanoutBatches] at h
  split_ifs at h with hdepth
  · cases parents with
    | some parents =>
      have := count_byParent_le ((nodup_rows artifacts).filter _) h a
      simpa [hdepth, findFanoutArtifactsSince] using this
    | none =>
      obtain rfl := Option.some.inj h
      simp
  · obtain rfl := Option.some.inj h
    simp

lemma pendingCount_endGroup_le {s : Project} {t : WorkflowThread} {since : ℕ}
    {parents : Option (List String)} {batches : List (List ArtifactRow)}
    (hphase : t.phase = .running since)
    (h : fanoutBatches t since s.artifacts parents = some batches) (a : ArtifactRow) :
    pendingCount (setPhase (.fanningOut batches []) t) a ≤ if Watches t a then 1 else 0 := by
  rw [pendingCount_fanningOut (t := setPhase (.fanningOut batches []) t) rfl]
  change (if a.sha256 ∈ t.visited_sha256 then 0 else batches.flatten.count a) ≤ _
  by_cases hvisited : a.sha256 ∈ t.visited_sha256
  · simp [hvisited]
  · rw [if_neg hvisited]
    refine (count_fanoutBatches_le h a).trans ?_
    split_ifs with hmem hwatch hwatch
    · exact le_rfl
    · obtain ⟨-, hsince, hfrom⟩ := mem_findFanoutArtifactsSince.mp hmem.2
      exact absurd (by simpa [Watches, hphase] using ⟨hmem.1, hsince, hfrom, hvisited⟩) hwatch
    · exact Nat.zero_le _
    · exact le_rfl

/-! ### What a fan-out spawns -/

lemma artifact_childThreads_sublist (t : WorkflowThread) (children : List ArtifactRow)
    (ids : List (Option Uuid)) :
    ((childThreads t children ids).filterMap (·.artifact)).Sublist (unvisited t children) := by
  simp only [childThreads]
  generalize unvisited t children = artifacts
  induction artifacts generalizing ids with
  | nil => simp
  | cons a artifacts ih =>
    cases ids with
    | nil => simp
    | cons id ids =>
      cases id with
      | none => simpa using (ih ids).cons a
      | some id => simpa using ih ids

lemma count_unvisited_le (t : WorkflowThread) (children : List ArtifactRow) (a : ArtifactRow) :
    (unvisited t children).count a ≤
      if a.sha256 ∈ t.visited_sha256 then 0 else children.count a := by
  split_ifs with hvisited
  · refine (List.count_eq_zero.mpr fun hmem => ?_).le
    simpa [hvisited] using (List.mem_filter.mp hmem).2
  · exact (List.filter_sublist.trans (List.take_sublist _ _)).count_le a

lemma sum_claims_childThreads_le (t : WorkflowThread) (children : List ArtifactRow)
    (ids : List (Option Uuid)) (a : ArtifactRow) :
    ((childThreads t children ids).map (claims · a)).sum ≤
      if a.sha256 ∈ t.visited_sha256 then 0 else children.count a := by
  refine le_trans ?_ (((artifact_childThreads_sublist t children ids).count_le a).trans
    (count_unvisited_le t children a))
  have hidle : ∀ u ∈ childThreads t children ids, u.phase = .idle ∧ u.artifact.isSome := by
    intro u hu
    obtain ⟨b, -, -, hb, -, -, -, -, hphase⟩ := mem_childThreads hu
    exact ⟨hphase, by simp [hb]⟩
  generalize childThreads t children ids = threads at hidle
  induction threads with
  | nil => simp
  | cons u threads ih =>
    obtain ⟨⟨hphase, hsome⟩, hidle⟩ := List.forall_mem_cons.mp hidle
    obtain ⟨b, hb⟩ := Option.isSome_iff_exists.mp hsome
    have := ih hidle
    rw [List.map_cons, List.sum_cons, claims_of_idle hphase, List.filterMap_cons, hb]
    simp only [Option.some.injEq, List.count_cons, beq_iff_eq]
    omega

/-- An artifact that no workflow has selected is claimed by those that watch it. -/
lemma sum_claims_eq_countP {rows : List WorkflowThread} {a : ArtifactRow}
    (h : ∀ t ∈ rows, t.artifact ≠ some a ∧ pendingCount t a = 0) :
    (rows.map (claims · a)).sum = rows.countP fun t => Watches t a := by
  induction rows with
  | nil => rfl
  | cons t rows ih =>
    obtain ⟨⟨hartifact, hpending⟩, hrows⟩ := List.forall_mem_cons.mp h
    rw [List.map_cons, List.sum_cons, ih hrows, List.countP_cons, claims, if_neg hartifact,
      hpending]
    simp only [decide_eq_true_eq]
    omega

/-! ### The invariant -/

/-- The step gives no artifact a second workflow that claims it: a new artifact is watched by at
most one workflow, and a group that starts watches no artifact that is claimed already. -/
def Exclusive (s : Project) : FanoutAction → Prop
  | .createArtifact id sha256 fan_out_from =>
    (s.threads.rows.countP fun t => Watches t ⟨id, sha256, fan_out_from, s.now⟩) ≤ 1
  | .startGroup id =>
    ∀ t ∈ s.threads.rows, t.id = id → ∀ a ∈ s.artifacts.rows,
      Watches (setPhase (.running s.now) t) a → claimCount s a = 0
  | _ => True

instance (s : Project) (a : FanoutAction) : Decidable (Exclusive s a) := by
  cases a <;> unfold Exclusive <;> infer_instance

structure ClaimInv (s : Project) : Prop where
  once : ∀ a ∈ s.artifacts.rows, claimCount s a ≤ 1
  artifact_mem : ∀ t ∈ s.threads.rows, ∀ a, t.artifact = some a → a ∈ s.artifacts.rows
  pending_mem : ∀ t ∈ s.threads.rows, ∀ a, 0 < pendingCount t a → a ∈ s.artifacts.rows

lemma claimInv_init : ClaimInv .init := by
  constructor <;> simp [Project.init, Table.empty]

lemma mem_setPhase {s : Project} {id : Uuid} {t u : WorkflowThread} {phase : Phase}
    (ht : s.threads.lookup id = some t) (hu : u ∈ (s.setPhase id phase).threads.rows) :
    u ∈ s.threads.rows ∨ u = setPhase phase t := by
  obtain ⟨l, m, hrows, hupdate⟩ := Table.rows_update_key _ (id_setPhase phase) ht
  rw [show (s.setPhase id phase).threads.rows = l ++ setPhase phase t :: m from hupdate] at hu
  rw [hrows]
  simp only [List.mem_append, List.mem_cons] at hu ⊢
  tauto

/-- Changing the phase of a thread keeps the invariant when the thread does not claim more. -/
lemma ClaimInv.setPhase {s : Project} (hs : ClaimInv s) {id : Uuid} {t : WorkflowThread}
    {phase : Phase} (ht : s.threads.lookup id = some t)
    (honce : ∀ a ∈ s.artifacts.rows, claimCount (s.setPhase id phase) a ≤ 1)
    (hpending : ∀ a, 0 < pendingCount (Orchestrator.setPhase phase t) a →
      a ∈ s.artifacts.rows) : ClaimInv (s.setPhase id phase) := by
  have htmem := (Table.lookup_eq_some_iff.mp ht).1
  refine ⟨honce, ?_, ?_⟩
  · intro u hu a ha
    rcases mem_setPhase ht hu with hu | rfl
    · exact hs.artifact_mem u hu a ha
    · exact hs.artifact_mem t htmem a ha
  · intro u hu a ha
    rcases mem_setPhase ht hu with hu | rfl
    · exact hs.pending_mem u hu a ha
    · exact hpending a ha

lemma ClaimInv.setPhase_of_le {s : Project} (hs : ClaimInv s) {id : Uuid} {t : WorkflowThread}
    {phase : Phase} (ht : s.threads.lookup id = some t)
    (hle : ∀ a, claims (Orchestrator.setPhase phase t) a ≤ claims t a)
    (hpending : ∀ a, 0 < pendingCount (Orchestrator.setPhase phase t) a →
      a ∈ s.artifacts.rows) : ClaimInv (s.setPhase id phase) := by
  refine hs.setPhase ht (fun a ha => ?_) hpending
  have := claimCount_setPhase phase ht a
  have := hle a
  have := hs.once a ha
  omega

/-- A fan-out turns pending claims into child threads. -/
lemma ClaimInv.spawnChildren {s : Project} (hs : ClaimInv s) {id : Uuid} {t : WorkflowThread}
    {ids : List (Option Uuid)} {children : List ArtifactRow} {batches : List (List ArtifactRow)}
    {threads : Table WorkflowThread.id} (ht : s.threads.lookup id = some t)
    (hphase : t.phase = .fanningOut (children :: batches) [])
    (h : (s.threads.update (fun t => t.id = id) (setSpawned batches ids.reduceOption)
      (id_setSpawned _ _)).insertAll (childThreads t children ids) = some threads) :
    ClaimInv { s with threads := threads } := by
  have htmem := (Table.lookup_eq_some_iff.mp ht).1
  have hrows := Table.rows_insertAll h
  have hpending (a : ArtifactRow) : pendingCount t a =
      (if a.sha256 ∈ t.visited_sha256 then 0 else children.count a) +
        pendingCount (setSpawned batches ids.reduceOption t) a := by
    rw [pendingCount_fanningOut hphase, pendingCount_fanningOut
      (t := setSpawned batches ids.reduceOption t) rfl, List.flatten_cons, List.count_append]
    change _ = _ + if a.sha256 ∈ t.visited_sha256 then 0 else batches.flatten.count a
    split_ifs <;> rfl
  have hmem {u : WorkflowThread} (hu : u ∈ threads.rows) : u ∈ s.threads.rows ∨
      u = setSpawned batches ids.reduceOption t ∨ u ∈ childThreads t children ids := by
    obtain ⟨l, m, hold, hupdate⟩ := Table.rows_update_key (setSpawned batches ids.reduceOption)
      (id_setSpawned _ _) ht
    rw [hrows, hupdate] at hu
    rw [hold]
    simp only [List.mem_append, List.mem_cons] at hu ⊢
    tauto
  refine ⟨?_, ?_, ?_⟩
  · intro a ha
    have hsum := Table.sum_update_key (claims · a) (setSpawned batches ids.reduceOption)
      (id_setSpawned _ _) ht
    have hnew := sum_claims_childThreads_le t children ids a
    have hold := hs.once a ha
    have hclaims : claims t a = claims (setSpawned batches ids.reduceOption t) a +
        if a.sha256 ∈ t.visited_sha256 then 0 else children.count a := by
      rw [claims_eq_of_setSpawned, claims, hpending a, if_neg (not_watches (by simp [hphase])),
        if_neg (not_watches (by simp [setSpawned]))]
      omega
    simp only [claimCount] at hold ⊢
    rw [hrows, List.map_append, List.sum_append]
    omega
  · intro u hu a ha
    rcases hmem hu with hu | rfl | hu
    · exact hs.artifact_mem u hu a ha
    · exact hs.artifact_mem t htmem a ha
    · obtain ⟨b, hb, -, hartifact, -⟩ := mem_childThreads hu
      obtain rfl := Option.some.inj (hartifact.symm.trans ha)
      refine hs.pending_mem t htmem b ?_
      have hcount := (List.count_pos_iff.mpr hb).trans_le (count_unvisited_le t children b)
      rw [hpending]
      omega
  · intro u hu a ha
    rcases hmem hu with hu | rfl | hu
    · exact hs.pending_mem u hu a ha
    · refine hs.pending_mem t htmem a ?_
      rw [hpending]
      omega
    · obtain ⟨b, -, -, -, -, -, -, -, hidle⟩ := mem_childThreads hu
      simp [pendingCount, hidle] at ha

lemma ClaimInv.startWorkflow {s : Project} (hs : ClaimInv s) {id : Uuid}
    {threads : Table WorkflowThread.id}
    (hthreads : s.threads.insert (rootThread id) = some threads) :
    ClaimInv { s with threads := threads } := by
  have hrows := Table.rows_insert hthreads
  refine ⟨?_, ?_, ?_⟩
  · intro a ha
    have := hs.once a ha
    simpa [claimCount, hrows, claims, rootThread, pendingCount, Watches] using this
  · intro t ht a ha
    rw [hrows, List.mem_append, List.mem_singleton] at ht
    rcases ht with ht | rfl
    · exact hs.artifact_mem t ht a ha
    · cases ha
  · intro t ht a ha
    rw [hrows, List.mem_append, List.mem_singleton] at ht
    rcases ht with ht | rfl
    · exact hs.pending_mem t ht a ha
    · simp [pendingCount, rootThread] at ha

/-- Nobody can know the new artifact, so only the workflows that watch it claim it. -/
lemma ClaimInv.createArtifact {s : Project} (hs : ClaimInv s) {id : Uuid} {sha256 : String}
    {fan_out_from : Option String} {artifacts : Table ArtifactRow.id}
    (hC : Exclusive s (.createArtifact id sha256 fan_out_from))
    (hartifacts : s.artifacts.insert ⟨id, sha256, fan_out_from, s.now⟩ = some artifacts) :
    ClaimInv { s with artifacts := artifacts } := by
  have hrows := Table.rows_insert hartifacts
  have hfresh : (⟨id, sha256, fan_out_from, s.now⟩ : ArtifactRow) ∉ s.artifacts.rows := by
    intro hmem
    have := Table.lookup_eq_none_of_insert hartifacts
    rw [Table.lookup_of_mem hmem] at this
    cases this
  refine ⟨?_, ?_, ?_⟩
  · intro a ha
    rw [hrows, List.mem_append, List.mem_singleton] at ha
    rcases ha with ha | rfl
    · exact hs.once a ha
    · refine (sum_claims_eq_countP fun t ht => ⟨fun hsome => ?_, ?_⟩).trans_le hC
      · exact hfresh (hs.artifact_mem t ht _ hsome)
      · by_contra hne
        exact hfresh (hs.pending_mem t ht _ (Nat.pos_of_ne_zero hne))
  · intro t ht a ha
    rw [hrows]
    exact List.mem_append_left _ (hs.artifact_mem t ht a ha)
  · intro t ht a ha
    rw [hrows]
    exact List.mem_append_left _ (hs.pending_mem t ht a ha)

/-- A group that starts watches only what nobody has claimed. -/
lemma ClaimInv.startGroup {s : Project} (hs : ClaimInv s) {id : Uuid} {t : WorkflowThread}
    (hC : Exclusive s (.startGroup id)) (ht : s.threads.lookup id = some t)
    (hphase : t.phase = .idle) : ClaimInv (s.setPhase id (.running s.now)) := by
  have htmem := Table.lookup_eq_some_iff.mp ht
  have hpending (a : ArtifactRow) :
      pendingCount (Orchestrator.setPhase (.running s.now) t) a = 0 := rfl
  refine hs.setPhase ht (fun a ha => ?_) fun a ha => absurd ha (by simp [hpending])
  have hcount := claimCount_setPhase (.running s.now) ht a
  rw [claims_of_idle hphase, claims_eq_of_setPhase, hpending] at hcount
  have := hs.once a ha
  split_ifs at hcount with _ hwatch hwatch
  · have := hC t htmem.1 htmem.2 a ha hwatch
    omega
  · omega
  · have := hC t htmem.1 htmem.2 a ha hwatch
    omega
  · omega

/-- What is to be spawned at the end of a group was watched during it. -/
lemma ClaimInv.endGroup {s : Project} (hs : ClaimInv s) {id : Uuid} {t : WorkflowThread}
    {since : ℕ} {parents : Option (List String)} {batches : List (List ArtifactRow)}
    (ht : s.threads.lookup id = some t) (hphase : t.phase = .running since)
    (hbatches : fanoutBatches t since s.artifacts parents = some batches) :
    ClaimInv (s.setPhase id (.fanningOut batches [])) := by
  have hle := pendingCount_endGroup_le hphase hbatches
  refine hs.setPhase_of_le ht (fun a => ?_) fun a ha => ?_
  · have := hle a
    rw [claims_eq_of_setPhase, if_neg (not_watches (by simp [Orchestrator.setPhase])), claims]
    omega
  · have hcount := (ha.trans_le (pendingCount_le_count rfl a)).trans_le
      (count_fanoutBatches_le hbatches a)
    split_ifs at hcount with hmem
    · exact (mem_findFanoutArtifactsSince.mp hmem.2).1
    · exact absurd hcount (lt_irrefl 0)

lemma claimInv_step {s u : Project} {action : FanoutAction} (hs : ClaimInv s)
    (hC : Exclusive s action) (h : s.step action = some u) : ClaimInv u := by
  cases FanoutRule.of_step h with
  | tick d => exact ⟨hs.once, hs.artifact_mem, hs.pending_mem⟩
  | startWorkflow id threads hthreads => exact hs.startWorkflow hthreads
  | createArtifact id sha256 fan_out_from artifacts hartifacts =>
    exact hs.createArtifact hC hartifacts
  | startGroup id t ht hphase => exact hs.startGroup hC ht hphase
  | endGroup id parents t since batches ht hphase hbatches =>
    exact hs.endGroup ht hphase hbatches
  | spawnChildren id ids t children batches threads ht hphase hthreads =>
    exact hs.spawnChildren ht hphase hthreads
  | joinChildren id t batches awaited ht hphase =>
    have hpending (a : ArtifactRow) :
        pendingCount (setPhase (.fanningOut batches []) t) a = pendingCount t a :=
      (pendingCount_fanningOut rfl a).trans (pendingCount_fanningOut hphase a).symm
    refine hs.setPhase_of_le ht (fun a => ?_) fun a ha => ?_
    · rw [claims_eq_of_setPhase, if_neg (not_watches (by simp [setPhase])), claims, hpending]
      omega
    · exact hs.pending_mem t (Table.lookup_eq_some_iff.mp ht).1 a (hpending a ▸ ha)
  | endFanout id t ht hphase =>
    refine hs.setPhase_of_le ht (fun a => ?_) fun a ha =>
      absurd ha (by simp [pendingCount, setPhase])
    rw [claims_of_idle (t := setPhase .idle t) rfl, claims]
    exact (Nat.le_add_right _ _).trans (Nat.le_add_right _ _)
  | finish id t ht =>
    refine hs.setPhase_of_le ht (fun a => ?_) fun a ha =>
      absurd ha (by simp [pendingCount, setPhase])
    rw [claims_eq_of_setPhase, if_neg (not_watches (by simp [setPhase])), claims]
    simp only [pendingCount, setPhase]
    omega

/-- In every run in which no artifact is claimed by two workflows, each artifact has at most one
child thread. -/
theorem childCount_le_one (actions : List FanoutAction) (s : Project)
    (h : exec Project.step .init actions = some s)
    (hC : Along Project.step Exclusive .init actions) (a : ArtifactRow)
    (ha : a ∈ s.artifacts.rows) : childCount s a ≤ 1 :=
  (childCount_le_claimCount s a).trans
    ((exec_invariant (fun _ _ _ => claimInv_step) claimInv_init hC h).once a ha)

/-! ### Siblings that see each other's artifacts -/

/-- A workflow extracts two files, and each of them is analysed in a child thread. -/
def twoChildren : List FanoutAction :=
  [.startWorkflow 0, .startGroup 0, .createArtifact 1 "a" (some "zip"),
   .createArtifact 2 "b" (some "zip"), .endGroup 0 (some ["zip"]),
   .spawnChildren 0 [some 10, some 11], .tick 1]

/-- The children run at the same time; a tool of the first one extracts a file, and both find it
at the end of their group. -/
def siblingsOverlap : List FanoutAction :=
  twoChildren ++ [.startGroup 10, .startGroup 11, .createArtifact 3 "c" (some "1"),
    .endGroup 10 (some ["1"]), .spawnChildren 10 [some 20], .endGroup 11 (some ["1"]),
    .spawnChildren 11 [some 21]]

/-- The second child starts its group later. -/
def siblingsInTurn : List FanoutAction :=
  twoChildren ++ [.startGroup 10, .createArtifact 3 "c" (some "1"), .endGroup 10 (some ["1"]),
    .spawnChildren 10 [some 20], .tick 1, .startGroup 11, .endGroup 11 (some [])]

def nested : ArtifactRow := ⟨3, "c", some "1", 1⟩

def siblingsInTurnEnd : Project :=
  (exec Project.step .init siblingsInTurn).get (by decide)

theorem childCount_le_one_siblingsInTurn : childCount siblingsInTurnEnd nested ≤ 1 :=
  childCount_le_one siblingsInTurn siblingsInTurnEnd (Option.some_get _).symm (by decide) nested
    (by decide)

/-- A file that one child extracts gets a child thread from its sibling as well. -/
theorem not_childCount_le_one_siblingsOverlap :
    ¬ ∀ actions s, exec Project.step .init actions = some s →
      ∀ a ∈ s.artifacts.rows, childCount s a ≤ 1 := by
  intro h
  have hone := h siblingsOverlap ((exec Project.step .init siblingsOverlap).get (by decide))
    (Option.some_get _).symm nested (by decide)
  exact absurd hone (by decide)

end Arbeiterfarm.Orchestrator
