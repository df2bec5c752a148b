import Arbeiterfarm.Jobs.OopRoundTrip

/-!
# What a tool leaves behind

Whatever the program answers and leaves behind, the worker stores only files from below the scratch
directory, and rows only for them. A file that lies there without links is not lost.
-/

namespace Arbeiterfarm.Jobs.Oop

open Foundation Tools.Unpack

variable {libs : TextLibs} {sha256 : List UInt8 → String} {l : Launchers} {fs : Files}
  {answers : ℕ → Answer} {context_extra : Json} {tool_name : String} {tool_version : ℕ}
  {input : Json} {ctx : ToolContext} {policy : Option OopPolicy} {pool : Bool}
  {pf : ProducedFile} {files : List ProducedFile} {data : List UInt8} {max_file_bytes i : ℕ}
  {answer : Answer} {stderr : List UInt8} {s s' : Store} {ids : List Uuid}

/-! ### Files -/

lemma Files.plain_nil (fs : Files) : fs.root.Plain [] := fs.plain.nil

lemma plain_canonicalize {path : List Char} {canonical : List (List Char)}
    (h : fs.canonicalize path = some canonical) : fs.root.Plain canonical := by
  rw [Files.canonicalize] at h
  split at h
  · cases h
  · refine FileTree.plain_of_resolve ?_ h
    split_ifs
    · exact fs.plain_nil
    · exact fs.plain

lemma openAt_eq {path : List (List Char)} (h : fs.root.Plain path) :
    fs.openAt path = fs.root.walk path := by
  rw [Files.openAt, FileTree.resolve_spelled (spells_map_down path) (by rwa [List.nil_append]),
    List.nil_append, Option.bind_some]

lemma openAt_of_read {path : List (List Char)} (h : fs.read path = some data) :
    fs.openAt path = some (.file data) := by
  unfold Files.read at h
  split at h
  · cases h
  · split at h <;> cases h
    assumption

lemma size_of_openAt {path : List (List Char)} {size : ℕ} (h : fs.size path = some size)
    (hopen : fs.openAt path = some (.file data)) : size = data.length := by
  unfold Files.size at h
  split at h
  · cases h
  · rw [hopen] at h
    exact (Option.some.inj h).symm

/-- A file below the scratch directory, on a path without links. -/
def InScratch (fs : Files) (scratch_dir : String) (data : List UInt8) : Prop :=
  ∃ scratch tree names, fs.canonicalize scratch_dir.toList = some scratch ∧
    fs.root.walk scratch = some tree ∧ tree.walk names = some (.file data)

lemma inScratch_of_readProduced (h : readProduced fs ctx max_file_bytes pf = .ok data) :
    InScratch fs ctx.scratch_dir data ∧ data.length ≤ max_file_bytes := by
  unfold readProduced at h
  dsimp only at h
  split at h
  · cases h
  split at h
  · cases h
  split at h
  · cases h
  next canonical hcanonical =>
  split at h
  · cases h
  next scratch hscratch =>
  split at h
  · cases h
  next hprefix =>
  split at h
  · cases h
  next size hsize =>
  split at h
  · cases h
  next hlength =>
  split at h
  · cases h
  next content hread =>
  cases h
  have hopen := openAt_of_read hread
  rw [size_of_openAt hsize hopen] at hlength
  obtain ⟨names, rfl⟩ := not_not.mp hprefix
  rw [openAt_eq (plain_canonicalize hcanonical), FileTree.walk_append] at hopen
  obtain ⟨tree, htree, hfile⟩ := Option.bind_eq_some_iff.mp hopen
  exact ⟨⟨scratch, tree, names, hscratch, htree, hfile⟩, not_lt.mp hlength⟩

/-! ### What is written -/

/-- What a store gets. -/
structure Written where
  blobs : List (List UInt8)
  rows : List ArtifactRow
  queue : List EmbedRow

def Written.none : Written := ⟨[], [], []⟩

def Written.append (w w' : Written) : Written :=
  ⟨w.blobs ++ w'.blobs, w.rows ++ w'.rows, w.queue ++ w'.queue⟩

def Store.add (s : Store) (w : Written) : Store :=
  ⟨s.blobs ++ w.blobs, s.artifacts ++ w.rows, s.embed_queue ++ w.queue⟩

@[simp] lemma Store.add_none (s : Store) : s.add .none = s := by
  simp [Store.add, Written.none]

lemma Store.add_add (s : Store) (w w' : Written) : (s.add w).add w' = s.add (w.append w') := by
  simp [Store.add, Written.append]

/-- Only files from below the scratch directory are stored, rows are for what is stored, and
embeddings for the rows. -/
structure Allowed (sha256 : List UInt8 → String) (fs : Files) (ctx : ToolContext)
    (max_file_bytes : ℕ) (w : Written) : Prop where
  blobs : ∀ data ∈ w.blobs, InScratch fs ctx.scratch_dir data ∧ data.length ≤ max_file_bytes
  rows : ∀ row ∈ w.rows, row.project_id = ctx.project_id ∧
    row.source_tool_run_id = some ctx.tool_run_id ∧ ∃ data ∈ w.blobs, row.sha256 = sha256 data
  queue : ∀ e ∈ w.queue, e.project_id = ctx.project_id ∧
    ∃ row ∈ w.rows, row.id = e.chunks_artifact_id

lemma allowed_none : Allowed sha256 fs ctx max_file_bytes .none :=
  ⟨List.forall_mem_nil _, List.forall_mem_nil _, List.forall_mem_nil _⟩

lemma Allowed.append {w w' : Written} (h : Allowed sha256 fs ctx max_file_bytes w)
    (h' : Allowed sha256 fs ctx max_file_bytes w') :
    Allowed sha256 fs ctx max_file_bytes (w.append w') := by
  refine ⟨List.forall_mem_append.mpr ⟨h.blobs, h'.blobs⟩, List.forall_mem_append.mpr ⟨?_, ?_⟩,
    List.forall_mem_append.mpr ⟨?_, ?_⟩⟩
  · intro row hrow
    obtain ⟨hproject, hrun, data, hdata, hsha⟩ := h.rows row hrow
    exact ⟨hproject, hrun, data, List.mem_append_left _ hdata, hsha⟩
  · intro row hrow
    obtain ⟨hproject, hrun, data, hdata, hsha⟩ := h'.rows row hrow
    exact ⟨hproject, hrun, data, List.mem_append_right _ hdata, hsha⟩
  · intro e he
    obtain ⟨hproject, row, hrow, hid⟩ := h.queue e he
    exact ⟨hproject, row, List.mem_append_left _ hrow, hid⟩
  · intro e he
    obtain ⟨hproject, row, hrow, hid⟩ := h'.queue e he
    exact ⟨hproject, row, List.mem_append_right _ hrow, hid⟩

/-- The row of a file. -/
def rowOf (sha256 : List UInt8 → String) (ctx : ToolContext) (pf : ProducedFile)
    (data : List UInt8) (id : Uuid) : ArtifactRow :=
  ⟨id, ctx.project_id, sha256 data, storedFilename ctx.artifacts pf.filename, pf.mime_type,
    some ctx.tool_run_id, pf.description⟩

lemma ingestProducedFile_created {enqueued : Bool} {id : Uuid}
    (h : readProduced fs ctx max_file_bytes pf = .ok data) :
    ingestProducedFile sha256 fs ctx max_file_bytes pf (.created id enqueued) s =
      (.ok id, s.add ⟨[data], [rowOf sha256 ctx pf data id], []⟩) := by
  rw [ingestProducedFile, h]
  simp [Store.add, rowOf]

/-- One file is left out, with its blob or without it, or it gets a row. -/
lemma ingestProducedFile_cases (s : Store) :
    (∃ e w, ingestProducedFile sha256 fs ctx max_file_bytes pf answer s = (.error e, s.add w) ∧
      Allowed sha256 fs ctx max_file_bytes w ∧ w.blobs.length ≤ 1 ∧ w.rows = []) ∨
    ∃ id enqueued data, answer = .created id enqueued ∧
      readProduced fs ctx max_file_bytes pf = .ok data ∧
      ingestProducedFile sha256 fs ctx max_file_bytes pf answer s =
        (.ok id, s.add ⟨[data], [rowOf sha256 ctx pf data id], []⟩) := by
  cases hread : readProduced fs ctx max_file_bytes pf with
  | error e =>
    left
    refine ⟨e, .none, ?_, allowed_none, Nat.zero_le 1, rfl⟩
    rw [ingestProducedFile, hread, Store.add_none]
  | ok data =>
    cases answer with
    | storageError e =>
      left
      refine ⟨toolError "storage_error" ("failed to store produced file: " ++ e), .none, ?_,
        allowed_none, Nat.zero_le 1, rfl⟩
      rw [ingestProducedFile, hread, Store.add_none]
    | dbError e =>
      left
      refine ⟨toolError "db_error" ("failed to create artifact record: " ++ e), ⟨[data], [], []⟩,
        ?_, ⟨?_, List.forall_mem_nil _, List.forall_mem_nil _⟩, Nat.le_refl 1, rfl⟩
      · rw [ingestProducedFile, hread]
        simp [Store.add]
      · exact List.forall_mem_singleton.mpr (inScratch_of_readProduced hread)
    | created id enqueued =>
      right
      exact ⟨id, enqueued, data, rfl, rfl, ingestProducedFile_created hread⟩

lemma enqueueChunks_cases (ctx : ToolContext) (tool_name : String) (pf : ProducedFile) (id : Uuid)
    (answer : Answer) (s : Store) :
    ∃ queue, enqueueChunks ctx tool_name pf id answer s = s.add ⟨[], [], queue⟩ ∧
      ∀ e ∈ queue, e.project_id = ctx.project_id ∧ e.chunks_artifact_id = id := by
  unfold enqueueChunks
  split
  · split
    · refine ⟨[⟨ctx.project_id, id, (ctx.artifacts.head?).map (·.id), tool_name⟩], ?_, ?_⟩
      · simp [Store.add]
      · exact List.forall_mem_singleton.mpr ⟨rfl, rfl⟩
    · exact ⟨[], (s.add_none).symm, List.forall_mem_nil _⟩
  · exact ⟨[], (s.add_none).symm, List.forall_mem_nil _⟩

lemma ingestAll_spec (h : ingestAll sha256 fs ctx tool_name max_file_bytes answers i files s =
    (ids, s')) :
    ∃ w, s' = s.add w ∧ Allowed sha256 fs ctx max_file_bytes w ∧
      w.blobs.length ≤ files.length ∧ w.rows.map (·.id) = ids := by
  induction files generalizing i s ids with
  | nil =>
    cases h
    exact ⟨.none, (Store.add_none _).symm, allowed_none, Nat.le_refl 0, rfl⟩
  | cons pf files ih =>
    rw [ingestAll] at h
    rcases ingestProducedFile_cases s with ⟨e, w, heq, hw, hblobs, hrows⟩ |
      ⟨id, enqueued, data, hanswer, hread, heq⟩
    · rw [heq] at h
      obtain ⟨w', rfl, hw', hblobs', rfl⟩ := ih h
      refine ⟨w.append w', s.add_add w w', hw.append hw', ?_, ?_⟩
      · rw [Written.append, List.length_append, List.length_cons]
        omega
      · rw [Written.append, hrows, List.nil_append]
    · rw [heq] at h
      obtain ⟨queue, henqueue, hqueue⟩ := enqueueChunks_cases ctx tool_name pf id (answers i)
        (s.add ⟨[data], [rowOf sha256 ctx pf data id], []⟩)
      dsimp only at h
      rw [henqueue, Store.add_add] at h
      cases hrest : ingestAll sha256 fs ctx tool_name max_file_bytes answers (i + 1) files
          (s.add (Written.append ⟨[data], [rowOf sha256 ctx pf data id], []⟩ ⟨[], [], queue⟩)) with
      | mk ids' s'' =>
        rw [hrest] at h
        cases h
        obtain ⟨w', rfl, hw', hblobs', rfl⟩ := ih hrest
        refine ⟨_, Store.add_add s _ w', Allowed.append ⟨?_, ?_, ?_⟩ hw', ?_, rfl⟩
        · exact List.forall_mem_singleton.mpr (inScratch_of_readProduced hread)
        · exact List.forall_mem_singleton.mpr
            ⟨rfl, rfl, data, List.mem_singleton_self data, rfl⟩
        · intro e he
          obtain ⟨hproject, hid⟩ := hqueue e he
          exact ⟨hproject, _, List.mem_singleton_self _, hid.symm⟩
        · simp only [Written.append, List.length_append, List.length_cons, List.length_nil]
          omega

/-! ### The execution -/

/-- What is stored are files from below the scratch directory within the limits of the policy, and
the rows that the result lists; nothing is stored when the run fails. -/
def Contained (sha256 : List UInt8 → String) (fs : Files) (ctx : ToolContext)
    (policy : Option OopPolicy) (s : Store) (out : Except ToolError RunResult × Store) : Prop :=
  ∃ w, out.2 = s.add w ∧
    Allowed sha256 fs ctx ((policy.map (·.max_output_bytes)).getD 67108864) w ∧
    w.blobs.length ≤ (policy.map (·.max_produced_artifacts)).getD 16 ∧
    match out.1 with
    | .ok r => w.rows.map (·.id) = r.produced_artifacts
    | .error _ => w = .none

lemma contained_error (e : ToolError) : Contained sha256 fs ctx policy s (.error e, s) :=
  ⟨.none, s.add_none.symm, allowed_none, Nat.zero_le _, rfl⟩

lemma contained_ok {r : RunResult} (h : r.produced_artifacts = []) :
    Contained sha256 fs ctx policy s (.ok r, s) :=
  ⟨.none, s.add_none.symm, allowed_none, Nat.zero_le _, h.symm⟩

lemma contained_conclude (result : OopResult) : Contained sha256 fs ctx policy s
    (conclude libs sha256 fs ctx tool_name policy pool answers stderr s result) := by
  cases result with
  | error code message retryable => exact contained_error _
  | ok output files =>
    unfold conclude
    dsimp only
    split
    · exact contained_error _
    · next hcount =>
      cases pool with
      | false => exact contained_ok rfl
      | true =>
        cases hall : ingestAll sha256 fs ctx tool_name
            ((policy.map (·.max_output_bytes)).getD 67108864) answers 0 files s with
        | mk ids s' =>
          obtain ⟨w, rfl, hw, hblobs, hids⟩ := ingestAll_spec hall
          exact ⟨w, rfl, hw, hblobs.trans (not_lt.mp hcount), hids⟩

/-- Whatever the program answers and leaves behind, what it makes the worker store is contained. -/
theorem produced_files_contained (libs : TextLibs) (l : Launchers)
    (spawn : Launcher → String → Except ToolError ProcessOutput) (answers : ℕ → Answer)
    (context_extra : Json) (tool_name : String) (tool_version : ℕ) (input : Json) (pool : Bool) :
    Contained sha256 fs ctx policy s (executeOop libs sha256 l spawn fs answers context_extra
      tool_name tool_version input ctx policy pool s) := by
  unfold executeOop
  dsimp only
  split
  · exact contained_error _
  · next output _ =>
    by_cases hsimple : isSimple context_extra = true
    · rw [if_pos hsimple, parseSimpleResponse]
      split
      · exact contained_error _
      · exact contained_ok rfl
    · rw [if_neg hsimple]
      split
      · exact contained_error _
      · split
        · exact contained_error _
        · exact contained_conclude _

/-! ### Nothing is lost -/

/-- The path leads down to the file from the scratch directory, past no link, and the system lets
the file be read. -/
def LiesBelow (fs : Files) (scratch_dir path : String) (data : List UInt8) : Prop :=
  ∃ scratch tree names, fs.canonicalize scratch_dir.toList = some scratch ∧
    fs.root.walk scratch = some tree ∧ tree.walk names = some (.file data) ∧
    path.toList.head? ≠ some '/' ∧ Spells (pathSteps path.toList) names ∧
    fs.statFails (scratch ++ names) = false ∧ fs.readFails (scratch ++ names) = false

/-- Only a step up is a component that leads out. -/
lemma parentDir_not_mem_of_up {path : List Char} (h : .up ∉ pathSteps path) :
    PathComponent.parentDir ∉ pathComponents path := by
  simp only [pathComponents, List.mem_append, not_or]
  refine ⟨⟨?_, ?_⟩, ?_⟩
  · split_ifs <;> simp
  · split_ifs <;> simp
  · intro hmem
    obtain ⟨part, hpart, heq⟩ := List.mem_map.mp hmem
    obtain ⟨hpart, -⟩ := List.mem_filter.mp hpart
    apply h
    refine List.mem_map.mpr ⟨part, hpart, ?_⟩
    split at heq
    · next hdots => simp [hdots]
    · cases heq

lemma canonicalize_spelled {dir path : List Char} {scratch names : List (List Char)}
    (h : fs.canonicalize dir = some scratch) (hrelative : path.head? ≠ some '/')
    (hspells : Spells (pathSteps path) names) (hplain : fs.root.Plain (scratch ++ names)) :
    fs.canonicalize (joinPath dir path) = some (scratch ++ names) := by
  rw [Files.canonicalize] at h
  split at h
  · cases h
  · next hdir =>
    have hhead : (dir ++ '/' :: path).head? = dir.head? := by
      cases dir with
      | nil => exact absurd rfl hdir
      | cons c dir => rfl
    have hsteps : pathSteps (dir ++ '/' :: path) = pathSteps dir ++ pathSteps path := by
      simp only [pathSteps, List.splitOn_append_cons_self, List.map_append]
    rw [joinPath, if_neg hrelative, Files.canonicalize, if_neg (by simp), hhead, hsteps]
    exact FileTree.resolve_append (fun _ => FileTree.resolve_spelled hspells hplain) h

lemma readProduced_of_liesBelow (h : LiesBelow fs ctx.scratch_dir pf.path data)
    (hlength : data.length ≤ max_file_bytes) :
    readProduced fs ctx max_file_bytes pf = .ok data := by
  obtain ⟨scratch, tree, names, hscratch, htree, hfile, hrelative, hspells, hstat, hread⟩ := h
  have hwalk : fs.root.walk (scratch ++ names) = some (.file data) := by
    rw [FileTree.walk_append, htree]
    exact hfile
  have hplain : fs.root.Plain (scratch ++ names) := ⟨_, hwalk, id⟩
  have hopen : fs.openAt (scratch ++ names) = some (.file data) := (openAt_eq hplain).trans hwalk
  have hsize : fs.size (scratch ++ names) = some data.length := by simp [Files.size, hstat, hopen]
  have hdata : fs.read (scratch ++ names) = some data := by simp [Files.read, hread, hopen]
  unfold readProduced
  dsimp only
  rw [if_neg hrelative, if_neg (parentDir_not_mem_of_up hspells.up_not_mem),
    canonicalize_spelled hscratch hrelative hspells hplain, hscratch]
  dsimp only
  rw [if_neg (not_not.mpr (List.prefix_append scratch names)), hsize]
  dsimp only
  rw [if_neg (not_lt.mpr hlength), hdata]

lemma Store.mem_add {s : Store} {row : ArtifactRow} (w : Written)
    (h : data ∈ s.blobs ∧ row ∈ s.artifacts) :
    data ∈ (s.add w).blobs ∧ row ∈ (s.add w).artifacts :=
  ⟨List.mem_append_left _ h.1, List.mem_append_left _ h.2⟩

lemma ingestAll_stores {enqueued : Bool} {id : Uuid} {j : ℕ}
    (h : ingestAll sha256 fs ctx tool_name max_file_bytes answers i files s = (ids, s'))
    (hfile : files[j]? = some pf) (hanswer : answers (i + j) = .created id enqueued)
    (hread : readProduced fs ctx max_file_bytes pf = .ok data) :
    id ∈ ids ∧ data ∈ s'.blobs ∧ rowOf sha256 ctx pf data id ∈ s'.artifacts := by
  induction files generalizing i j s ids with
  | nil => cases hfile
  | cons head files ih =>
    rw [ingestAll] at h
    cases j with
    | zero =>
      obtain rfl := Option.some.inj hfile
      rw [Nat.add_zero] at hanswer
      rw [hanswer, ingestProducedFile_created hread] at h
      obtain ⟨queue, henqueue, -⟩ := enqueueChunks_cases ctx tool_name head id
        (.created id enqueued) (s.add ⟨[data], [rowOf sha256 ctx head data id], []⟩)
      dsimp only at h
      rw [henqueue] at h
      cases hrest : ingestAll sha256 fs ctx tool_name max_file_bytes answers (i + 1) files
          ((s.add ⟨[data], [rowOf sha256 ctx head data id], []⟩).add ⟨[], [], queue⟩) with
      | mk ids' s'' =>
        rw [hrest] at h
        cases h
        obtain ⟨w, rfl, -⟩ := ingestAll_spec hrest
        refine ⟨List.mem_cons_self, Store.mem_add w (Store.mem_add _ ⟨?_, ?_⟩)⟩
        · exact List.mem_append_right _ (List.mem_singleton_self data)
        · exact List.mem_append_right _ (List.mem_singleton_self _)
    | succ j =>
      rw [← Nat.add_assoc, Nat.add_right_comm] at hanswer
      rcases ingestProducedFile_cases s with ⟨e, w, heq, -⟩ | ⟨id', enqueued', data', -, -, heq⟩
      · rw [heq] at h
        exact ih h hfile hanswer
      · rw [heq] at h
        dsimp only at h
        cases hrest : ingestAll sha256 fs ctx tool_name max_file_bytes answers (i + 1) files
            (enqueueChunks ctx tool_name head id' (answers i)
              (s.add ⟨[data'], [rowOf sha256 ctx head data' id'], []⟩)) with
        | mk ids' s'' =>
          rw [hrest] at h
          cases h
          obtain ⟨hid, hstored⟩ := ih hrest hfile hanswer
          exact ⟨List.mem_cons_of_mem id' hid, hstored⟩

/-- The program is started, and answers that it has produced the files. -/
structure Reports (libs : TextLibs) (l : Launchers)
    (spawn : Launcher → String → Except ToolError ProcessOutput) (context_extra : Json)
    (tool_name : String) (tool_version : ℕ) (input : Json) (ctx : ToolContext)
    (policy : Option OopPolicy) (files : List ProducedFile) : Prop where
  enveloped : isSimple context_extra = false
  answered : ∃ launcher output v out,
    chooseLauncher l tool_name ((policy.map (·.sandbox)).getD .NoNetReadOnly) ctx.use_oaie =
      .ok launcher ∧
    spawn launcher (libs.print ((envelopeOf context_extra tool_name tool_version input
      ctx).toJson libs)) = .ok output ∧
    libs.parse output.stdout = .ok v ∧ readResponse v = some (.ok out files)
  few : files.length ≤ (policy.map (·.max_produced_artifacts)).getD 16

/-- A file that the program reports and that lies below the scratch directory is stored, within the
limits of the policy. -/
theorem reported_file_stored {spawn : Launcher → String → Except ToolError ProcessOutput}
    (h : Reports libs l spawn context_extra tool_name tool_version input ctx policy files)
    (hfile : files[i]? = some pf) (hlies : LiesBelow fs ctx.scratch_dir pf.path data)
    (hlength : data.length ≤ (policy.map (·.max_output_bytes)).getD 67108864) {enqueued : Bool}
    {id : Uuid} (hanswer : answers i = .created id enqueued) :
    ∃ r s', executeOop libs sha256 l spawn fs answers context_extra tool_name tool_version input
        ctx policy true s = (.ok r, s') ∧
      id ∈ r.produced_artifacts ∧ data ∈ s'.blobs ∧ rowOf sha256 ctx pf data id ∈ s'.artifacts := by
  obtain ⟨hsimple, ⟨launcher, output, v, out, hlauncher, hspawn, hparse, hread⟩, hcount⟩ := h
  cases hall : ingestAll sha256 fs ctx tool_name
      ((policy.map (·.max_output_bytes)).getD 67108864) answers 0 files s with
  | mk ids s' =>
    have hstores := ingestAll_stores hall hfile (by rw [Nat.zero_add]; exact hanswer)
      (readProduced_of_liesBelow hlies hlength)
    refine ⟨⟨toolResult libs (enrich libs out ids) output.stderr, ids⟩, s', ?_, hstores⟩
    unfold executeOop
    simp only [hsimple, hlauncher, Except.bind, hspawn, hparse, hread, Bool.false_eq_true,
      if_false]
    unfold conclude
    dsimp only
    rw [if_neg (not_lt.mpr hcount), if_pos rfl, hall]

/-- `/t` is a link to `/v`, where the directory `2` of the run is; the program has put a file and a
link to another file of the machine there. -/
def linkedFiles : Files where
  root := .dir [(['t'], .link true [.down ['v']]), (['p'], .file [9]),
    (['v'], .dir [(['2'], .dir [(['d'], .dir [(['o'], .file [1, 2, 3])]),
      (['l'], .link false [.up, .up, .down ['p']])])])]
  cwd := []
  plain := ⟨_, rfl, id⟩
  osError := "No such file or directory"

def linkedContext : ToolContext where
  project_id := 1
  tool_run_id := 2
  actor_user_id := none
  artifacts := []
  scratch_dir := "/t/2"
  tool_config := .null
  use_oaie := false

def producedFile : ProducedFile := ⟨"out.bin", "./d//o", none, none⟩

example : readProduced linkedFiles linkedContext 100 ⟨"passwords", "l", none, none⟩ =
    .error (toolError "path_traversal" "produced file escapes scratch dir: /p") := by
  decide +kernel

def linkedEnvelopeText : String :=
  "\x7b\"tool_name\":\"re.tool\",\"tool_version\":1,\"input\":\x7b\x7d,\"context\":" ++
  "\x7b\"project_id\":\"00000000-0000-0000-0000-000000000001\"," ++
  "\"tool_run_id\":\"00000000-0000-0000-0000-000000000002\"," ++
  "\"scratch_dir\":\"/t/2\",\"artifacts\":[],\"extra\":null\x7d\x7d"

def linkedResponseText : String :=
  "\x7b\"result\":\x7b\"status\":\"ok\",\"output\":null,\"produced_files\":[" ++
  "\x7b\"filename\":\"out.bin\",\"path\":\"./d//o\",\"mime_type\":null\x7d]\x7d\x7d"

/-- The texts of the run. -/
def linkedLibs : TextLibs where
  showUuid := Uuid.toHyphenated
  parseUuid := Uuid.parseHyphenated
  print _ := linkedEnvelopeText
  parse _ := .ok (responseJson (.ok .null [producedFile]))
  mismatch _ := "missing field"
  lossy _ := ""

def linkedProgram (_ : Launcher) (_ : String) : Except ToolError ProcessOutput :=
  .ok ⟨utf8 linkedResponseText.toList, []⟩

theorem reported_file_stored_linked :
    ∃ r s', executeOop linkedLibs (fun _ => "ab") ⟨false, true, false⟩ linkedProgram linkedFiles
        (fun _ => .created 5 false) .null "re.tool" 1 (.obj []) linkedContext none true
        ⟨[], [], []⟩ = (.ok r, s') ∧
      5 ∈ r.produced_artifacts ∧ [1, 2, 3] ∈ s'.blobs ∧
      rowOf (fun _ => "ab") linkedContext producedFile [1, 2, 3] 5 ∈ s'.artifacts := by
  have hreports : Reports linkedLibs ⟨false, true, false⟩ linkedProgram .null "re.tool" 1 (.obj [])
      linkedContext none [producedFile] :=
    ⟨rfl, ⟨.bwrap, _, _, .null, rfl, rfl, rfl, rfl⟩, by decide⟩
  have hfile : [producedFile][0]? = some producedFile := rfl
  have hsteps : pathSteps producedFile.path.toList = [.stay, .down ['d'], .stay, .down ['o']] := by
    decide +kernel
  have hspells : Spells (pathSteps producedFile.path.toList) [['d'], ['o']] := by
    rw [hsteps]
    exact .stay (by simp) (.down _ (.stay (by simp) (.down _ .nil)))
  have hlies : LiesBelow linkedFiles linkedContext.scratch_dir producedFile.path [1, 2, 3] :=
    ⟨[['v'], ['2']], _, [['d'], ['o']], by decide +kernel, rfl, rfl, by decide +kernel, hspells,
      rfl, rfl⟩
  exact reported_file_stored hreports hfile hlies (by decide) rfl

end Arbeiterfarm.Jobs.Oop
