import Arbeiterfarm.Jobs.Fencing
import Arbeiterfarm.Jobs.InputArtifacts

/-!
# The outputs of a run

While a tool runs it creates artifacts and links them to its run (`store_inner`), and the worker
links what the tool has reported once more when it completes the run: in the transaction that
completes it for a run with a user, and otherwise in statements of their own before, each of which
may fail. A link names the run and not the attempt. An executor reports only artifacts that it has
created.

`produced` says which attempt has created which artifact; no step reads it but to tell whether an
artifact is there to be linked.
-/

namespace Arbeiterfarm.Jobs

open Foundation

/-- An artifact, with the attempt that has created it. -/
structure Product where
  artifact_id : Uuid
  run_id : Uuid
  attempt : ℕ
  deriving DecidableEq, Repr

structure OutputFarm where
  farm : Farm
  links : List ToolRunArtifactRow
  produced : Table Product.artifact_id

def OutputFarm.init : OutputFarm := ⟨.init, [], .empty _⟩

inductive OutputAction where
  /-- A step that links nothing. -/
  | job (a : Action)
  | enqueue (id : Uuid) (req : EnqueueRequest) (input_ids : List Uuid)
  | createArtifact (w : WorkerId) (artifact_id : Uuid)
  | linkArtifact (w : WorkerId) (artifact_id : Uuid)
  /-- The links and the completion in one transaction. -/
  | complete (w : WorkerId) (result : ToolResult) (produced_artifacts : List Uuid)

/-- Link the artifacts to the run as its outputs. -/
def linkOutputs (links : List ToolRunArtifactRow) (run_id : Uuid) (ids : List Uuid) :
    List ToolRunArtifactRow :=
  ids.foldl (fun links id => linkArtifact links ⟨run_id, id, "output"⟩) links

/-- The artifact has been created by the attempt that the worker holds. -/
def OutputFarm.Created (s : OutputFarm) (run : ToolRunRow) (artifact_id : Uuid) : Prop :=
  ⟨artifact_id, run.id, run.attempt⟩ ∈ s.produced.rows

instance (s : OutputFarm) (run : ToolRunRow) (artifact_id : Uuid) :
    Decidable (s.Created run artifact_id) := inferInstanceAs (Decidable (_ ∈ _))

def OutputFarm.step (s : OutputFarm) : OutputAction → Option OutputFarm
  | .job a => (s.farm.step a).map fun farm => { s with farm := farm }
  | .enqueue id req input_ids =>
    (s.farm.step (.enqueue id req)).map fun farm =>
      { s with farm := farm, links := linkInputs s.links id input_ids }
  | .createArtifact w artifact_id =>
    (s.farm.workers w).bind fun run =>
      (s.produced.insert ⟨artifact_id, run.id, run.attempt⟩).map fun produced =>
        { s with produced := produced }
  | .linkArtifact w artifact_id =>
    (s.farm.workers w).bind fun run =>
      if s.Created run artifact_id then
        some { s with links := linkArtifact s.links ⟨run.id, artifact_id, "output"⟩ }
      else none
  | .complete w result produced_artifacts =>
    (s.farm.workers w).bind fun run =>
      if run.actor_user_id.isSome ∧ ∀ id ∈ produced_artifacts, s.Created run id then
        (s.farm.step (.report w (.ok result))).map fun farm =>
          { s with farm := farm, links := linkOutputs s.links run.id produced_artifacts }
      else none

/-- The step of the farm that an action takes. -/
def OutputAction.farmAction : OutputAction → Option Action
  | .job a => some a
  | .enqueue id req _ => some (.enqueue id req)
  | .complete w result _ => some (.report w (.ok result))
  | _ => none

/-- An action takes its step of the farm, or none. -/
lemma OutputFarm.farm_step {s t : OutputFarm} {a : OutputAction} (h : s.step a = some t) :
    (∃ b, a.farmAction = some b ∧ s.farm.step b = some t.farm) ∨
      a.farmAction = none ∧ t.farm = s.farm := by
  cases a with
  | job a =>
    obtain ⟨farm, hfarm, rfl⟩ := Option.map_eq_some_iff.mp h
    exact .inl ⟨a, rfl, hfarm⟩
  | enqueue id req input_ids =>
    obtain ⟨farm, hfarm, rfl⟩ := Option.map_eq_some_iff.mp h
    exact .inl ⟨.enqueue id req, rfl, hfarm⟩
  | createArtifact w artifact_id =>
    obtain ⟨run, hw, h⟩ := Option.bind_eq_some_iff.mp h
    obtain ⟨produced, -, rfl⟩ := Option.map_eq_some_iff.mp h
    exact .inr ⟨rfl, rfl⟩
  | linkArtifact w artifact_id =>
    obtain ⟨run, hw, h⟩ := Option.bind_eq_some_iff.mp h
    split_ifs at h
    obtain rfl := Option.some.inj h
    exact .inr ⟨rfl, rfl⟩
  | complete w result produced_artifacts =>
    obtain ⟨run, hw, h⟩ := Option.bind_eq_some_iff.mp h
    split_ifs at h
    obtain ⟨farm, hfarm, rfl⟩ := Option.map_eq_some_iff.mp h
    exact .inl ⟨.report w (.ok result), rfl, hfarm⟩

/-- `SELECT … FROM tool_run_artifacts WHERE tool_run_id = $1`. -/
def getForRun (links : List ToolRunArtifactRow) (run_id : Uuid) : List ToolRunArtifactRow :=
  links.filter fun link => link.tool_run_id = run_id

/-- The artifacts that the invoker hands to the agent with the result of a run. -/
def producedArtifacts (links : List ToolRunArtifactRow) (run_id : Uuid) : List Uuid :=
  ((getForRun links run_id).filter fun link => link.role = "output").map (·.artifact_id)

lemma mem_producedArtifacts {links : List ToolRunArtifactRow} {run_id id : Uuid} :
    id ∈ producedArtifacts links run_id ↔ ⟨run_id, id, "output"⟩ ∈ links := by
  simp only [producedArtifacts, getForRun, List.mem_map, List.mem_filter, decide_eq_true_eq]
  constructor
  · rintro ⟨link, ⟨⟨hlink, rfl⟩, hrole⟩, rfl⟩
    rw [← hrole]
    exact hlink
  · intro hlink
    exact ⟨_, ⟨⟨hlink, rfl⟩, rfl⟩, rfl⟩

lemma mem_linkOutputs {links : List ToolRunArtifactRow} {run_id : Uuid} {ids : List Uuid}
    {link : ToolRunArtifactRow} : link ∈ linkOutputs links run_id ids ↔
      link ∈ links ∨ ∃ id ∈ ids, link = ⟨run_id, id, "output"⟩ := mem_foldl_linkArtifact

/-! ### Which attempt is recorded -/

/-- The completion of a run that a worker holds. -/
structure Completes (s : Farm) (a : Action) (t : Farm) (w : WorkerId) (run : ToolRunRow) :
    Prop where
  action : ∃ result, a = .report w (.ok result)
  held : s.workers w = some run
  released : t.workers w = none
  recorded : t.recordedBy = Function.update s.recordedBy run.id (some (w, run.attempt))
  status : ∀ r, get run.id t.rows = some r → r.status = .completed

lemma completes_of_report {s t : Farm} {w : WorkerId} {run : ToolRunRow} {result : ToolResult}
    (hw : s.workers w = some run) (h : s.step (.report w (.ok result)) = some t) :
    Completes s (.report w (.ok result)) t w run := by
  simp only [Farm.step, hw, Option.map_some, Option.some.injEq] at h
  subst h
  refine ⟨⟨result, rfl⟩, hw, by simp, rfl, ?_⟩
  intro r hr
  simp only [report, get_complete, Option.map_eq_some_iff] at hr
  obtain ⟨r, hr, rfl⟩ := hr
  rw [if_pos (id_of_get hr)]
  rfl

/-- A step completes one run at most. -/
lemma Completes.unique {s t : Farm} {a : Action} {w w' : WorkerId} {run run' : ToolRunRow}
    (h : Completes s a t w run) (h' : Completes s a t w' run') : run = run' := by
  obtain ⟨result, ha⟩ := h.action
  obtain ⟨result', ha'⟩ := h'.action
  obtain ⟨rfl, -⟩ := Action.report.inj (ha.symm.trans ha')
  exact Option.some.inj (h.held.symm.trans h'.held)

/-- A step leaves what is recorded alone, unless it is a completion. -/
lemma recordedBy_step {s t : Farm} {a : Action} (h : s.step a = some t) :
    t.recordedBy = s.recordedBy ∨ ∃ w run, Completes s a t w run := by
  cases Rule.of_step h with
  | report w run result hw =>
    cases result with
    | ok result => exact .inr ⟨w, run, completes_of_report hw h⟩
    | error e => exact .inl rfl
  | _ => exact .inl rfl

/-- A row that is completed after a step was completed before, or it has just been completed. -/
lemma completed_step {s t : Farm} {a : Action} (h : s.step a = some t) {id : Uuid}
    {r' : ToolRunRow} (hr' : get id t.rows = some r') (hst : r'.status = .completed) :
    (∃ r, get id s.rows = some r ∧ r.status = .completed) ∨
      ∃ w run, Completes s a t w run ∧ run.id = id := by
  rcases row_of_step h hr' with ⟨r, hr, hrule⟩ | ⟨req, -, -, rfl⟩
  · cases hrule with
    | same | extended => exact .inl ⟨_, hr, hst⟩
    | reported w run result ha hw hid =>
      subst ha
      cases result with
      | ok result => exact .inr ⟨w, run, completes_of_report hw h, hid.trans (id_of_get hr)⟩
      | error e => cases hst
    | claimed | requeued | exhausted => cases hst
  · cases hst

structure RecordInv (s : Farm) : Prop extends HeldApart s where
  completed : ∀ id r, get id s.rows = some r → r.status = .completed →
    ∃ w n, s.recordedBy id = some (w, n)
  recorded_le : ∀ id w n, s.recordedBy id = some (w, n) →
    ∃ r, get id s.rows = some r ∧ n ≤ r.attempt
  /-- An attempt that is recorded is over. -/
  not_held : ∀ w run v n, s.workers w = some run → s.recordedBy run.id = some (v, n) →
    n ≠ run.attempt

lemma recordInv_init : RecordInv .init := by
  refine ⟨heldApart_init, ?_, ?_, ?_⟩
  · intro id r h
    simp [Farm.init, get] at h
  · intro id w n h
    simp [Farm.init] at h
  · intro w run v n h
    simp [Farm.init] at h

lemma RecordInv.recorded_le_step {s t : Farm} {a : Action} (hs : RecordInv s)
    (h : s.step a = some t) (id : Uuid) (w : WorkerId) (n : ℕ)
    (hrec : t.recordedBy id = some (w, n)) : ∃ r, get id t.rows = some r ∧ n ≤ r.attempt := by
  have hmono : ∀ r, get id s.rows = some r → n ≤ r.attempt →
      ∃ r, get id t.rows = some r ∧ n ≤ r.attempt := by
    intro r hr hle
    obtain ⟨r', hr', hle'⟩ := attempt_mono h hr
    exact ⟨r', hr', hle.trans hle'⟩
  rcases recordedBy_step h with hsame | ⟨v, run, hcompletes⟩
  · obtain ⟨r, hr, hle⟩ := hs.recorded_le id w n (hsame ▸ hrec)
    exact hmono r hr hle
  · rw [hcompletes.recorded] at hrec
    by_cases hid : id = run.id
    · subst hid
      simp only [Function.update_self, Option.some.injEq, Prod.mk.injEq] at hrec
      obtain ⟨r, hr, hle⟩ := hs.attempt_le v run hcompletes.held
      exact hmono r hr (hrec.2 ▸ hle)
    · rw [Function.update_of_ne hid] at hrec
      obtain ⟨r, hr, hle⟩ := hs.recorded_le id w n hrec
      exact hmono r hr hle

lemma RecordInv.not_held_step {s t : Farm} {a : Action} (hs : RecordInv s)
    (h : s.step a = some t) (w : WorkerId) (run : ToolRunRow) (v : WorkerId) (n : ℕ)
    (hw : t.workers w = some run) (hrec : t.recordedBy run.id = some (v, n)) :
    n ≠ run.attempt := by
  have hbefore : s.recordedBy run.id = some (v, n) → n ≠ run.attempt := by
    intro hrec
    rcases workers_step h hw with hold | ⟨-, -, q, hq, hat⟩
    · exact hs.not_held w run v n hold hrec
    · -- the attempt that has just begun is later than the recorded one
      obtain ⟨r, hr, hle⟩ := hs.recorded_le _ v n hrec
      obtain rfl := Option.some.inj (hr.symm.trans hq)
      omega
  rcases recordedBy_step h with hsame | ⟨w', run', hcompletes⟩
  · exact hbefore (hsame ▸ hrec)
  · rw [hcompletes.recorded] at hrec
    by_cases hid : run.id = run'.id
    · rw [hid, Function.update_self, Option.some.injEq, Prod.mk.injEq] at hrec
      obtain ⟨rfl, rfl⟩ := hrec
      intro hat
      rcases workers_step h hw with hold | ⟨⟨locked, ha⟩, -⟩
      · obtain rfl := hs.unique w w' run run' hold hcompletes.held hid hat.symm
        rw [hcompletes.released] at hw
        cases hw
      · obtain ⟨result, ha'⟩ := hcompletes.action
        rw [ha'] at ha
        cases ha
    · rw [Function.update_of_ne hid] at hrec
      exact hbefore hrec

lemma recordInv_step {s t : Farm} {a : Action} (hs : RecordInv s) (h : s.step a = some t) :
    RecordInv t := by
  refine ⟨heldApart_step hs.toHeldApart h, ?_, hs.recorded_le_step h, hs.not_held_step h⟩
  intro id r hr hst
  rcases completed_step h hr hst with ⟨r₀, hr₀, hst₀⟩ | ⟨w, run, hcompletes, rfl⟩
  · obtain ⟨v, n, hrec⟩ := hs.completed id r₀ hr₀ hst₀
    rcases recordedBy_step h with hsame | ⟨w, run, hcompletes⟩
    · exact ⟨v, n, hsame ▸ hrec⟩
    · rw [hcompletes.recorded]
      by_cases hid : id = run.id
      · exact ⟨w, run.attempt, by simp [hid]⟩
      · exact ⟨v, n, by rw [Function.update_of_ne hid, hrec]⟩
  · exact ⟨w, run.attempt, by simp [hcompletes.recorded]⟩

/-! ### Outputs belong to the recorded attempt -/

/-- The artifacts that are handed over for a completed run are those that the attempt whose output
is recorded has created. -/
def OutputsBelong (s : OutputFarm) : Prop :=
  ∀ id r, get id s.farm.rows = some r → r.status = .completed →
    ∃ w n, s.farm.recordedBy id = some (w, n) ∧
      ∀ artifact_id, artifact_id ∈ producedArtifacts s.links id ↔
        ⟨artifact_id, id, n⟩ ∈ s.produced.rows

/-- No other attempt of the run has linked an output. -/
def OutputFarm.LinkedByIt (s : OutputFarm) (run : ToolRunRow) : Prop :=
  ∀ id n, ⟨id, run.id, n⟩ ∈ s.produced.rows → ⟨run.id, id, "output"⟩ ∈ s.links → n = run.attempt

/-- What the attempt has created is linked already or among `ids`. -/
def OutputFarm.LinksAll (s : OutputFarm) (run : ToolRunRow) (ids : List Uuid) : Prop :=
  ∀ id, s.Created run id → ⟨run.id, id, "output"⟩ ∈ s.links ∨ id ∈ ids

/-- A worker completes only runs for which no other attempt has linked an output, and links all that
its own attempt has created; and it links nothing to a run that is completed. -/
def OutputsInOrder (s : OutputFarm) : OutputAction → Prop
  | .job (.report w (.ok _)) => ∀ run, s.farm.workers w = some run →
      s.LinkedByIt run ∧ s.LinksAll run []
  | .complete w _ produced_artifacts => ∀ run, s.farm.workers w = some run →
      s.LinkedByIt run ∧ s.LinksAll run produced_artifacts
  | .linkArtifact w _ => ∀ run, s.farm.workers w = some run →
      ∀ r, get run.id s.farm.rows = some r → r.status ≠ .completed
  | _ => True

structure OutputInv (s : OutputFarm) : Prop where
  farm : RecordInv s.farm
  links : ∀ run_id id, ⟨run_id, id, "output"⟩ ∈ s.links →
    ∃ n, ⟨id, run_id, n⟩ ∈ s.produced.rows

lemma outputInv_init : OutputInv .init := by
  refine ⟨recordInv_init, ?_⟩
  intro run_id id h
  cases h

/-- An artifact has been created by one attempt. -/
lemma OutputFarm.attempt_unique {s : OutputFarm} {id run_id run_id' : Uuid} {n n' : ℕ}
    (h : ⟨id, run_id, n⟩ ∈ s.produced.rows) (h' : ⟨id, run_id', n'⟩ ∈ s.produced.rows) :
    n = n' := by
  have heq := Table.eq_of_key h h' rfl
  exact (Product.mk.inj heq).2.2

lemma outputInv_step {s t : OutputFarm} {a : OutputAction} (hs : OutputInv s)
    (h : s.step a = some t) : OutputInv t := by
  have hfarm : RecordInv t.farm := by
    rcases OutputFarm.farm_step h with ⟨b, -, hstep⟩ | ⟨-, heq⟩
    · exact recordInv_step hs.farm hstep
    · exact heq ▸ hs.farm
  refine ⟨hfarm, ?_⟩
  intro run_id id hlink
  cases a with
  | job a =>
    obtain ⟨farm, -, rfl⟩ := Option.map_eq_some_iff.mp h
    exact hs.links run_id id hlink
  | enqueue id' req input_ids =>
    obtain ⟨farm, -, rfl⟩ := Option.map_eq_some_iff.mp h
    rcases mem_linkInputs.mp hlink with hlink | ⟨_, -, heq⟩
    · exact hs.links run_id id hlink
    · simp at heq
  | createArtifact w artifact_id =>
    obtain ⟨run, hw, h⟩ := Option.bind_eq_some_iff.mp h
    obtain ⟨produced, hproduced, rfl⟩ := Option.map_eq_some_iff.mp h
    obtain ⟨n, hn⟩ := hs.links run_id id hlink
    refine ⟨n, ?_⟩
    rw [Table.rows_insert hproduced]
    exact List.mem_append_left _ hn
  | linkArtifact w artifact_id =>
    obtain ⟨run, hw, h⟩ := Option.bind_eq_some_iff.mp h
    split_ifs at h with hcreated
    obtain rfl := Option.some.inj h
    rcases mem_linkArtifact.mp hlink with hlink | heq
    · exact hs.links run_id id hlink
    · obtain ⟨rfl, rfl, -⟩ := ToolRunArtifactRow.mk.inj heq
      exact ⟨run.attempt, hcreated⟩
  | complete w result produced_artifacts =>
    obtain ⟨run, hw, h⟩ := Option.bind_eq_some_iff.mp h
    split_ifs at h with hcreated
    obtain ⟨farm, -, rfl⟩ := Option.map_eq_some_iff.mp h
    rcases mem_linkOutputs.mp hlink with hlink | ⟨id', hid', heq⟩
    · exact hs.links run_id id hlink
    · obtain ⟨rfl, rfl, -⟩ := ToolRunArtifactRow.mk.inj heq
      exact ⟨run.attempt, hcreated.2 id hid'⟩

/-- A step that completes no run and links no output keeps the outputs where they belong. -/
lemma OutputsBelong.of_farm {s t : OutputFarm} {a : Action} (hs : OutputsBelong s)
    (h : s.farm.step a = some t.farm) (hnot : ∀ w run, ¬ Completes s.farm a t.farm w run)
    (hlinks : ∀ run_id id, ⟨run_id, id, "output"⟩ ∈ t.links ↔ ⟨run_id, id, "output"⟩ ∈ s.links)
    (hproduced : t.produced = s.produced) : OutputsBelong t := by
  intro id r' hr' hst
  have hsame : t.farm.recordedBy = s.farm.recordedBy :=
    (recordedBy_step h).resolve_right fun ⟨w, run, hcompletes⟩ => hnot w run hcompletes
  rcases completed_step h hr' hst with ⟨r, hr, hst⟩ | ⟨w, run, hcompletes, -⟩
  · obtain ⟨w, n, hrec, hids⟩ := hs id r hr hst
    refine ⟨w, n, hsame ▸ hrec, ?_⟩
    intro artifact_id
    rw [hproduced, ← hids, mem_producedArtifacts, mem_producedArtifacts, hlinks]
  · exact absurd hcompletes (hnot w run)

/-- A completion keeps the outputs where they belong exactly when it is in order. -/
lemma outputsBelong_of_completes {s t : OutputFarm} {a : Action} {w : WorkerId}
    {run : ToolRunRow} (ids : List Uuid) (hinv : OutputInv s) (hs : OutputsBelong s)
    (h : s.farm.step a = some t.farm) (hcompletes : Completes s.farm a t.farm w run)
    (hids : ∀ id ∈ ids, s.Created run id) (hlinks : t.links = linkOutputs s.links run.id ids)
    (hproduced : t.produced = s.produced) :
    OutputsBelong t ↔ s.LinkedByIt run ∧ s.LinksAll run ids := by
  have hmem : ∀ id run_id, id ∈ producedArtifacts t.links run_id ↔
      ⟨run_id, id, "output"⟩ ∈ s.links ∨ id ∈ ids ∧ run_id = run.id := by
    intro id run_id
    rw [mem_producedArtifacts, hlinks, mem_linkOutputs]
    simp only [ToolRunArtifactRow.mk.injEq, and_true]
    refine or_congr_right ⟨?_, ?_⟩
    · rintro ⟨id', hid', rfl, rfl⟩
      exact ⟨hid', rfl⟩
    · rintro ⟨hid, rfl⟩
      exact ⟨id, hid, rfl, rfl⟩
  constructor
  · intro ht
    obtain ⟨r, hr, -⟩ := hinv.farm.attempt_le w run hcompletes.held
    obtain ⟨r', hr', hrule⟩ := row_step h hr
    obtain ⟨v, n, hrec, hbelong⟩ := ht run.id r' hr' (hcompletes.status r' hr')
    simp only [hcompletes.recorded, Function.update_self, Option.some.injEq,
      Prod.mk.injEq] at hrec
    obtain ⟨rfl, rfl⟩ := hrec
    rw [hproduced] at hbelong
    constructor
    · intro id n hn hlink
      have hcreated := (hbelong id).mp ((hmem id run.id).mpr (.inl hlink))
      exact OutputFarm.attempt_unique hn hcreated
    · intro id hcreated
      exact ((hmem id run.id).mp ((hbelong id).mpr hcreated)).imp_right And.left
  · rintro ⟨hlinked, hall⟩ id r' hr' hst
    rw [hcompletes.recorded, hproduced]
    by_cases hid : id = run.id
    · subst hid
      refine ⟨w, run.attempt, by simp, ?_⟩
      intro artifact_id
      rw [hmem]
      constructor
      · rintro (hlink | ⟨hid, -⟩)
        · obtain ⟨n, hn⟩ := hinv.links run.id artifact_id hlink
          exact hlinked artifact_id n hn hlink ▸ hn
        · exact hids artifact_id hid
      · intro hcreated
        exact (hall artifact_id hcreated).imp_right fun hid => ⟨hid, rfl⟩
    · rcases completed_step h hr' hst with ⟨r, hr, hst⟩ | ⟨w', run', hcompletes', rfl⟩
      · obtain ⟨v, n, hrec, hbelong⟩ := hs id r hr hst
        refine ⟨v, n, by rw [Function.update_of_ne hid, hrec], ?_⟩
        intro artifact_id
        rw [hmem, ← hbelong, mem_producedArtifacts]
        simp [hid]
      · exact absurd (congrArg _ (hcompletes'.unique hcompletes)) hid

/-- An artifact that is created is not the work of a recorded attempt. -/
lemma OutputsBelong.of_create {s : OutputFarm} (hs : OutputsBelong s) (hinv : OutputInv s)
    {w : WorkerId} {run : ToolRunRow} {artifact_id : Uuid} {produced : Table Product.artifact_id}
    (hw : s.farm.workers w = some run)
    (hproduced : s.produced.insert ⟨artifact_id, run.id, run.attempt⟩ = some produced) :
    OutputsBelong { s with produced := produced } := by
  intro id r hr hst
  obtain ⟨v, n, hrec, hbelong⟩ := hs id r hr hst
  refine ⟨v, n, hrec, ?_⟩
  intro id'
  rw [hbelong, Table.rows_insert hproduced, List.mem_append, List.mem_singleton]
  refine (or_iff_left ?_).symm
  intro heq
  obtain ⟨-, rfl, rfl⟩ := Product.mk.inj heq
  exact hinv.farm.not_held w run v _ hw hrec rfl

/-- What a worker links belongs to its own attempt, so it must not be linked to a run for which
another one is recorded. -/
lemma outputsBelong_of_link {s : OutputFarm} (hinv : OutputInv s) (hs : OutputsBelong s)
    {w : WorkerId} {run : ToolRunRow} {artifact_id : Uuid} (hw : s.farm.workers w = some run)
    (hcreated : s.Created run artifact_id) :
    OutputsBelong { s with links := linkArtifact s.links ⟨run.id, artifact_id, "output"⟩ } ↔
      ∀ r, get run.id s.farm.rows = some r → r.status ≠ .completed := by
  constructor
  · intro ht r hr hst
    obtain ⟨v, n, hrec, hbelong⟩ := ht run.id r hr hst
    have hn := (hbelong artifact_id).mp
      (mem_producedArtifacts.mpr (mem_linkArtifact.mpr (.inr rfl)))
    exact hinv.farm.not_held w run v n hw hrec (OutputFarm.attempt_unique hn hcreated)
  · intro hopen id r hr hst
    obtain ⟨v, n, hrec, hbelong⟩ := hs id r hr hst
    refine ⟨v, n, hrec, ?_⟩
    intro id'
    rw [← hbelong, mem_producedArtifacts, mem_producedArtifacts, mem_linkArtifact]
    refine or_iff_left ?_
    intro heq
    obtain ⟨rfl, -⟩ := ToolRunArtifactRow.mk.inj heq
    exact hopen r hr hst

/-- A step keeps the outputs where they belong exactly when it is in order. -/
lemma outputsBelong_step {s t : OutputFarm} {a : OutputAction} (hinv : OutputInv s)
    (hs : OutputsBelong s) (h : s.step a = some t) : OutputsBelong t ↔ OutputsInOrder s a := by
  cases a with
  | job a =>
    obtain ⟨farm, hfarm, rfl⟩ := Option.map_eq_some_iff.mp h
    by_cases hcompletes : ∃ w run, Completes s.farm a farm w run
    · obtain ⟨w, run, hcompletes⟩ := hcompletes
      obtain ⟨result, rfl⟩ := hcompletes.action
      refine (outputsBelong_of_completes (t := ⟨farm, s.links, s.produced⟩) [] hinv hs hfarm
        hcompletes (by simp) rfl rfl).trans ?_
      simp only [OutputsInOrder, hcompletes.held, Option.some.injEq, forall_eq']
    · have hnot : ∀ w run, ¬ Completes s.farm a farm w run :=
        fun w run hc => hcompletes ⟨w, run, hc⟩
      refine iff_of_true (hs.of_farm hfarm hnot (fun _ _ => Iff.rfl) rfl) ?_
      cases a with
      | report w result =>
        cases result with
        | ok result =>
          intro run hw
          exact absurd (completes_of_report hw hfarm) (hnot w run)
        | error e => trivial
      | _ => trivial
  | enqueue id req input_ids =>
    obtain ⟨farm, hfarm, rfl⟩ := Option.map_eq_some_iff.mp h
    refine iff_of_true (hs.of_farm hfarm ?_ ?_ rfl) trivial
    · intro w run hcompletes
      obtain ⟨result, ha⟩ := hcompletes.action
      cases ha
    · intro run_id artifact_id
      rw [mem_linkInputs, or_iff_left]
      simp
  | createArtifact w artifact_id =>
    obtain ⟨run, hw, h⟩ := Option.bind_eq_some_iff.mp h
    obtain ⟨produced, hproduced, rfl⟩ := Option.map_eq_some_iff.mp h
    exact iff_of_true (hs.of_create hinv hw hproduced) trivial
  | linkArtifact w artifact_id =>
    obtain ⟨run, hw, h⟩ := Option.bind_eq_some_iff.mp h
    split_ifs at h with hcreated
    obtain rfl := Option.some.inj h
    simp only [OutputsInOrder, hw, Option.some.injEq, forall_eq']
    exact outputsBelong_of_link hinv hs hw hcreated
  | complete w result produced_artifacts =>
    obtain ⟨run, hw, h⟩ := Option.bind_eq_some_iff.mp h
    split_ifs at h with hcreated
    obtain ⟨farm, hfarm, rfl⟩ := Option.map_eq_some_iff.mp h
    refine (outputsBelong_of_completes
      (t := ⟨farm, linkOutputs s.links run.id produced_artifacts, s.produced⟩) produced_artifacts
      hinv hs hfarm (completes_of_report hw hfarm) hcreated.2 rfl rfl).trans ?_
    simp only [OutputsInOrder, hw, Option.some.injEq, forall_eq']

/-- The outputs belong to the recorded attempts throughout a run exactly when its steps are in
order. -/
theorem outputsBelong_iff_inOrder {as : List OutputAction} {t : OutputFarm}
    (ht : exec OutputFarm.step .init as = some t) :
    Always OutputFarm.step OutputsBelong .init as ↔
      Along OutputFarm.step OutputsInOrder .init as := by
  refine always_iff_along (fun _ _ _ => outputInv_step) (fun _ _ _ => outputsBelong_step)
    outputInv_init ?_ ht
  intro id r hr
  simp [OutputFarm.init, Farm.init, get] at hr

/-! ### An attempt that is lost -/

/-- Worker 0 stores an output and stalls past its lease; worker 1 runs the tool again, stores
another one and completes the run. -/
def lostAttempt : List OutputAction :=
  [.enqueue 7 ⟨"echo.tool", 1, .obj [], some 3⟩ [], .job (.claim 0 []),
   .createArtifact 0 40, .linkArtifact 0 40, .job (.tick 121), .job .reclaimExpired,
   .job (.claim 1 []), .createArtifact 1 41, .linkArtifact 1 41,
   .complete 1 ⟨.inlineJson, .obj [], none, none⟩ [41]]

/-- The same run without the stalled worker. -/
def keptAttempt : List OutputAction :=
  [.enqueue 7 ⟨"echo.tool", 1, .obj [], some 3⟩ [], .job (.claim 1 []),
   .createArtifact 1 41, .linkArtifact 1 41,
   .complete 1 ⟨.inlineJson, .obj [], none, none⟩ [41]]

theorem outputsBelong_iff_inOrder_kept :
    Always OutputFarm.step OutputsBelong .init keptAttempt ↔
      Along OutputFarm.step OutputsInOrder .init keptAttempt :=
  outputsBelong_iff_inOrder
    (t := (exec OutputFarm.step .init keptAttempt).get (by decide)) (by simp)

/-- The run hands over the output of the attempt that was lost. -/
theorem not_outputsBelong_lost : ¬ Always OutputFarm.step OutputsBelong .init lostAttempt := by
  intro h
  obtain ⟨t, ht⟩ := Option.isSome_iff_exists.mp
    (show (exec OutputFarm.step .init lostAttempt).isSome by decide)
  have hend : (exec OutputFarm.step .init lostAttempt).map (fun s =>
      ((get 7 s.farm.rows).map (·.status), s.farm.recordedBy 7, producedArtifacts s.links 7,
        s.produced.rows)) =
      some (some .completed, some (1, 2), [40, 41], [⟨40, 7, 1⟩, ⟨41, 7, 2⟩]) := by decide
  rw [ht] at hend
  simp only [Option.map_some, Option.some.injEq, Prod.mk.injEq] at hend
  obtain ⟨hrow, hrec, hids, hproduced⟩ := hend
  obtain ⟨r, hr, hst⟩ := Option.map_eq_some_iff.mp hrow
  obtain ⟨w, n, hrec', hbelong⟩ := h.of_exec ht 7 r hr hst
  obtain ⟨rfl, rfl⟩ := Prod.mk.inj (Option.some.inj (hrec.symm.trans hrec'))
  have hcreated := (hbelong 40).mp (by simp [hids])
  rw [hproduced] at hcreated
  revert hcreated
  decide

end Arbeiterfarm.Jobs
