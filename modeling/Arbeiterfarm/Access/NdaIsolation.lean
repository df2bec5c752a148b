import Arbeiterfarm.Access.SharedKnowledge
import Arbeiterfarm.Foundation.Exec
import Arbeiterfarm.Foundation.Fallible

/-!
# Projects under a non-disclosure agreement

Nothing that is done in a project that is under a non-disclosure agreement can be seen in another
one, neither by those who may see the project nor in what has been taken over from project to
project.
-/

namespace Arbeiterfarm.Access

open Foundation Jobs Tools

/-! ### What is done -/

/-- The rows of a project that are not written by one of the tools. -/
structure Own where
  projects : List ProjectRow
  project_members : List ProjectMemberRow
  artifacts : List ArtifactRow
  threads : List ThreadRow
  iocs : List IocRow

inductive KnowledgeEvent where
  | tool (tool : SharedTool) (ctx : ToolContext) (new : NewRow) (input : Json)
  | importRenames (user : Option Uuid) (target source : Uuid) (sha256 : String) (now : ℕ)
  /-- The rows of the project are changed: settings, members, uploads, threads or indicators. -/
  | change (project_id : Uuid) (f : Own → Own)
  /-- The project is deleted with the rows that refer to it. -/
  | drop (project_id : Uuid)

/-- The project in which something is done. -/
def KnowledgeEvent.project : KnowledgeEvent → Uuid
  | .tool _ ctx _ _ => ctx.project_id
  | .importRenames _ target _ _ _ => target
  | .change project_id _ => project_id
  | .drop project_id => project_id

def Knowledge.own (s : Knowledge) (p : Uuid) : Own where
  projects := s.projects.filter fun r => r.id = p
  project_members := s.project_members.filter fun r => r.project_id = p
  artifacts := s.artifacts.filter fun r => r.project_id = p
  threads := s.threads.filter fun r => r.project_id = p
  iocs := s.iocs.filter fun r => r.project_id = p

/-- The rows of a project are replaced. -/
def Knowledge.setOwn (s : Knowledge) (p : Uuid) (own : Own) : Knowledge :=
  { s with
    projects := s.projects.filter (fun r => r.id ≠ p) ++
      own.projects.map fun r => { r with id := p }
    project_members := s.project_members.filter (fun r => r.project_id ≠ p) ++
      own.project_members.map fun r => { r with project_id := p }
    artifacts := s.artifacts.filter (fun r => r.project_id ≠ p) ++
      own.artifacts.map fun r => { r with project_id := p }
    threads := s.threads.filter (fun r => r.project_id ≠ p) ++
      own.threads.map fun r => { r with project_id := p }
    iocs := s.iocs.filter (fun r => r.project_id ≠ p) ++
      own.iocs.map fun r => { r with project_id := p } }

/-- `delete_project`: families and indicators have no foreign key to the project and stay. -/
def Knowledge.dropProject (s : Knowledge) (p : Uuid) : Knowledge :=
  { s with
    projects := s.projects.filter fun r => r.id ≠ p
    project_members := s.project_members.filter fun r => r.project_id ≠ p
    artifacts := s.artifacts.filter fun r => r.project_id ≠ p
    threads := s.threads.filter fun r => r.project_id ≠ p
    ghidra_function_renames := s.ghidra_function_renames.delete fun r => r.project_id = p }

def knowledgeStep (F : Formats) (s : Knowledge) : KnowledgeEvent → Knowledge × Except ToolError Json
  | .tool tool ctx new input => tool.run F s ctx new input
  | .importRenames user target source sha256 now => importRenames F user s target source sha256 now
  | .change p f => (s.setOwn p (f (s.own p)), .ok .null)
  | .drop p => (s.dropProject p, .ok (.bool (p ∈ s.projects.map (·.id))))

/-! ### What does not belong to a project -/

/-- The project is under a non-disclosure agreement. -/
def Nda (n : Uuid) (s : Knowledge) : Prop := ∀ p ∈ s.projects, p.id = n → p.nda = true

/-- The first part of a key is not the project `n`. -/
def elsewhere {β : Type} (n : Uuid) (k : Uuid × β) : Bool := k.1 ≠ n

/-- The same but for the project `n`. -/
structure SameOutside (n : Uuid) (s t : Knowledge) : Prop where
  projects : s.projects.filter (fun r => r.id ≠ n) = t.projects.filter fun r => r.id ≠ n
  members : s.project_members.filter (fun r => r.project_id ≠ n) =
    t.project_members.filter fun r => r.project_id ≠ n
  artifacts : s.artifacts.filter (fun r => r.project_id ≠ n) =
    t.artifacts.filter fun r => r.project_id ≠ n
  threads : s.threads.filter (fun r => r.project_id ≠ n) =
    t.threads.filter fun r => r.project_id ≠ n
  iocs : s.iocs.filter (fun r => r.project_id ≠ n) = t.iocs.filter fun r => r.project_id ≠ n
  families : s.artifact_families.restrict (elsewhere n) =
    t.artifact_families.restrict (elsewhere n)
  renames : s.ghidra_function_renames.restrict (elsewhere n) =
    t.ghidra_function_renames.restrict (elsewhere n)

section

variable {ρ : Type} {n : Uuid} {f : ρ → Uuid} {l l' : List ρ}

/-- What is selected among the rows of other projects. -/
lemma filter_outside {P Q : ρ → Bool}
    (h : l.filter (fun r => f r ≠ n) = l'.filter fun r => f r ≠ n)
    (hPQ : ∀ r, f r ≠ n → P r = Q r) (hP : ∀ r, f r = n → P r = false)
    (hQ : ∀ r, f r = n → Q r = false) : l.filter P = l'.filter Q := by
  have hfilter {l : List ρ} {P : ρ → Bool} (hP : ∀ r, f r = n → P r = false) :
      l.filter P = (l.filter fun r => f r ≠ n).filter P := by
    rw [List.filter_filter]
    apply List.filter_congr
    intro r _
    by_cases hr : f r = n
    · rw [hP r hr, Bool.false_and]
    · simp [hr]
  rw [hfilter hP, hfilter hQ, h]
  apply List.filter_congr
  intro r hr
  exact hPQ r (by simpa using (List.mem_filter.mp hr).2)

lemma mem_outside (h : l.filter (fun r => f r ≠ n) = l'.filter fun r => f r ≠ n) {r : ρ}
    (hr : f r ≠ n) : r ∈ l ↔ r ∈ l' := by
  have hmem : r ∈ l.filter (fun r => f r ≠ n) ↔ r ∈ l'.filter fun r => f r ≠ n := by rw [h]
  simpa [hr] using hmem

end

section

variable {F : Formats} {user : Option Uuid} {n q : Uuid} {s t : Knowledge}

lemma visibleTo_outside (h : SameOutside n s t) (hq : q ≠ n) :
    q ∈ visibleTo user s.toDirectory ↔ q ∈ visibleTo user t.toDirectory := by
  have hprojects (Q : ProjectRow → Prop) :
      (∃ p ∈ s.projects, Q p ∧ p.id = q) ↔ ∃ p ∈ t.projects, Q p ∧ p.id = q := by
    constructor
    · rintro ⟨p, hp, hQ, rfl⟩
      exact ⟨p, (mem_outside h.projects hq).mp hp, hQ, rfl⟩
    · rintro ⟨p, hp, hQ, rfl⟩
      exact ⟨p, (mem_outside h.projects hq).mpr hp, hQ, rfl⟩
  have hmembers (Q : ProjectMemberRow → Prop) :
      (∃ m ∈ s.project_members, Q m ∧ m.project_id = q) ↔
        ∃ m ∈ t.project_members, Q m ∧ m.project_id = q := by
    constructor
    · rintro ⟨m, hm, hQ, rfl⟩
      exact ⟨m, (mem_outside h.members hq).mp hm, hQ, rfl⟩
    · rintro ⟨m, hm, hQ, rfl⟩
      exact ⟨m, (mem_outside h.members hq).mpr hm, hQ, rfl⟩
  cases user with
  | some user_id =>
    simp only [visibleTo]
    rw [mem_afVisibleProjects, mem_afVisibleProjects, hprojects, hmembers]
  | none => simpa [visibleTo, and_assoc] using hmembers fun m => m.user_id = allUsersSentinel

lemma letsThrough_outside (h : SameOutside n s t) (hq : q ≠ n) :
    letsThrough user s.toDirectory q = letsThrough user t.toDirectory q := by
  cases user with
  | some user_id =>
    simp only [letsThrough]
    rw [Bool.eq_iff_iff, decide_eq_true_eq, decide_eq_true_eq]
    have hvisible : q ∈ visibleTo (some user_id) s.toDirectory ↔
        q ∈ visibleTo (some user_id) t.toDirectory := visibleTo_outside h hq
    exact hvisible
  | none => rfl

/-- Another project is there in both or in none. -/
lemma exists_outside (h : SameOutside n s t) (hq : q ≠ n) :
    q ∈ s.projects.map (·.id) ↔ q ∈ t.projects.map (·.id) := by
  simp only [List.mem_map]
  constructor
  · rintro ⟨p, hp, rfl⟩
    exact ⟨p, (mem_outside h.projects hq).mp hp, rfl⟩
  · rintro ⟨p, hp, rfl⟩
    exact ⟨p, (mem_outside h.projects hq).mpr hp, rfl⟩

lemma not_shareable (h : Nda n s) : n ∉ afShareableProjects F user s.toDirectory := by
  simp only [afShareableProjects, List.mem_map, List.mem_filter, Bool.and_eq_true,
    decide_eq_true_eq]
  rintro ⟨p, ⟨hp, ⟨-, hnda⟩, -⟩, hid⟩
  rw [h p hp hid] at hnda
  cases hnda

lemma shareable_outside (h : SameOutside n s t) (hs : Nda n s) (ht : Nda n t) :
    q ∈ afShareableProjects F user s.toDirectory ↔
      q ∈ afShareableProjects F user t.toDirectory := by
  by_cases hq : q = n
  · rw [hq]
    exact iff_of_false (not_shareable hs) (not_shareable ht)
  · simp only [afShareableProjects, List.mem_map, List.mem_filter, Bool.and_eq_true,
      decide_eq_true_eq]
    constructor
    · rintro ⟨p, ⟨hp, ⟨hvisible, hnda⟩, hsettings⟩, rfl⟩
      exact ⟨p, ⟨(mem_outside h.projects hq).mp hp,
        ⟨(visibleTo_outside h hq).mp hvisible, hnda⟩, hsettings⟩, rfl⟩
    · rintro ⟨p, ⟨hp, ⟨hvisible, hnda⟩, hsettings⟩, rfl⟩
      exact ⟨p, ⟨(mem_outside h.projects hq).mpr hp,
        ⟨(visibleTo_outside h hq).mpr hvisible, hnda⟩, hsettings⟩, rfl⟩

lemma shared_outside (h : SameOutside n s t) (hs : Nda n s) (ht : Nda n t) {ρ : Type} {f : ρ → Uuid}
    {l l' : List ρ} (hl : l.filter (fun r => f r ≠ n) = l'.filter fun r => f r ≠ n) :
    shared F user s f l = shared F user t f l' := by
  refine filter_outside hl ?_ ?_ ?_
  · intro r _
    rw [Bool.eq_iff_iff, decide_eq_true_eq, decide_eq_true_eq]
    exact shareable_outside h hs ht
  · intro r hr
    rw [decide_eq_false_iff_not, hr]
    exact not_shareable hs
  · intro r hr
    rw [decide_eq_false_iff_not, hr]
    exact not_shareable ht

lemma ne_of_mem_shared (hs : Nda n s) {ρ : Type} {f : ρ → Uuid} {l : List ρ} {r : ρ}
    (hr : r ∈ shared F user s f l) : f r ≠ n := by
  rintro rfl
  have hshareable := (List.mem_filter.mp hr).2
  rw [decide_eq_true_eq] at hshareable
  exact not_shareable hs hshareable

/-! ### Searches -/

section

variable (h : SameOutside n s t) (hs : Nda n s) (ht : Nda n t)

include h

lemma join_outside {ρ : Type} {f : ρ → Uuid} {l : List ρ} (hl : ∀ r ∈ l, f r ≠ n) :
    (l.flatMap fun r => (s.projects.filter fun p => p.id = f r).map fun p => (r, p)) =
      l.flatMap fun r => (t.projects.filter fun p => p.id = f r).map fun p => (r, p) := by
  apply List.flatMap_congr
  intro r hr
  have hne := hl r hr
  rw [filter_outside h.projects (fun _ _ => rfl)]
  · intro p hp
    rw [decide_eq_false_iff_not, hp]
    exact hne.symm
  · intro p hp
    rw [decide_eq_false_iff_not, hp]
    exact hne.symm

lemma familiesOf_outside {a : ArtifactRow} (ha : a.project_id ≠ n) :
    familiesOf user s a = familiesOf user t a := by
  have hrows := congrArg Table.rows h.families
  simp only [Table.restrict, FamilyRow.key, elsewhere] at hrows
  simp only [familiesOf, List.filter_filter]
  congr 1
  refine filter_outside hrows ?_ ?_ ?_
  · intro r hr
    rw [letsThrough_outside h hr]
  · intro r hr
    simp [hr, ha.symm]
  · intro r hr
    simp [hr, ha.symm]

lemma priorJson_outside {x : ArtifactRow × ProjectRow} (hx : x.1.project_id ≠ n) :
    priorJson F user s x = priorJson F user t x := by
  have hthreads : (s.threads.filter fun r => r.project_id = x.1.project_id) =
      t.threads.filter fun r => r.project_id = x.1.project_id := by
    refine filter_outside h.threads (fun _ _ => rfl) ?_ ?_
    · intro r hr
      simp [hr, hx.symm]
    · intro r hr
      simp [hr, hx.symm]
  simp only [priorJson, familiesOf_outside h hx, hthreads]

include hs ht

lemma priorMatches_outside {project_id : Uuid} {sha256 : String} {limit : ℕ} :
    priorMatches F user s project_id sha256 limit =
      priorMatches F user t project_id sha256 limit := by
  simp only [priorMatches]
  rw [shared_outside h hs ht h.artifacts, join_outside h]
  intro a ha
  exact ne_of_mem_shared ht (List.mem_of_mem_filter ha)

lemma executePriorAnalysis_outside {ctx : ToolContext} {input : Json} (hctx : ctx.project_id ≠ n) :
    executePriorAnalysis F user s ctx input = executePriorAnalysis F user t ctx input := by
  have hfind (id : Uuid) :
      (s.artifacts.find? fun a => a.project_id = ctx.project_id && a.id = id) =
        t.artifacts.find? fun a => a.project_id = ctx.project_id && a.id = id := by
    rw [← List.head?_filter, ← List.head?_filter, filter_outside h.artifacts (fun _ _ => rfl)]
    · intro a ha
      simp [ha, hctx.symm]
    · intro a ha
      simp [ha, hctx.symm]
  have hjson {sha256 : String} {limit : ℕ} :
      (priorMatches F user t ctx.project_id sha256 limit).map (priorJson F user s) =
        (priorMatches F user t ctx.project_id sha256 limit).map (priorJson F user t) := by
    apply List.map_congr_left
    intro x hx
    apply priorJson_outside h
    have hmem := (List.mergeSort_perm _ _).mem_iff.mp (List.mem_of_mem_take hx)
    obtain ⟨a, ha, hmap⟩ := List.mem_flatMap.mp hmem
    obtain ⟨p, -, rfl⟩ := List.mem_map.mp hmap
    exact ne_of_mem_shared ht (List.mem_of_mem_filter ha)
  simp only [executePriorAnalysis, hfind, priorMatches_outside h hs ht]
  split
  · rfl
  · split
    · rfl
    · split
      · rfl
      · split
        · rfl
        · rw [hjson]

lemma executeArtifactSearch_outside {input : Json} :
    executeArtifactSearch F user s input = executeArtifactSearch F user t input := by
  simp only [executeArtifactSearch, shared_outside h hs ht h.artifacts]

/-- What is shared of a table with row policies. -/
lemma shared_letsThrough_outside {ρ : Type} {f : ρ → Uuid} {l l' : List ρ}
    (hl : l.filter (fun r => f r ≠ n) = l'.filter fun r => f r ≠ n) :
    ((shared F user s f l).filter fun r => letsThrough user s.toDirectory (f r)) =
      (shared F user t f l').filter fun r => letsThrough user t.toDirectory (f r) := by
  rw [shared_outside h hs ht hl]
  apply List.filter_congr
  intro r hr
  exact letsThrough_outside h (ne_of_mem_shared ht hr)

lemma executeFamilySearch_outside {input : Json} :
    executeFamilySearch F user s input = executeFamilySearch F user t input := by
  have hrows : (shared F user s FamilyRow.project_id s.artifact_families.rows).filter
      (fun r => letsThrough user s.toDirectory r.project_id) =
        (shared F user t FamilyRow.project_id t.artifact_families.rows).filter
          fun r => letsThrough user t.toDirectory r.project_id :=
    shared_letsThrough_outside h hs ht (congrArg Table.rows h.families)
  simp only [executeFamilySearch, hrows]

lemma executeIocSearch_outside {input : Json} :
    executeIocSearch F user s input = executeIocSearch F user t input := by
  simp only [executeIocSearch, shared_letsThrough_outside h hs ht h.iocs]

lemma executeSuggestRenames_outside {ctx : ToolContext} :
    executeSuggestRenames F user s ctx = executeSuggestRenames F user t ctx := by
  have hrows : (shared F user s RenameRow.project_id s.ghidra_function_renames.rows).filter
      (fun r => letsThrough user s.toDirectory r.project_id) =
        (shared F user t RenameRow.project_id t.ghidra_function_renames.rows).filter
          fun r => letsThrough user t.toDirectory r.project_id :=
    shared_letsThrough_outside h hs ht (congrArg Table.rows h.renames)
  have hrenames {sha256 : String} : getCrossProjectRenames F user s sha256 ctx.project_id =
      getCrossProjectRenames F user t sha256 ctx.project_id := by
    simp only [getCrossProjectRenames]
    rw [hrows, join_outside h]
    intro r hr
    exact ne_of_mem_shared ht (List.mem_of_mem_filter (List.mem_of_mem_filter hr))
  simp only [executeSuggestRenames, hrenames]

/-! ### Writes -/

omit hs ht

/-- A write to the families of other projects. -/
lemma SameOutside.setFamilies {t₁ t₂ : Table FamilyRow.key}
    (hfamilies : t₁.restrict (elsewhere n) = t₂.restrict (elsewhere n)) :
    SameOutside n { s with artifact_families := t₁ } { t with artifact_families := t₂ } :=
  ⟨h.projects, h.members, h.artifacts, h.threads, h.iocs, hfamilies, h.renames⟩

lemma SameOutside.setRenames {t₁ t₂ : RenameTable}
    (hrenames : t₁.restrict (elsewhere n) = t₂.restrict (elsewhere n)) :
    SameOutside n { s with ghidra_function_renames := t₁ }
      { t with ghidra_function_renames := t₂ } :=
  ⟨h.projects, h.members, h.artifacts, h.threads, h.iocs, h.families, hrenames⟩

lemma executeFamilyTag_outside {ctx : ToolContext} {new : NewRow} {input : Json}
    (hctx : ctx.project_id ≠ n) :
    SameOutside n (executeFamilyTag F user s ctx new input).1
        (executeFamilyTag F user t ctx new input).1 ∧
      (executeFamilyTag F user s ctx new input).2 =
        (executeFamilyTag F user t ctx new input).2 := by
  simp only [executeFamilyTag, letsThrough_outside h hctx]
  split
  · exact ⟨h, rfl⟩
  · exact ⟨h, rfl⟩
  · split
    · exact ⟨h, rfl⟩
    · split
      · exact ⟨h, rfl⟩
      · split
        · exact ⟨h, rfl⟩
        · next id _ _ _ =>
          generalize hrow : FamilyRow.mk _ _ _ _ _ _ _ _ = row
          have hkey : elsewhere n row.key = true := by
            rw [← hrow, elsewhere, decide_eq_true_eq]
            exact hctx
          have htables : (s.artifact_families.upsert row (updatedFamily row)
              (key_updatedFamily row)).restrict (elsewhere n) =
                (t.artifact_families.upsert row (updatedFamily row)
                  (key_updatedFamily row)).restrict (elsewhere n) := by
            rw [Table.restrict_upsert _ hkey, Table.restrict_upsert _ hkey, h.families]
          have hlookup := congrArg (Table.lookup row.key) htables
          rw [Table.lookup_restrict hkey, Table.lookup_restrict hkey] at hlookup
          refine ⟨h.setFamilies htables, ?_⟩
          rw [hlookup]

lemma executeFamilyUntag_outside {ctx : ToolContext} {input : Json} (hctx : ctx.project_id ≠ n) :
    SameOutside n (executeFamilyUntag F user s ctx input).1
        (executeFamilyUntag F user t ctx input).1 ∧
      (executeFamilyUntag F user s ctx input).2 =
        (executeFamilyUntag F user t ctx input).2 := by
  have hlookup (key : Uuid × Uuid × String) (hkey : key.1 = ctx.project_id) :
      s.artifact_families.lookup key = t.artifact_families.lookup key := by
    have hne : elsewhere n key = true := by
      rw [elsewhere, hkey, decide_eq_true_eq]
      exact hctx
    rw [← Table.lookup_restrict hne, h.families, Table.lookup_restrict hne]
  simp only [executeFamilyUntag, letsThrough_outside h hctx]
  split
  · exact ⟨h, rfl⟩
  · exact ⟨h, rfl⟩
  · split
    · exact ⟨h, rfl⟩
    · rw [hlookup _ rfl]
      refine ⟨h.setFamilies ?_, rfl⟩
      rw [Table.restrict_delete, Table.restrict_delete, h.families]

omit h in
lemma project_of_insertedRow {p : Uuid} {sha256 : String} {now : ℕ} {x : Json} {r : RenameRow}
    (hr : insertedRow p sha256 user now x = some r) : r.project_id = p := by
  obtain ⟨old_name, -, hmap⟩ := Option.bind_eq_some_iff.mp hr
  obtain ⟨new_name, -, rfl⟩ := Option.map_eq_some_iff.mp hmap
  rfl

lemma upsertRenames_outside (user : Option Uuid) (sha256 : String) (now : ℕ)
    (renames : List Rename) {p : Uuid} (hp : p ≠ n) :
    (upsertRenames p sha256 user now s.ghidra_function_renames renames).map
        (fun x => (x.1.restrict (elsewhere n), x.2)) =
      (upsertRenames p sha256 user now t.ghidra_function_renames renames).map
        fun x => (x.1.restrict (elsewhere n), x.2) := by
  simp only [upsertRenames]
  split
  · rfl
  · split
    · rfl
    · next rows hrows =>
      have hkeys : ∀ r ∈ rows, elsewhere n r.key = true := by
        intro r hr
        have hmem : some r ∈ rows.map some := List.mem_map_of_mem hr
        rw [← Fallible.mapM_eq_some_iff.mp hrows] at hmem
        obtain ⟨x, -, hx⟩ := List.mem_map.mp hmem
        rw [elsewhere, decide_eq_true_eq, RenameRow.key, project_of_insertedRow hx]
        exact hp
      have htables := congrArg (Table.upsertAll updatedRow key_updatedRow [] rows) h.renames
      rw [← Table.restrict_upsertAll _ hkeys, ← Table.restrict_upsertAll _ hkeys] at htables
      revert htables
      cases Table.upsertAll updatedRow key_updatedRow [] rows s.ghidra_function_renames <;>
        cases Table.upsertAll updatedRow key_updatedRow [] rows t.ghidra_function_renames <;>
        simp [Except.map]

lemma executeRename_outside {ctx : ToolContext} {new : NewRow} {input : Json}
    (hctx : ctx.project_id ≠ n) :
    SameOutside n (executeRename F user s ctx new input).1
        (executeRename F user t ctx new input).1 ∧
      (executeRename F user s ctx new input).2 = (executeRename F user t ctx new input).2 := by
  simp only [executeRename, letsThrough_outside h hctx]
  split
  · exact ⟨h, rfl⟩
  · next sha256 _ =>
    split
    · exact ⟨h, rfl⟩
    · split
      · exact ⟨h, rfl⟩
      · split
        · exact ⟨h, rfl⟩
        · have hrenames := upsertRenames_outside h user sha256 new.now (parseRenames input) hctx
          revert hrenames
          cases upsertRenames ctx.project_id sha256 user new.now s.ghidra_function_renames
              (parseRenames input) with
          | error e =>
            cases upsertRenames ctx.project_id sha256 user new.now t.ghidra_function_renames
                (parseRenames input) with
            | error e' =>
              rintro ⟨⟩
              exact ⟨h, rfl⟩
            | ok x => rintro ⟨⟩
          | ok x =>
            cases upsertRenames ctx.project_id sha256 user new.now t.ghidra_function_renames
                (parseRenames input) with
            | error e => rintro ⟨⟩
            | ok y =>
              intro hrenames
              simp only [Except.map, Except.ok.injEq, Prod.mk.injEq] at hrenames
              simp only [exists_outside h hctx, hrenames.2]
              split
              · exact ⟨h, rfl⟩
              · exact ⟨h.setRenames hrenames.1, rfl⟩

include hs ht in
lemma importRenames_outside {target source : Uuid} {sha256 : String} {now : ℕ}
    (htarget : target ≠ n) :
    SameOutside n (importRenames F user s target source sha256 now).1
        (importRenames F user t target source sha256 now).1 ∧
      (importRenames F user s target source sha256 now).2 =
        (importRenames F user t target source sha256 now).2 := by
  have hshared : shared F user s RenameRow.project_id s.ghidra_function_renames.rows =
      shared F user t RenameRow.project_id t.ghidra_function_renames.rows :=
    shared_outside h hs ht (congrArg Table.rows h.renames)
  have hcount {t₁ t₂ : RenameTable}
      (hsame : t₁.restrict (elsewhere n) = t₂.restrict (elsewhere n)) :
      rowsOf t₁ target = rowsOf t₂ target := by
    have hrows : t₁.rows.filter (fun r => r.project_id ≠ n) =
        t₂.rows.filter fun r => r.project_id ≠ n := congrArg Table.rows hsame
    rw [rowsOf, rowsOf, filter_outside hrows (fun _ _ => rfl)]
    · intro r hr
      rw [decide_eq_false_iff_not, hr]
      exact htarget.symm
    · intro r hr
      rw [decide_eq_false_iff_not, hr]
      exact htarget.symm
  have hfilter : (shared F user s RenameRow.project_id s.ghidra_function_renames.rows).filter
      (fun r => letsThrough user s.toDirectory r.project_id && r.project_id = source &&
        r.sha256 = sha256) =
      (shared F user t RenameRow.project_id t.ghidra_function_renames.rows).filter
        fun r => letsThrough user t.toDirectory r.project_id && r.project_id = source &&
          r.sha256 = sha256 := by
    rw [hshared]
    apply List.filter_congr
    intro r hr
    rw [letsThrough_outside h (ne_of_mem_shared ht hr)]
  simp only [importRenames, letsThrough_outside h htarget, exists_outside h htarget, hfilter]
  generalize hrows : List.map (fun r : RenameRow => { r with
    project_id := target, renamed_by := user, updated_at := now }) _ = rows
  have hkeys : ∀ r ∈ rows, elsewhere n r.key = true := by
    intro r hr
    rw [← hrows] at hr
    obtain ⟨r', -, rfl⟩ := List.mem_map.mp hr
    rw [elsewhere, decide_eq_true_eq]
    exact htarget
  have htables : (s.ghidra_function_renames.insertMissing rows).restrict (elsewhere n) =
      (t.ghidra_function_renames.insertMissing rows).restrict (elsewhere n) := by
    rw [Table.restrict_insertMissing hkeys, Table.restrict_insertMissing hkeys, h.renames]
  rw [hcount htables, hcount h.renames]
  split
  · exact ⟨h, rfl⟩
  · split
    · exact ⟨h, rfl⟩
    · exact ⟨h.setRenames htables, rfl⟩

end

end

/-! ### All that is done -/

section

variable {F : Formats} {n p : Uuid} {s t : Knowledge}

/-- The rows of another project are the same. -/
lemma own_outside (h : SameOutside n s t) (hp : p ≠ n) : s.own p = t.own p := by
  have hrows {ρ : Type} {f : ρ → Uuid} {l l' : List ρ}
      (hl : l.filter (fun r => f r ≠ n) = l'.filter fun r => f r ≠ n) :
      (l.filter fun r => f r = p) = l'.filter fun r => f r = p := by
    refine filter_outside hl (fun _ _ => rfl) ?_ ?_
    · intro r hr
      rw [decide_eq_false_iff_not, hr]
      exact hp.symm
    · intro r hr
      rw [decide_eq_false_iff_not, hr]
      exact hp.symm
  simp only [Knowledge.own]
  rw [hrows h.projects, hrows h.members, hrows h.artifacts, hrows h.threads, hrows h.iocs]

lemma setOwn_outside (h : SameOutside n s t) (p : Uuid) (own : Own) :
    SameOutside n (s.setOwn p own) (t.setOwn p own) := by
  have hrows {ρ : Type} {f : ρ → Uuid} {l l' new : List ρ}
      (hl : l.filter (fun r => f r ≠ n) = l'.filter fun r => f r ≠ n) :
      (l.filter (fun r => f r ≠ p) ++ new).filter (fun r => f r ≠ n) =
        (l'.filter (fun r => f r ≠ p) ++ new).filter fun r => f r ≠ n := by
    rw [List.filter_append, List.filter_append, List.filter_comm, hl, List.filter_comm]
  exact ⟨hrows h.projects, hrows h.members, hrows h.artifacts, hrows h.threads, hrows h.iocs,
    h.families, h.renames⟩

/-- What is done in the project cannot be seen outside of it. -/
lemma setOwn_self (s : Knowledge) (own : Own) : SameOutside n (s.setOwn n own) s := by
  have hrows {ρ : Type} {f : ρ → Uuid} {l new : List ρ} (hnew : ∀ r ∈ new, f r = n) :
      (l.filter (fun r => f r ≠ n) ++ new).filter (fun r => f r ≠ n) =
        l.filter fun r => f r ≠ n := by
    rw [List.filter_append, List.filter_filter]
    simpa using hnew
  constructor
  · exact hrows (by simp)
  · exact hrows (by simp)
  · exact hrows (by simp)
  · exact hrows (by simp)
  · exact hrows (by simp)
  · rfl
  · rfl

lemma dropProject_outside (h : SameOutside n s t) (p : Uuid) :
    SameOutside n (s.dropProject p) (t.dropProject p) := by
  have hrows {ρ : Type} {f : ρ → Uuid} {l l' : List ρ}
      (hl : l.filter (fun r => f r ≠ n) = l'.filter fun r => f r ≠ n) :
      (l.filter fun r => f r ≠ p).filter (fun r => f r ≠ n) =
        (l'.filter fun r => f r ≠ p).filter fun r => f r ≠ n := by
    rw [List.filter_comm, hl, List.filter_comm]
  refine ⟨hrows h.projects, hrows h.members, hrows h.artifacts, hrows h.threads, h.iocs,
    h.families, ?_⟩
  simp only [Knowledge.dropProject]
  rw [Table.restrict_delete, Table.restrict_delete, h.renames]

lemma dropProject_self (s : Knowledge) : SameOutside n (s.dropProject n) s := by
  constructor
  · simp [Knowledge.dropProject]
  · simp [Knowledge.dropProject]
  · simp [Knowledge.dropProject]
  · simp [Knowledge.dropProject]
  · rfl
  · rfl
  · apply Table.restrict_delete_of_not
    intro r hr
    rw [elsewhere, decide_eq_false_iff_not, not_not]
    exact of_decide_eq_true hr

lemma SameOutside.refl (s : Knowledge) : SameOutside n s s := ⟨rfl, rfl, rfl, rfl, rfl, rfl, rfl⟩

lemma SameOutside.trans {s₁ s₂ s₃ : Knowledge} (h : SameOutside n s₁ s₂)
    (h' : SameOutside n s₂ s₃) : SameOutside n s₁ s₃ :=
  ⟨h.projects.trans h'.projects, h.members.trans h'.members, h.artifacts.trans h'.artifacts,
    h.threads.trans h'.threads, h.iocs.trans h'.iocs, h.families.trans h'.families,
    h.renames.trans h'.renames⟩

/-- Renames that are stored in the project are none of another one. -/
lemma restrict_upsertRenames {t u : RenameTable} {sha256 : String} {user : Option Uuid} {now : ℕ}
    {renames : List Rename} {count : ℕ} (hp : p = n)
    (h : upsertRenames p sha256 user now t renames = .ok (u, count)) :
    u.restrict (elsewhere n) = t.restrict (elsewhere n) := by
  simp only [upsertRenames] at h
  split at h
  · cases h
  · split at h
    · cases h
    · next rows hrows =>
      split at h <;> cases h
      next hall =>
      refine Table.restrict_upsertAll_of_not _ ?_ hall
      intro r hr
      have hmem : some r ∈ rows.map some := List.mem_map_of_mem hr
      rw [← Fallible.mapM_eq_some_iff.mp hrows] at hmem
      obtain ⟨x, -, hx⟩ := List.mem_map.mp hmem
      rw [elsewhere, decide_eq_false_iff_not, not_not]
      exact (project_of_insertedRow hx).trans hp

lemma run_self {tool : SharedTool} {ctx : ToolContext} {new : NewRow} {input : Json}
    (hctx : ctx.project_id = n) : SameOutside n (tool.run F s ctx new input).1 s := by
  have hnot {β : Type} {k : Uuid × β} (hk : k.1 = n) : elsewhere n k = false := by
    rw [elsewhere, decide_eq_false_iff_not, not_not]
    exact hk
  simp only [SharedTool.run]
  split
  · exact .refl s
  · cases tool with
    | priorAnalysis | artifactSearch | familySearch | iocSearch | suggestRenames => exact .refl s
    | familyTag =>
      simp only [executeFamilyTag]
      split
      · exact .refl s
      · exact .refl s
      · split
        · exact .refl s
        · split
          · exact .refl s
          · split
            · exact .refl s
            · exact (SameOutside.refl s).setFamilies (Table.restrict_upsert_of_not _ (hnot hctx))
    | familyUntag =>
      simp only [executeFamilyUntag]
      split
      · exact .refl s
      · exact .refl s
      · split
        · exact .refl s
        · refine (SameOutside.refl s).setFamilies (Table.restrict_delete_of_not ?_)
          intro r hr
          rw [Bool.and_eq_true, decide_eq_true_eq] at hr
          apply hnot
          rw [hr.2]
          exact hctx
    | rename =>
      simp only [executeRename]
      split
      · exact .refl s
      · split
        · exact .refl s
        · split
          · exact .refl s
          · split
            · exact .refl s
            · split
              · exact .refl s
              · next t count hupsert =>
                split
                · exact .refl s
                · exact (SameOutside.refl s).setRenames (restrict_upsertRenames hctx hupsert)

/-- What is done in the project does not change the others. -/
lemma step_self {e : KnowledgeEvent} (he : e.project = n) :
    SameOutside n (knowledgeStep F s e).1 s := by
  have hnot {β : Type} {k : Uuid × β} (hk : k.1 = n) : elsewhere n k = false := by
    rw [elsewhere, decide_eq_false_iff_not, not_not]
    exact hk
  cases e with
  | tool tool ctx new input => exact run_self he
  | importRenames user target source sha256 now =>
    simp only [knowledgeStep, importRenames]
    split
    · exact .refl s
    · split
      · exact .refl s
      · refine (SameOutside.refl s).setRenames (Table.restrict_insertMissing_of_not ?_ _)
        intro r hr
        obtain ⟨r', -, rfl⟩ := List.mem_map.mp hr
        exact hnot he
  | change p f =>
    obtain rfl : p = n := he
    exact setOwn_self s _
  | drop p =>
    obtain rfl : p = n := he
    exact dropProject_self s

/-- What is done elsewhere does the same, and is answered in the same way, whatever there is in the
project. -/
lemma step_outside (h : SameOutside n s t) (hs : Nda n s) (ht : Nda n t) {e : KnowledgeEvent}
    (he : e.project ≠ n) :
    SameOutside n (knowledgeStep F s e).1 (knowledgeStep F t e).1 ∧
      (knowledgeStep F s e).2 = (knowledgeStep F t e).2 := by
  cases e with
  | tool tool ctx new input =>
    have hctx : ctx.project_id ≠ n := he
    simp only [knowledgeStep, SharedTool.run]
    split
    · exact ⟨h, rfl⟩
    · cases tool with
      | priorAnalysis => exact ⟨h, executePriorAnalysis_outside h hs ht hctx⟩
      | artifactSearch => exact ⟨h, executeArtifactSearch_outside h hs ht⟩
      | familyTag => exact executeFamilyTag_outside h hctx
      | familySearch => exact ⟨h, executeFamilySearch_outside h hs ht⟩
      | familyUntag => exact executeFamilyUntag_outside h hctx
      | iocSearch => exact ⟨h, executeIocSearch_outside h hs ht⟩
      | suggestRenames => exact ⟨h, executeSuggestRenames_outside h hs ht⟩
      | rename => exact executeRename_outside h hctx
  | importRenames user target source sha256 now => exact importRenames_outside h hs ht he
  | change p f =>
    have hp : p ≠ n := he
    refine ⟨?_, rfl⟩
    rw [knowledgeStep, knowledgeStep, own_outside h hp]
    exact setOwn_outside h _ _
  | drop p =>
    have hp : p ≠ n := he
    refine ⟨dropProject_outside h p, ?_⟩
    simp only [knowledgeStep, exists_outside h hp]

lemma toDirectory_run {tool : SharedTool} {ctx : ToolContext} {new : NewRow} {input : Json} :
    (tool.run F s ctx new input).1.toDirectory = s.toDirectory := by
  simp only [SharedTool.run]
  split
  · rfl
  · cases tool with
    | priorAnalysis | artifactSearch | familySearch | iocSearch | suggestRenames => rfl
    | familyTag =>
      simp only [executeFamilyTag]
      repeat' split
      all_goals rfl
    | familyUntag =>
      simp only [executeFamilyUntag]
      repeat' split
      all_goals rfl
    | rename =>
      simp only [executeRename]
      repeat' split
      all_goals rfl

/-- What is done elsewhere leaves the project under the agreement. -/
lemma nda_step (ht : Nda n t) {e : KnowledgeEvent} (he : e.project ≠ n) :
    Nda n (knowledgeStep F t e).1 := by
  have hset {p : Uuid} (hp : p ≠ n) (own : Own) : Nda n (t.setOwn p own) := by
    intro r hr hid
    rcases List.mem_append.mp hr with hr | hr
    · exact ht r (List.mem_of_mem_filter hr) hid
    · obtain ⟨r', -, rfl⟩ := List.mem_map.mp hr
      exact absurd hid hp
  cases e with
  | tool tool ctx new input =>
    rw [Nda, knowledgeStep, toDirectory_run]
    exact ht
  | importRenames user target source sha256 now =>
    simp only [knowledgeStep, importRenames]
    repeat' split
    all_goals exact ht
  | change p f => exact hset he _
  | drop p => exact fun r hr => ht r (List.mem_of_mem_filter hr)

/-- Users of other projects are answered as if the project had never been touched: nothing that is
done in a project while it is under a non-disclosure agreement has an influence on searches, on
suggestions or on what is taken over. -/
theorem nda_noninterference {es : List KnowledgeEvent}
    (hnda : Throughout (knowledgeStep F) (Nda n) s es) :
    observe (knowledgeStep F) (fun e => e.project = n) s es =
      observe (knowledgeStep F) (fun e => e.project = n) s
        (es.filter fun e => !decide (e.project = n)) ∧
    SameOutside n (final (knowledgeStep F) s es)
      (final (knowledgeStep F) s (es.filter fun e => !decide (e.project = n))) := by
  have hs : Nda n s := by
    cases es with
    | nil => exact hnda
    | cons e es => exact hnda.1
  have hpurge := observe_purge (knowledgeStep F) (fun e => e.project = n) (P := Nda n)
    (R := fun s t => SameOutside n s t ∧ Nda n t) ?_ ?_ hnda ⟨.refl s, hs⟩
  · exact ⟨hpurge.1, hpurge.2.1⟩
  · rintro s t e - ⟨hsame, ht⟩ he -
    exact ⟨(step_self (of_decide_eq_true he)).trans hsame, ht⟩
  · rintro s t e hs ⟨hsame, ht⟩ he -
    have hne : e.project ≠ n := of_decide_eq_false he
    obtain ⟨hsame', hanswer⟩ := step_outside hsame hs ht hne
    exact ⟨⟨hsame', nda_step ht hne⟩, hanswer⟩

end

def plainFormats : Formats where
  parseUuid _ := some 0
  showUuid _ := ""
  showTime _ := ""
  showJson _ := ""
  ilike _ _ := false
  nameLe _ _ := true
  lowercase s := s

/-- Two projects of user 5, the first of them under a non-disclosure agreement. -/
def ndaKnowledge : Knowledge where
  projects := [⟨1, "secret", some 5, true, .obj [], 0⟩, ⟨2, "open", some 5, false, .obj [], 0⟩]
  project_members := []
  artifacts := []
  threads := []
  artifact_families := Table.empty _
  iocs := []
  ghidra_function_renames := Table.empty _

def tagged : Json := .obj [("artifact_id", .str "a"), ("family_name", .str "emotet")]

def tagEvents : List KnowledgeEvent :=
  [.tool .familyTag ⟨1, some 5, none, false⟩ ⟨7, 0⟩ tagged,
    .tool .familySearch ⟨2, some 5, none, false⟩ ⟨8, 0⟩ tagged]

/-- Where a family is tagged in the first project and searched for in the second one. -/
theorem nda_noninterference_tag :
    observe (knowledgeStep plainFormats) (fun e => e.project = 1) ndaKnowledge tagEvents =
      observe (knowledgeStep plainFormats) (fun e => e.project = 1) ndaKnowledge
        [.tool .familySearch ⟨2, some 5, none, false⟩ ⟨8, 0⟩ tagged] := by
  have hnda : Nda 1 ndaKnowledge := by simp [Nda, ndaKnowledge]
  have hthroughout : Throughout (knowledgeStep plainFormats) (Nda 1) ndaKnowledge tagEvents := by
    refine ⟨hnda, ?_, ?_⟩
    · rw [Nda, knowledgeStep, toDirectory_run]
      exact hnda
    · rw [Throughout, Nda, knowledgeStep, toDirectory_run, knowledgeStep, toDirectory_run]
      exact hnda
  exact (nda_noninterference hthroughout).1

end Arbeiterfarm.Access
