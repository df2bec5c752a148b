import Arbeiterfarm.Access.Membership
import Arbeiterfarm.Db.Deletes
import Arbeiterfarm.Foundation.Exec
import Arbeiterfarm.Foundation.RowSecurity
import Mathlib.Data.Set.Insert

/-!
# The row policies of projects

In a session of a user, the rows of a project and of what belongs to it are visible if the project
is, and a user's keys, quotas and usage are visible to that user. Some tables have no policies: the
rows of `project_hooks`, `notification_channels`, `notification_queue`, `embeddings`, `embed_queue`,
`url_ingest_queue`, `web_fetch_rules`, `email_recipient_rules`, `email_scheduled`, `email_log`,
`thread_memory` and `llm_usage_log` are visible to everyone, whatever project they refer to.
-/

namespace Arbeiterfarm.Access

open Foundation Database Db

/-! ### Rows -/

/-- The tables that foreign keys tie to projects, and the other tables with policies. -/
inductive TenantTable where
  | tied (t : TableName)
  | iocs | artifact_families | yara_rules
  | api_keys | user_quotas | usage_daily
  deriving DecidableEq, Repr

/-- The foreign keys: the columns `project_id` of the other tables are not checked. -/
def tenantSchema : List (ForeignKey TenantTable Column) :=
  schema.map fun fk => ⟨.tied fk.child, fk.column, .tied fk.parent, fk.on_delete⟩

/-- The columns that the policies and the check of roles read, and the others. -/
structure TenantData where
  /-- The owner of a project, or the user of a member, a key, a quota or a day's usage. -/
  user_id : Option Uuid := none
  name : String := ""
  nda : Bool := false
  settings : Json := .null
  role : String := ""
  created_at : ℤ := 0
  fields : Json := .null

abbrev TenantRow := DbRow TenantTable Column Uuid TenantData

abbrev TenantDb := Database TenantTable Column Uuid TenantData

def projectOf (r : TenantRow) : Option ProjectRow :=
  if r.table = .tied .projects then
    some ⟨r.id, r.data.name, r.data.user_id, r.data.nda, r.data.settings, r.data.created_at⟩
  else none

def memberOf (r : TenantRow) : Option ProjectMemberRow :=
  if r.table = .tied .project_members then
    match r.ref .project_id, r.data.user_id with
    | some project_id, some user_id => some ⟨project_id, user_id, r.data.role⟩
    | _, _ => none
  else none

def directory (db : TenantDb) : Directory where
  projects := db.filterMap projectOf
  project_members := db.filterMap memberOf

/-! ### The policies -/

section

variable (u : Uuid) (db : TenantDb)

/-- `project_id IN (SELECT af_visible_projects())` -/
def inVisibleProject (r : TenantRow) : Bool :=
  (r.ref .project_id).any fun p => p ∈ afVisibleProjects u (directory db)

/-- `af_visible_threads()` -/
def afVisibleThreads : List Uuid :=
  (db.filter fun r => r.table = .tied .threads && inVisibleProject u db r).map (·.id)

/-- `af_visible_tool_runs()` -/
def afVisibleToolRuns : List Uuid :=
  (db.filter fun r => r.table = .tied .tool_runs && inVisibleProject u db r).map (·.id)

/-- `af_visible_messages()` -/
def afVisibleMessages : List Uuid :=
  (db.filter fun r => r.table = .tied .messages &&
    (r.ref .thread_id).any fun t => t ∈ afVisibleThreads u db).map (·.id)

/-- The rows that the policies let a user select, update and delete. -/
def visibleRow (r : TenantRow) : Bool :=
  match r.table with
  | .tied .projects => r.id ∈ afVisibleProjects u (directory db)
  | .tied .threads | .tied .artifacts | .tied .tool_runs | .tied .project_members
  | .tied .ghidra_function_renames | .iocs | .artifact_families => inVisibleProject u db r
  | .yara_rules => (r.ref .project_id).isNone || inVisibleProject u db r
  | .tied .messages => (r.ref .thread_id).any fun t => t ∈ afVisibleThreads u db
  | .tied .tool_run_artifacts | .tied .tool_run_events =>
    (r.ref .tool_run_id).any fun t => t ∈ afVisibleToolRuns u db
  | .tied .message_evidence => (r.ref .message_id).any fun m => m ∈ afVisibleMessages u db
  | .api_keys | .user_quotas | .usage_daily => r.data.user_id = some u
  | .tied _ => true

/-- A new project is owned by the user. -/
def insertableRow (r : TenantRow) : Bool :=
  match r.table with
  | .tied .projects => r.data.user_id = some u
  | _ => visibleRow u db r

end

/-- The policies for updates have no check of their own, so that the new row must be visible. -/
def tenantPolicy : RowPolicy Uuid TenantTable Column Uuid TenantData where
  visible := visibleRow
  insertable := insertableRow
  updatable := visibleRow

/-! ### The project that a row belongs to -/

/-- The column that leads from a row to its project, and the table that it leads to. -/
def home : TenantTable → Option (Column × TenantTable)
  | .tied .threads | .tied .artifacts | .tied .tool_runs | .tied .project_members
  | .tied .ghidra_function_renames | .iocs | .artifact_families | .yara_rules =>
    some (.project_id, .tied .projects)
  | .tied .messages => some (.thread_id, .tied .threads)
  | .tied .tool_run_artifacts | .tied .tool_run_events => some (.tool_run_id, .tied .tool_runs)
  | .tied .message_evidence => some (.message_id, .tied .messages)
  | _ => none

/-- The row is in a table whose rows are visible with their project, and leads to this one. -/
inductive Belongs (db : TenantDb) : TenantRow → Uuid → Prop
  | project {r : TenantRow} (h : r.table = .tied .projects) : Belongs db r r.id
  | ref {r p : TenantRow} {c : Column} {t : TenantTable} {q : Uuid}
      (hhome : home r.table = some (c, t)) (hp : p ∈ db) (htable : p.table = t)
      (hid : r.ref c = some p.id) (h : Belongs db p q) : Belongs db r q

/-- The rows that are visible with their project. A YARA rule without a project is a global one. -/
def Scoped (r : TenantRow) : Prop :=
  r.table = .tied .projects ∨
    ∃ c t, home r.table = some (c, t) ∧ (r.table = .yara_rules → (r.ref c).isSome = true)

/-- What the policies say of the other rows. -/
def visibleAlone (u : Uuid) (r : TenantRow) : Bool :=
  match r.table with
  | .api_keys | .user_quotas | .usage_daily => r.data.user_id = some u
  | _ => true

variable {u : Uuid} {db : TenantDb} {r : TenantRow} {q q' : Uuid}

lemma visibleRow_of_not_scoped (h : ¬ Scoped r) : visibleRow u db r = visibleAlone u r := by
  unfold visibleRow visibleAlone
  split <;> simp_all [Scoped, home]

lemma home_mem_schema {t : TableName} {t' : TenantTable} {c : Column}
    (h : home (.tied t) = some (c, t')) :
    ∃ fk ∈ tenantSchema, fk.child = .tied t ∧ fk.column = c ∧ fk.parent = t' := by
  revert h
  cases t <;> simp only [home, Option.some.injEq, Prod.mk.injEq, reduceCtorEq, false_implies] <;>
    rintro ⟨rfl, rfl⟩ <;> decide

lemma scoped_of_home {t t' : TenantTable} {c : Column} (h : home t = some (c, t'))
    (htable : r.table = t') : Scoped r := by
  unfold home at h
  split at h <;> cases h <;> simp [Scoped, home, htable]

/-- The column that leads to the project is never set to NULL. -/
lemma home_not_setNull {t t' : TenantTable} {c : Column} (h : home t = some (c, t')) :
    ∀ fk ∈ tenantSchema, fk.on_delete = .setNull → fk.child = t → fk.column ≠ c := by
  have hall : ∀ fk ∈ tenantSchema, fk.on_delete = .setNull →
      ∀ way ∈ home fk.child, fk.column ≠ way.1 := by decide
  rintro fk hfk hon rfl
  exact hall fk hfk hon _ h

lemma ref_home_of_same {r r' : TenantRow} (h : Same tenantSchema r r') {t : TenantTable}
    {c : Column} (hhome : home r.table = some (c, t)) : r'.ref c = r.ref c :=
  h.ref c (home_not_setNull hhome)

lemma scoped_iff_of_same {r r' : TenantRow} (h : Same tenantSchema r r') :
    Scoped r' ↔ Scoped r := by
  unfold Scoped
  rw [h.table]
  refine or_congr_right (exists_congr fun c => exists_congr fun t =>
    and_congr_right fun hhome => ?_)
  rw [ref_home_of_same h hhome]

/-- Where the keys are unique, a row belongs to one project. -/
lemma Belongs.unique (hvalid : Valid tenantSchema db) (h : Belongs db r q) (h' : Belongs db r q') :
    q = q' := by
  induction h with
  | project htable =>
    cases h' with
    | project _ => rfl
    | ref hhome _ _ _ _ =>
      rw [htable] at hhome
      cases hhome
  | ref hhome hp htable hid _ ih =>
    cases h' with
    | project htable' =>
      rw [htable'] at hhome
      cases hhome
    | ref hhome' hp' htable' hid' h' =>
      rw [hhome, Option.some.injEq, Prod.mk.injEq] at hhome'
      obtain ⟨rfl, rfl⟩ := hhome'
      rw [hid, Option.some.injEq] at hid'
      obtain rfl := hvalid.eq_of_id hp hp' (htable.trans htable'.symm) hid'
      exact ih h'

lemma Belongs.exists_project (h : Belongs db r q) (hr : r ∈ db) :
    ∃ p ∈ db, p.table = .tied .projects ∧ p.id = q := by
  induction h with
  | project htable => exact ⟨_, hr, htable, rfl⟩
  | ref _ hp _ _ _ ih => exact ih hp

/-! ### What is visible -/

lemma mem_visible : q ∈ afVisibleProjects u (directory db) ↔
    (∃ p ∈ db, p.table = .tied .projects ∧ p.id = q ∧ p.data.user_id = some u) ∨
      ∃ m ∈ db, m.table = .tied .project_members ∧ m.ref .project_id = some q ∧
        (m.data.user_id = some u ∨ m.data.user_id = some allUsersSentinel) := by
  rw [mem_afVisibleProjects]
  apply or_congr
  · constructor
    · rintro ⟨p, hp, howner, hid⟩
      obtain ⟨r, hr, hof⟩ := List.mem_filterMap.mp hp
      rw [projectOf] at hof
      split at hof <;> cases hof
      next htable => exact ⟨r, hr, htable, hid, howner⟩
    · rintro ⟨r, hr, htable, hid, howner⟩
      have hof : projectOf r = some ⟨r.id, r.data.name, r.data.user_id, r.data.nda,
          r.data.settings, r.data.created_at⟩ := if_pos htable
      exact ⟨_, List.mem_filterMap.mpr ⟨r, hr, hof⟩, howner, hid⟩
  · constructor
    · rintro ⟨m, hm, huser, hid⟩
      obtain ⟨r, hr, hof⟩ := List.mem_filterMap.mp hm
      rw [memberOf] at hof
      split at hof
      · next htable =>
        split at hof <;> cases hof
        next hproject hwho =>
        refine ⟨r, hr, htable, hproject.trans (congrArg some hid), ?_⟩
        rw [hwho, Option.some.injEq, Option.some.injEq]
        exact huser
      · cases hof
    · rintro ⟨r, hr, htable, hproject, huser⟩
      obtain ⟨w, hw⟩ : ∃ w, r.data.user_id = some w := by
        rcases huser with h | h <;> exact ⟨_, h⟩
      refine ⟨⟨q, w, r.data.role⟩, List.mem_filterMap.mpr ⟨r, hr, ?_⟩, ?_, rfl⟩
      · rw [memberOf, if_pos htable, hproject, hw]
      · rw [hw, Option.some.injEq, Option.some.injEq] at huser
        exact huser

/-- A visible project exists. -/
lemma exists_of_mem_visible (hvalid : Valid tenantSchema db)
    (h : q ∈ afVisibleProjects u (directory db)) :
    ∃ p ∈ db, p.table = .tied .projects ∧ p.id = q := by
  rcases mem_visible.mp h with ⟨p, hp, htable, hid, -⟩ | ⟨m, hm, htable, hproject, -⟩
  · exact ⟨p, hp, htable, hid⟩
  · obtain ⟨p, hp, hrefers⟩ := hvalid.refs
      ⟨.tied .project_members, .project_id, .tied .projects, .noAction⟩ (by decide) m hm htable
      (by rw [hproject]; rfl)
    exact ⟨p, hp, hrefers.2.1, Option.some.inj (hrefers.2.2.symm.trans hproject)⟩

lemma inVisibleProject_iff (hvalid : Valid tenantSchema db)
    (hhome : home r.table = some (.project_id, .tied .projects)) : inVisibleProject u db r = true ↔
      ∃ q ∈ afVisibleProjects u (directory db), Belongs db r q := by
  simp only [inVisibleProject, Option.any_eq_true, decide_eq_true_eq]
  constructor
  · rintro ⟨q, hproject, hvisible⟩
    obtain ⟨p, hp, htable, rfl⟩ := exists_of_mem_visible hvalid hvisible
    exact ⟨p.id, hvisible, .ref hhome hp htable hproject (.project htable)⟩
  · rintro ⟨q, hvisible, hbelongs⟩
    cases hbelongs with
    | project htable =>
      rw [htable] at hhome
      cases hhome
    | ref hhome' _ htable hid h =>
      rw [hhome, Option.some.injEq, Prod.mk.injEq] at hhome'
      obtain ⟨rfl, rfl⟩ := hhome'
      cases h with
      | project _ => exact ⟨_, hid, hvisible⟩
      | ref hhome _ _ _ _ =>
        rw [htable] at hhome
        cases hhome

/-- A reference to one of the visible rows of a table. -/
lemma any_mem_iff {c : Column} {t : TenantTable} {test : TenantRow → Bool}
    (hhome : home r.table = some (c, t))
    (htest : ∀ p ∈ db, p.table = t →
      (test p = true ↔ ∃ q ∈ afVisibleProjects u (directory db), Belongs db p q)) :
    ((r.ref c).any fun x =>
      x ∈ (db.filter fun p => p.table = t && test p).map (·.id)) = true ↔
        ∃ q ∈ afVisibleProjects u (directory db), Belongs db r q := by
  simp only [Option.any_eq_true, decide_eq_true_eq, List.mem_map, List.mem_filter,
    Bool.and_eq_true]
  constructor
  · rintro ⟨x, href, p, ⟨hp, htable, hpass⟩, rfl⟩
    obtain ⟨q, hvisible, hbelongs⟩ := (htest p hp htable).mp hpass
    exact ⟨q, hvisible, .ref hhome hp htable href hbelongs⟩
  · rintro ⟨q, hvisible, hbelongs⟩
    cases hbelongs with
    | project htable =>
      rw [htable] at hhome
      cases hhome
    | ref hhome' hp htable hid h =>
      rw [hhome, Option.some.injEq, Prod.mk.injEq] at hhome'
      obtain ⟨rfl, rfl⟩ := hhome'
      exact ⟨_, hid, _, ⟨hp, htable, (htest _ hp htable).mpr ⟨q, hvisible, h⟩⟩, rfl⟩

/-- The rows that are visible with their project are those that belong to visible projects. -/
theorem visibleRow_iff (hvalid : Valid tenantSchema db) (hscoped : Scoped r) :
    visibleRow u db r = true ↔ ∃ q ∈ afVisibleProjects u (directory db), Belongs db r q := by
  have hthreads (p : TenantRow) (_ : p ∈ db) (h : p.table = .tied .threads) :=
    inVisibleProject_iff (u := u) hvalid (r := p) (by rw [h]; rfl)
  have htoolRuns (p : TenantRow) (_ : p ∈ db) (h : p.table = .tied .tool_runs) :=
    inVisibleProject_iff (u := u) hvalid (r := p) (by rw [h]; rfl)
  have hmessages (p : TenantRow) (_ : p ∈ db) (h : p.table = .tied .messages) :=
    any_mem_iff (u := u) (r := p) (c := .thread_id) (by rw [h]; rfl) hthreads
  unfold visibleRow
  split
  · next htable =>
    rw [decide_eq_true_eq]
    refine ⟨fun h => ⟨r.id, h, .project htable⟩, ?_⟩
    rintro ⟨q, hvisible, hbelongs⟩
    cases hbelongs with
    | project _ => exact hvisible
    | ref hhome _ _ _ _ =>
      rw [htable] at hhome
      cases hhome
  · next htable => exact inVisibleProject_iff hvalid (by rw [htable]; rfl)
  · next htable => exact inVisibleProject_iff hvalid (by rw [htable]; rfl)
  · next htable => exact inVisibleProject_iff hvalid (by rw [htable]; rfl)
  · next htable => exact inVisibleProject_iff hvalid (by rw [htable]; rfl)
  · next htable => exact inVisibleProject_iff hvalid (by rw [htable]; rfl)
  · next htable => exact inVisibleProject_iff hvalid (by rw [htable]; rfl)
  · next htable => exact inVisibleProject_iff hvalid (by rw [htable]; rfl)
  · next htable =>
    have hhome : home r.table = some (.project_id, .tied .projects) := by
      rw [htable]
      rfl
    -- the policy shows global rules as well, and these belong to no project
    have hsome : (r.ref .project_id).isNone = false := by
      simpa [Scoped, htable, home] using hscoped
    rw [hsome, Bool.false_or]
    exact inVisibleProject_iff hvalid hhome
  · next htable => exact any_mem_iff (by rw [htable]; rfl) hthreads
  · next htable => exact any_mem_iff (by rw [htable]; rfl) htoolRuns
  · next htable => exact any_mem_iff (by rw [htable]; rfl) htoolRuns
  · next htable => exact any_mem_iff (by rw [htable]; rfl) hmessages
  all_goals simp_all [Scoped, home]

/-! ### A statement under the policies -/

/-- A cascade into a row that is visible with its project comes from the project. -/
lemma home_of_cascade : ∀ fk ∈ tenantSchema, fk.on_delete = .cascade →
    fk.child ≠ .tied .projects ∧ visibleAlone u ⟨fk.child, r.id, r.ref, r.data⟩ = true ∧
      ((home fk.child).isSome = true → home fk.child = some (fk.column, fk.parent)) := by
  simp only [tenantSchema, List.forall_mem_map]
  intro fk hfk hon
  refine ⟨?_, rfl, ?_⟩ <;> revert fk <;> decide

lemma cascadesVisible (hvalid : Valid tenantSchema db) :
    tenantPolicy.CascadesVisible tenantSchema u db := by
  intro fk hfk hon r hr p hp hrefers hvisible
  obtain ⟨hchild, hparent, href⟩ := hrefers
  obtain ⟨hprojects, halone, hcascade⟩ := home_of_cascade (u := u) (r := r) fk hfk hon
  by_cases hscoped : Scoped r
  · rcases hscoped with htable | ⟨c, t, hhome, hrule⟩
    · exact absurd (hchild.symm.trans htable) hprojects
    · have hway : home r.table = some (fk.column, fk.parent) := by
        rw [hchild]
        exact hcascade (by rw [← hchild, hhome]; rfl)
      obtain ⟨q, hq, hbelongs⟩ :=
        (visibleRow_iff hvalid (scoped_of_home hway hparent)).mp hvisible
      exact (visibleRow_iff hvalid (.inr ⟨c, t, hhome, hrule⟩)).mpr
        ⟨q, hq, .ref hway hp hparent href hbelongs⟩
  · rw [← hchild] at halone
    exact (visibleRow_of_not_scoped hscoped).trans halone

section

variable {db' : TenantDb} {g : TenantRow → Option TenantRow} {new : List TenantRow}

/-- A row that a statement writes and that refers to its project belongs to a visible one. -/
lemma belongs_of_written (hvalid : Valid tenantSchema db)
    (hwrites : tenantPolicy.Writes tenantSchema u db g new) {r' : TenantRow}
    (hr' : r' ∈ db.filterMap g ++ new) {c : Column} {t : TenantTable}
    (hhome : home r'.table = some (c, t)) (href : (r'.ref c).isSome = true) :
    (∃ r ∈ db, Same tenantSchema r r') ∨
      ∃ q ∈ afVisibleProjects u (directory db), Belongs db r' q := by
  have hscoped : Scoped r' := .inr ⟨c, t, hhome, fun _ => href⟩
  rcases List.mem_append.mp hr' with hr' | hr'
  · obtain ⟨r, hr, hg⟩ := List.mem_filterMap.mp hr'
    cases hvisible : visibleRow u db r with
    | true =>
      rcases hwrites.visible r hr hvisible r' hg with hsame | ⟨-, hupdatable⟩
      · exact .inl ⟨r, hr, hsame⟩
      · exact .inr ((visibleRow_iff hvalid hscoped).mp hupdatable)
    | false =>
      obtain ⟨r'', hg', hsame⟩ := hwrites.hidden r hr hvisible
      obtain rfl := Option.some.inj (hg.symm.trans hg')
      exact .inl ⟨r, hr, hsame⟩
  · right
    have hinsertable : insertableRow u db r' = true := hwrites.new r' hr'
    apply (visibleRow_iff hvalid hscoped).mp
    unfold insertableRow at hinsertable
    split at hinsertable
    · next htable =>
      rw [htable] at hhome
      cases hhome
    · exact hinsertable

/-- A row of a project that is hidden from the user stays the same and in the project. -/
lemma belongs_of_hidden (hvalid : Valid tenantSchema db)
    (hwrites : tenantPolicy.Writes tenantSchema u db g new)
    (hhidden : q ∉ afVisibleProjects u (directory db)) (hr : r ∈ db) (h : Belongs db r q) :
    ∃ r', g r = some r' ∧ Same tenantSchema r r' ∧ Belongs (db.filterMap g ++ new) r' q := by
  have hnot {r : TenantRow} (hscoped : Scoped r) (h : Belongs db r q) :
      visibleRow u db r = false := by
    rw [← Bool.not_eq_true, visibleRow_iff hvalid hscoped]
    rintro ⟨q', hq', h'⟩
    exact hhidden (h.unique hvalid h' ▸ hq')
  induction h with
  | @project r htable =>
    obtain ⟨r', hg, hsame⟩ := hwrites.hidden r hr (hnot (.inl htable) (.project htable))
    refine ⟨r', hg, hsame, ?_⟩
    rw [← hsame.id]
    exact .project (hsame.table.trans htable)
  | @ref r p c t q hhome hp htable hid hbelongs ih =>
    obtain ⟨p', hgp, hsamep, hbelongsp⟩ := ih hhidden hp hnot
    obtain ⟨r', hg, hsame⟩ := hwrites.hidden r hr
      (hnot (.inr ⟨c, t, hhome, fun _ => by rw [hid]; rfl⟩) (.ref hhome hp htable hid hbelongs))
    refine ⟨r', hg, hsame, .ref (c := c) ?_
      (List.mem_append_left _ (List.mem_filterMap.mpr ⟨p, hp, hgp⟩))
      (hsamep.table.trans htable) ?_ hbelongsp⟩
    · rw [hsame.table]
      exact hhome
    · rw [ref_home_of_same hsame hhome, hsamep.id]
      exact hid

/-- Nothing comes into a project that is hidden from the user. -/
lemma belongs_of_belongs (hvalid : Valid tenantSchema db)
    (hvalid' : Valid tenantSchema (db.filterMap g ++ new))
    (hwrites : tenantPolicy.Writes tenantSchema u db g new)
    (hhidden : q ∉ afVisibleProjects u (directory db))
    (hproject : ∃ p ∈ db, p.table = .tied .projects ∧ p.id = q) {r' : TenantRow}
    (hr' : r' ∈ db.filterMap g ++ new) (h : Belongs (db.filterMap g ++ new) r' q) :
    ∃ r ∈ db, Same tenantSchema r r' ∧ Belongs db r q := by
  induction h with
  | @project r' htable =>
    obtain ⟨p, hp, hptable, hid⟩ := hproject
    have hbelongs : Belongs db p r'.id := hid ▸ .project hptable
    obtain ⟨p', hg, hsame, -⟩ := belongs_of_hidden hvalid hwrites hhidden hp hbelongs
    have hp' : p' ∈ db.filterMap g ++ new :=
      List.mem_append_left _ (List.mem_filterMap.mpr ⟨p, hp, hg⟩)
    obtain rfl := hvalid'.eq_of_id hp' hr' (hsame.table.trans (hptable.trans htable.symm))
      (hsame.id.trans hid)
    exact ⟨p, hp, hsame, hbelongs⟩
  | @ref r' p' c t q hhome hp' htable hid _ ih =>
    obtain ⟨p, hp, hsamep, hbelongsp⟩ := ih hhidden hproject hp'
    have hptable : p.table = t := hsamep.table.symm.trans htable
    rcases belongs_of_written hvalid hwrites hr' hhome (by rw [hid]; rfl) with
      ⟨r, hr, hsame⟩ | ⟨q', hvisible, hbelongs⟩
    · have hhome' : home r.table = some (c, t) := by
        rw [← hsame.table]
        exact hhome
      refine ⟨r, hr, hsame, .ref hhome' hp hptable ?_ hbelongsp⟩
      rw [← ref_home_of_same hsame hhome', hid, hsamep.id]
    · have hbelongs' : Belongs db r' q := .ref hhome hp hptable (hsamep.id ▸ hid) hbelongsp
      exact absurd (hbelongs'.unique hvalid hbelongs ▸ hvisible) hhidden

end

end Arbeiterfarm.Access
