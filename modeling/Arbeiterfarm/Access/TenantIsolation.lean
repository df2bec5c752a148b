import Arbeiterfarm.Access.RowPolicies

/-!
# Isolation of projects

Sessions execute statements of any kind, and what is done outside of them happens in between. A
project that is hidden from a set of users is not touched by theirs, in any table whose rows are
visible with their project, and stays hidden from them; and what a session sees is what a database
of its own would hold, in which there is nothing else.
-/

namespace Arbeiterfarm.Access

open Foundation Database Db

inductive TenantEvent where
  /-- A statement in a session of the user. -/
  | statement (u : Uuid) (st : Statement TenantTable Column Uuid TenantData)
  /-- A change outside of the sessions. -/
  | other (db : TenantDb)

def tenantStep (db : TenantDb) : TenantEvent → Option TenantDb
  | .statement u st => tenantPolicy.execute tenantSchema u db st
  | .other db' => some db'

/-! ### Hidden projects -/

section

variable (S : Set Uuid) (q : Uuid)

/-- The project exists, and no user in `S` sees it. -/
structure Sealed (db : TenantDb) : Prop where
  valid : Valid tenantSchema db
  project : ∃ p ∈ db, p.table = .tied .projects ∧ p.id = q
  hidden : ∀ u ∈ S, q ∉ afVisibleProjects u (directory db)

/-- The rows of the project are the same, up to references to rows of other projects that are set to
NULL. -/
structure Untouched (db db' : TenantDb) : Prop where
  mem : ∀ r ∈ db, Belongs db r q → ∃ r' ∈ db', Same tenantSchema r r' ∧ Belongs db' r' q
  of_mem : ∀ r' ∈ db', Belongs db' r' q → ∃ r ∈ db, Same tenantSchema r r' ∧ Belongs db r q

def StatementOf : TenantEvent → Prop
  | .statement u _ => u ∈ S
  | .other _ => False

/-- What is not done by users in `S` does not show the project to them. -/
def KeepsSealed (db : TenantDb) (e : TenantEvent) : Prop :=
  ¬ StatementOf S e → ∀ db', tenantStep db e = some db' → Sealed S q db'

end

variable {S : Set Uuid} {q u : Uuid} {db db' : TenantDb}
  {st : Statement TenantTable Column Uuid TenantData}

lemma untouched_execute (hvalid : Valid tenantSchema db)
    (hhidden : q ∉ afVisibleProjects u (directory db))
    (hproject : ∃ p ∈ db, p.table = .tied .projects ∧ p.id = q)
    (h : tenantPolicy.execute tenantSchema u db st = some db') : Untouched q db db' := by
  have hvalid' := RowPolicy.execute_valid h
  obtain ⟨g, new, hwrites, rfl, -⟩ := RowPolicy.execute_cases (cascadesVisible hvalid) h
  constructor
  · intro r hr hbelongs
    obtain ⟨r', hg, hsame, hbelongs'⟩ := belongs_of_hidden hvalid hwrites hhidden hr hbelongs
    exact ⟨r', List.mem_append_left _ (List.mem_filterMap.mpr ⟨r, hr, hg⟩), hsame, hbelongs'⟩
  · intro r' hr' hbelongs
    exact belongs_of_belongs hvalid hvalid' hwrites hhidden hproject hr' hbelongs

/-- A project whose rows are the same is visible to the same users. -/
lemma Untouched.visible_of_visible (h : Untouched q db db') (hvalid' : Valid tenantSchema db')
    (hvisible : q ∈ afVisibleProjects u (directory db')) :
    q ∈ afVisibleProjects u (directory db) := by
  rcases mem_visible.mp hvisible with ⟨p', hp', htable, rfl, howner⟩ |
    ⟨m', hm', htable, hproject, huser⟩
  · obtain ⟨p, hp, hsame, -⟩ := h.of_mem p' hp' (.project htable)
    refine mem_visible.mpr (.inl ⟨p, hp, hsame.table.symm.trans htable, hsame.id.symm, ?_⟩)
    rw [← hsame.data]
    exact howner
  · obtain ⟨p', hp', hptable, hid⟩ := exists_of_mem_visible hvalid' hvisible
    have hhome : home m'.table = some (.project_id, .tied .projects) := by
      rw [htable]
      rfl
    have hbelongs : Belongs db' m' q :=
      .ref hhome hp' hptable (hid ▸ hproject) (hid ▸ .project hptable)
    obtain ⟨m, hm, hsame, -⟩ := h.of_mem m' hm' hbelongs
    have htable' : m.table = .tied .project_members := hsame.table.symm.trans htable
    refine mem_visible.mpr (.inr ⟨m, hm, htable', ?_, ?_⟩)
    · rw [← ref_home_of_same (t := .tied .projects) hsame (by rw [htable']; rfl)]
      exact hproject
    · rw [← hsame.data]
      exact huser

lemma Sealed.execute (h : Sealed S q db) (hu : u ∈ S)
    (hexecute : tenantPolicy.execute tenantSchema u db st = some db') : Sealed S q db' := by
  have hvalid' := RowPolicy.execute_valid hexecute
  have huntouched := untouched_execute h.valid (h.hidden u hu) h.project hexecute
  refine ⟨hvalid', ?_, ?_⟩
  · obtain ⟨p, hp, htable, rfl⟩ := h.project
    obtain ⟨p', hp', hsame, -⟩ := huntouched.mem p hp (.project htable)
    exact ⟨p', hp', hsame.table.trans htable, hsame.id⟩
  · intro v hv hvisible
    exact h.hidden v hv (huntouched.visible_of_visible hvalid' hvisible)

lemma Sealed.step (h : Sealed S q db) {e : TenantEvent} (hkeeps : KeepsSealed S q db e)
    (hstep : tenantStep db e = some db') : Sealed S q db' := by
  by_cases hof : StatementOf S e
  · cases e with
    | statement u st => exact h.execute hof hstep
    | other db => cases hof
  · exact hkeeps hof db' hstep

/-- A project of user 5 with a thread and an IOC, and one of user 7; a key of user 5. -/
def twoProjects : TenantDb :=
  [⟨.tied .projects, 1, fun _ => none, { user_id := some 5 }⟩,
    ⟨.tied .threads, 1, fun c => if c = .project_id then some 1 else none, {}⟩,
    ⟨.iocs, 1, fun c => if c = .project_id then some 1 else none, {}⟩,
    ⟨.tied .projects, 2, fun _ => none, { user_id := some 7 }⟩,
    ⟨.tied .project_members, 1, fun c => if c = .project_id then some 2 else none,
      { user_id := some 7, role := "owner" }⟩,
    ⟨.api_keys, 1, fun _ => none, { user_id := some 5 }⟩]

/-- No new project takes over a row of one that is gone. Foreign keys leave no such row; the columns
that none checks may still hold the id, and then no new project has it. -/
def NewIds (db db' : TenantDb) : Prop :=
  ∀ p' ∈ db', p'.table = .tied .projects →
    ∀ r ∈ db, home r.table = some (.project_id, .tied .projects) →
      r.ref .project_id = some p'.id → ∃ p ∈ db, p.table = .tied .projects ∧ p.id = p'.id

instance (db db' : TenantDb) : Decidable (NewIds db db') :=
  inferInstanceAs (Decidable (∀ p' ∈ db', _ → ∀ r ∈ db, _ → _ → ∃ p ∈ db, _))

/-- What a row leads to afterwards was there before. -/
lemma exists_of_home (hvalid : Valid tenantSchema db) (hids : NewIds db db') {r : TenantRow}
    (hr : r ∈ db) {c : Column} {t : TenantTable} (hhome : home r.table = some (c, t))
    {p' : TenantRow} (hp' : p' ∈ db') (htable : p'.table = t) (href : r.ref c = some p'.id) :
    ∃ p ∈ db, p.table = t ∧ p.id = p'.id := by
  cases hr' : r.table with
  | tied t' =>
    rw [hr'] at hhome
    obtain ⟨fk, hfk, hchild, hcolumn, hparent⟩ := home_mem_schema hhome
    obtain ⟨p, hp, -, hptable, hpref⟩ :=
      hvalid.refs fk hfk r hr (hr'.trans hchild.symm) (by rw [hcolumn, href]; rfl)
    rw [hcolumn, href, Option.some.injEq] at hpref
    exact ⟨p, hp, hptable.trans hparent, hpref.symm⟩
  | iocs | artifact_families | yara_rules =>
    have hway : home r.table = some (.project_id, .tied .projects) := by
      rw [hr']
      rfl
    obtain ⟨rfl, rfl⟩ := Prod.mk.inj (Option.some.inj (hhome.symm.trans hway))
    exact hids p' hp' htable r hr hway href
  | api_keys | user_quotas | usage_daily =>
    rw [hr'] at hhome
    cases hhome

section

variable {g : TenantRow → Option TenantRow} {new : List TenantRow}

/-- A row that is hidden belongs to the project that it belonged to. -/
lemma belongs_of_kept (hvalid : Valid tenantSchema db)
    (hvalid' : Valid tenantSchema (db.filterMap g ++ new))
    (hids : NewIds db (db.filterMap g ++ new))
    (hwrites : tenantPolicy.Writes tenantSchema u db g new) {r' : TenantRow}
    (h : Belongs (db.filterMap g ++ new) r' q) {r : TenantRow} (hr : r ∈ db)
    (hhidden : visibleRow u db r = false) (hg : g r = some r') : Belongs db r q := by
  obtain ⟨r'', hg', hsame⟩ := hwrites.hidden r hr hhidden
  obtain rfl := Option.some.inj (hg.symm.trans hg')
  induction h generalizing r with
  | @project r' htable =>
    rw [hsame.id]
    exact .project (hsame.table.symm.trans htable)
  | @ref r' p' c t q hhome hp' htable hid _ ih =>
    have hhome' : home r.table = some (c, t) := by
      rw [← hsame.table]
      exact hhome
    have href : r.ref c = some p'.id := (ref_home_of_same hsame hhome').symm.trans hid
    obtain ⟨p, hp, hptable, hid⟩ := exists_of_home hvalid hids hr hhome' hp' htable href
    rw [← hid] at href
    have hnot : visibleRow u db p = false := by
      by_contra hvisible
      rw [Bool.not_eq_false, visibleRow_iff hvalid (scoped_of_home hhome' hptable)] at hvisible
      obtain ⟨q', hq', hbelongs⟩ := hvisible
      have hscoped : Scoped r := .inr ⟨c, t, hhome', fun _ => by rw [href]; rfl⟩
      rw [← Bool.not_eq_true, visibleRow_iff hvalid hscoped] at hhidden
      exact hhidden ⟨q', hq', .ref hhome' hp hptable href hbelongs⟩
    obtain ⟨p'', hgp, hsamep⟩ := hwrites.hidden p hp hnot
    have hsame'' : p'' = p' := hvalid'.eq_of_id
      (List.mem_append_left _ (List.mem_filterMap.mpr ⟨p, hp, hgp⟩)) hp'
      (hsamep.table.trans (hptable.trans htable.symm)) (hsamep.id.trans hid)
    subst hsame''
    exact .ref hhome' hp hptable href (ih hp hnot hgp hgp hsamep)

/-- A row that is hidden stays hidden. -/
lemma hidden_of_kept (hvalid : Valid tenantSchema db)
    (hvalid' : Valid tenantSchema (db.filterMap g ++ new))
    (hids : NewIds db (db.filterMap g ++ new))
    (hwrites : tenantPolicy.Writes tenantSchema u db g new) {r r' : TenantRow} (hr : r ∈ db)
    (hhidden : visibleRow u db r = false) (hg : g r = some r') :
    visibleRow u (db.filterMap g ++ new) r' = false := by
  obtain ⟨r'', hg', hsame⟩ := hwrites.hidden r hr hhidden
  obtain rfl := Option.some.inj (hg.symm.trans hg')
  by_cases hscoped : Scoped r
  swap
  · -- what the policies say of a row of its own is read off the row
    rw [visibleRow_of_not_scoped hscoped] at hhidden
    rw [visibleRow_of_not_scoped (fun h => hscoped ((scoped_iff_of_same hsame).mp h))]
    rw [visibleAlone] at hhidden ⊢
    rw [hsame.table, hsame.data]
    exact hhidden
  rw [← Bool.not_eq_true, visibleRow_iff hvalid' ((scoped_iff_of_same hsame).mpr hscoped)]
  rintro ⟨q, hvisible, hbelongs⟩
  have hbelongs' : Belongs db r q :=
    belongs_of_kept hvalid hvalid' hids hwrites hbelongs hr hhidden hg
  have hq : q ∉ afVisibleProjects u (directory db) := by
    rw [← Bool.not_eq_true, visibleRow_iff hvalid hscoped] at hhidden
    exact fun hq => hhidden ⟨q, hq, hbelongs'⟩
  have huntouched : Untouched q db (db.filterMap g ++ new) := by
    constructor
    · intro r hr hbelongs
      obtain ⟨r', hg, hsame, hbelongs'⟩ := belongs_of_hidden hvalid hwrites hq hr hbelongs
      exact ⟨r', List.mem_append_left _ (List.mem_filterMap.mpr ⟨r, hr, hg⟩), hsame, hbelongs'⟩
    · intro r' hr' hbelongs
      exact belongs_of_belongs hvalid hvalid' hwrites hq (hbelongs'.exists_project hr) hr' hbelongs
  exact hq (huntouched.visible_of_visible hvalid' hvisible)

/-- What a user sees depends on the rows that are seen only. -/
lemma visibleRow_of_view {all seen : TenantDb} (hsub : ∀ r ∈ seen, r ∈ all)
    (hvisible : ∀ r ∈ all, visibleRow u all r = true → r ∈ seen) (hvalid : Valid tenantSchema all)
    (r : TenantRow) : visibleRow u all r = visibleRow u seen r := by
  have hprojects (q : Uuid) : q ∈ afVisibleProjects u (directory all) ↔
      q ∈ afVisibleProjects u (directory seen) := by
    constructor
    · intro hq
      rcases mem_visible.mp hq with ⟨p, hp, htable, hid, howner⟩ | ⟨m, hm, htable, hproject, huser⟩
      · refine mem_visible.mpr (.inl ⟨p, hvisible p hp ?_, htable, hid, howner⟩)
        exact (visibleRow_iff hvalid (.inl htable)).mpr ⟨q, hq, hid ▸ .project htable⟩
      · refine mem_visible.mpr (.inr ⟨m, hvisible m hm ?_, htable, hproject, huser⟩)
        simp [visibleRow, htable, inVisibleProject, hproject, hq]
    · intro hq
      rcases mem_visible.mp hq with ⟨p, hp, hrest⟩ | ⟨m, hm, hrest⟩
      · exact mem_visible.mpr (.inl ⟨p, hsub p hp, hrest⟩)
      · exact mem_visible.mpr (.inr ⟨m, hsub m hm, hrest⟩)
  have hin (r : TenantRow) : inVisibleProject u all r = inVisibleProject u seen r := by
    simp only [inVisibleProject, hprojects]
  have hids {t : TenantTable} {test test' : TenantRow → Bool} (htest : ∀ r, test r = test' r)
      (hseen : ∀ r ∈ all, r.table = t → test r = true → r ∈ seen) (x : Uuid) :
      x ∈ (all.filter fun r => r.table = t && test r).map (·.id) ↔
        x ∈ (seen.filter fun r => r.table = t && test' r).map (·.id) := by
    simp only [List.mem_map, List.mem_filter, Bool.and_eq_true, decide_eq_true_eq]
    constructor
    · rintro ⟨r, ⟨hr, htable, hpass⟩, hid⟩
      exact ⟨r, ⟨hseen r hr htable hpass, htable, htest r ▸ hpass⟩, hid⟩
    · rintro ⟨r, ⟨hr, htable, hpass⟩, hid⟩
      exact ⟨r, ⟨hsub r hr, htable, htest r ▸ hpass⟩, hid⟩
  have hthreads (x : Uuid) : x ∈ afVisibleThreads u all ↔ x ∈ afVisibleThreads u seen :=
    hids hin (fun r hr htable hpass => hvisible r hr (by simp [visibleRow, htable, hpass])) x
  have htoolRuns (x : Uuid) : x ∈ afVisibleToolRuns u all ↔ x ∈ afVisibleToolRuns u seen :=
    hids hin (fun r hr htable hpass => hvisible r hr (by simp [visibleRow, htable, hpass])) x
  have hmessages (x : Uuid) : x ∈ afVisibleMessages u all ↔ x ∈ afVisibleMessages u seen :=
    hids (fun r => by simp only [hthreads])
      (fun r hr htable hpass => hvisible r hr (by rwa [visibleRow, htable])) x
  simp only [visibleRow, hprojects, hin, hthreads, htoolRuns, hmessages]

end

/-- A statement makes of what a session sees what it would make of a database with nothing else. -/
lemma view_execute_tenant (hvalid : Valid tenantSchema db) (hids : NewIds db db')
    (h : tenantPolicy.execute tenantSchema u db st = some db') :
    tenantPolicy.view u db' =
      tenantPolicy.view u (st.effect tenantSchema (tenantPolicy.view u db)) := by
  apply RowPolicy.view_execute (cascadesVisible hvalid) h
  rintro g new hwrites rfl
  have hvalid' := RowPolicy.execute_valid h
  refine ⟨?_, ?_⟩
  · intro r hr hhidden r' hg
    exact hidden_of_kept hvalid hvalid' hids hwrites hr hhidden hg
  · intro r _
    refine visibleRow_of_view ?_ ?_ hvalid' r
    · intro r hr
      rcases List.mem_append.mp hr with hr | hr
      · obtain ⟨r₀, hr₀, hg⟩ := List.mem_filterMap.mp hr
        exact List.mem_append_left _
          (List.mem_filterMap.mpr ⟨r₀, (List.mem_filter.mp hr₀).1, hg⟩)
      · exact List.mem_append_right _ hr
    · intro r hr hvisible
      rcases List.mem_append.mp hr with hr | hr
      · obtain ⟨r₀, hr₀, hg⟩ := List.mem_filterMap.mp hr
        apply List.mem_append_left
        refine List.mem_filterMap.mpr ⟨r₀, List.mem_filter.mpr ⟨hr₀, ?_⟩, hg⟩
        by_contra hhidden
        rw [Bool.not_eq_true] at hhidden
        rw [hidden_of_kept hvalid hvalid' hids hwrites hr₀ hhidden hg] at hvisible
        cases hvisible
      · exact List.mem_append_right _ hr

/-- What the user's own statements make of a database that nobody else writes to. -/
def privateStep (u : Uuid) (db : TenantDb) : TenantEvent → TenantDb
  | .statement v st => if v = u then tenantPolicy.view u (st.effect tenantSchema db) else db
  | .other _ => db

/-- What is not done by the user leaves a valid database and what the user sees as it is; the user's
own statements take new ids for new projects. -/
structure KeepsView (u : Uuid) (db : TenantDb) (e : TenantEvent) : Prop where
  others : ¬ StatementOf {u} e → ∀ db', tenantStep db e = some db' →
    Valid tenantSchema db' ∧ tenantPolicy.view u db' = tenantPolicy.view u db
  own : StatementOf {u} e → ∀ db', tenantStep db e = some db' → NewIds db db'

def privateEvents : List TenantEvent :=
  [.statement 5 (.insert fun _ =>
    [⟨.tied .threads, 2, fun c => if c = .project_id then some 1 else none, {}⟩]),
    .statement 7 (.delete fun _ r => r.table = .tied .project_members),
    .statement 7 (.insert fun _ => [⟨.tied .projects, 3, fun _ => none, { user_id := some 7 }⟩])]

end Arbeiterfarm.Access
