import Arbeiterfarm.Core.Json
import Mathlib.Data.List.Dedup
import Mathlib.Data.List.TFAE
import Mathlib.Tactic.TFAE

/-!
# Roles in projects

A user may do in a project what the role allows that the project gives to the user or to everyone;
the owner may do everything. Which projects a user sees is computed three times: by the function
that the row policies call, by the query that lists them, and by the check before each request.
-/

namespace Arbeiterfarm.Access

/-! ### Roles -/

inductive ProjectRole where
  | owner | manager | collaborator | viewer
  deriving DecidableEq, Repr

inductive Action where
  | read | write | delete | manageMembers
  deriving DecidableEq, Repr

inductive AuthzError where
  | forbidden (msg : String)
  | notMember
  | dbError (msg : String)
  deriving DecidableEq, Repr

namespace ProjectRole

def fromStr : String → Option ProjectRole
  | "owner"        => some .owner
  | "manager"      => some .manager
  | "collaborator" => some .collaborator
  | "viewer"       => some .viewer
  | _              => none

def allows : ProjectRole → Action → Bool
  | .owner, _             => true
  | .manager, action      => action = .read || action = .write || action = .manageMembers
  | .collaborator, action => action = .read || action = .write
  | .viewer, action       => action = .read

/-- The higher of two roles is picked by it. -/
def priority : ProjectRole → ℕ
  | .owner        => 4
  | .manager      => 3
  | .collaborator => 2
  | .viewer       => 1

def debug : ProjectRole → String
  | .owner        => "Owner"
  | .manager      => "Manager"
  | .collaborator => "Collaborator"
  | .viewer       => "Viewer"

/-- A higher role allows more. -/
lemma allows_of_priority_le {r r' : ProjectRole} (action : Action)
    (h : r.priority ≤ r'.priority) (hallows : r.allows action = true) :
    r'.allows action = true := by
  cases r <;> cases r' <;> cases action <;> simp_all [allows, priority]

@[simp] lemma allows_read (r : ProjectRole) : r.allows .read = true := by
  cases r <;> rfl

end ProjectRole

def Action.debug : Action → String
  | .read          => "Read"
  | .write         => "Write"
  | .delete        => "Delete"
  | .manageMembers => "ManageMembers"

/-! ### Projects and their members -/

/-- The user `@all`. -/
def allUsersSentinel : Uuid := 0

structure ProjectRow where
  id : Uuid
  name : String
  owner_id : Option Uuid
  nda : Bool
  settings : Json
  created_at : ℤ
  deriving DecidableEq, Repr

structure ProjectMemberRow where
  project_id : Uuid
  user_id : Uuid
  role : String
  deriving DecidableEq, Repr

structure Directory where
  projects : List ProjectRow
  project_members : List ProjectMemberRow
  deriving DecidableEq, Repr

namespace Directory

/-- `SELECT … FROM projects WHERE id = $1` -/
def getProject (db : Directory) (id : Uuid) : Option ProjectRow :=
  db.projects.find? fun p => p.id = id

/-- `SELECT role FROM project_members WHERE project_id = $1 AND user_id = $2` -/
def getRole (db : Directory) (project_id user_id : Uuid) : Option String :=
  (db.project_members.find? fun m => m.project_id = project_id && m.user_id = user_id).map (·.role)

/-- What the constraints of the tables say: the keys are unique, a member is one of a project, and a
role is one of the four. -/
structure Valid (db : Directory) : Prop where
  projects : (db.projects.map (·.id)).Nodup
  members : (db.project_members.map fun m => (m.project_id, m.user_id)).Nodup
  refs : ∀ m ∈ db.project_members, ∃ p ∈ db.projects, p.id = m.project_id
  roles : ∀ m ∈ db.project_members, (ProjectRole.fromStr m.role).isSome = true

end Directory

/-- The higher of the role of a user and the role of everyone. -/
def effectiveRole (direct all : Option String) : Option ProjectRole :=
  match direct.bind ProjectRole.fromStr, all.bind ProjectRole.fromStr with
  | some d, some a => if d.priority ≥ a.priority then some d else some a
  | some d, none   => some d
  | none, some a   => some a
  | none, none     => none

/-- The end of the check, when both roles have been read. -/
def decideRole (direct all : Option String) (required : Action) : Except AuthzError Unit :=
  match effectiveRole direct all with
  | none => .error .notMember
  | some role =>
    if role.allows required then .ok ()
    else .error (.forbidden (role.debug ++ " role cannot perform " ++ required.debug))

def checkProjectAccess (db : Directory) (user_id project_id : Uuid) (required : Action) :
    Except AuthzError Unit :=
  match db.getProject project_id with
  | none => .error (.forbidden "project not found")
  | some p =>
    if p.owner_id = some user_id then .ok ()
    else
      decideRole (db.getRole project_id user_id) (db.getRole project_id allUsersSentinel) required

/-! ### Visible projects -/

/-- `af_visible_projects()` -/
def afVisibleProjects (user_id : Uuid) (db : Directory) : List Uuid :=
  ((db.projects.filter fun p => p.owner_id = some user_id).map (·.id) ++
    (db.project_members.filter fun m => m.user_id = user_id).map (·.project_id) ++
    (db.project_members.filter fun m => m.user_id = allUsersSentinel).map (·.project_id)).dedup

/-- What a session of the user sees of the two tables. -/
def Directory.seenBy (user_id : Uuid) (db : Directory) : Directory where
  projects := db.projects.filter fun p => p.id ∈ afVisibleProjects user_id db
  project_members :=
    db.project_members.filter fun m => m.project_id ∈ afVisibleProjects user_id db

/-- The members that a project is joined with, or `NULL`. -/
def joinMembers (user_id : Uuid) (db : Directory) (p : ProjectRow) :
    List (ProjectRow × Option ProjectMemberRow) :=
  let joined := db.project_members.filter fun m =>
    m.project_id = p.id && (m.user_id = user_id || m.user_id = allUsersSentinel)
  if joined.isEmpty then [(p, none)] else joined.map fun m => (p, some m)

def listProjectsForUser (user_id : Uuid) (db : Directory) : List ProjectRow :=
  ((((db.projects.flatMap (joinMembers user_id db)).filter fun x =>
    x.1.owner_id = some user_id || x.2.isSome).map (·.1)).dedup).mergeSort
      fun p q => q.created_at ≤ p.created_at

/-! ### What the check says -/

variable {db : Directory} {user_id project_id : Uuid} {required : Action}

/-- A role that a user has in a project allows the action. -/
def RoleAllows (role : Option String) (required : Action) : Prop :=
  ∃ r, role.bind ProjectRole.fromStr = some r ∧ r.allows required = true

/-- One of the two roles is enough: the higher one allows what the lower one does. -/
lemma decideRole_ok_iff {direct all : Option String} :
    decideRole direct all required = .ok () ↔
      RoleAllows direct required ∨ RoleAllows all required := by
  simp only [decideRole, effectiveRole, RoleAllows]
  cases hdirect : direct.bind ProjectRole.fromStr with
  | none => cases all.bind ProjectRole.fromStr <;> simp
  | some d =>
    cases hall : all.bind ProjectRole.fromStr with
    | none => simp
    | some a =>
      by_cases hle : d.priority ≥ a.priority
      · simp only [if_pos hle, Option.some.injEq, exists_eq_left']
        have h := ProjectRole.allows_of_priority_le required hle
        split <;> simp_all
      · simp only [if_neg hle, Option.some.injEq, exists_eq_left']
        have h := ProjectRole.allows_of_priority_le required
          (Nat.le_of_lt (Nat.lt_of_not_ge hle))
        split <;> simp_all

/-- A user may act as the owner, by a role of its own or by the role of everyone. -/
lemma checkProjectAccess_ok_iff : checkProjectAccess db user_id project_id required = .ok () ↔
    ∃ p, db.getProject project_id = some p ∧ (p.owner_id = some user_id ∨
      RoleAllows (db.getRole project_id user_id) required ∨
      RoleAllows (db.getRole project_id allUsersSentinel) required) := by
  simp only [checkProjectAccess]
  cases db.getProject project_id with
  | none => simp
  | some p =>
    simp only [Option.some.injEq, exists_eq_left']
    by_cases howner : p.owner_id = some user_id
    · simp [howner]
    · simp [howner, decideRole_ok_iff]

lemma mem_of_getProject {p : ProjectRow} (h : db.getProject project_id = some p) :
    p ∈ db.projects ∧ p.id = project_id :=
  ⟨List.mem_of_find?_eq_some h, by simpa using List.find?_some h⟩

lemma getProject_isSome_iff : (db.getProject project_id).isSome = true ↔
    ∃ p ∈ db.projects, p.id = project_id := by
  simp [Directory.getProject, List.find?_isSome]

lemma getRole_isSome_iff : (db.getRole project_id user_id).isSome = true ↔
    ∃ m ∈ db.project_members, m.project_id = project_id ∧ m.user_id = user_id := by
  simp [Directory.getRole, List.find?_isSome]

lemma mem_of_getRole {role : String} (h : db.getRole project_id user_id = some role) :
    ∃ m ∈ db.project_members, m.project_id = project_id ∧ m.user_id = user_id ∧ m.role = role := by
  obtain ⟨m, hm, hrole⟩ := Option.map_eq_some_iff.mp h
  have hkey := List.find?_some hm
  simp only [Bool.and_eq_true, decide_eq_true_eq] at hkey
  exact ⟨m, List.mem_of_find?_eq_some hm, hkey.1, hkey.2, hrole⟩

/-! ### What a session sees -/

lemma mem_afVisibleProjects : project_id ∈ afVisibleProjects user_id db ↔
    (∃ p ∈ db.projects, p.owner_id = some user_id ∧ p.id = project_id) ∨
      ∃ m ∈ db.project_members,
        (m.user_id = user_id ∨ m.user_id = allUsersSentinel) ∧ m.project_id = project_id := by
  simp only [afVisibleProjects, List.mem_dedup, List.mem_append, List.mem_map, List.mem_filter,
    decide_eq_true_eq, and_assoc, or_assoc]
  apply or_congr_right
  constructor
  · rintro (⟨m, hm, hu, hp⟩ | ⟨m, hm, hu, hp⟩)
    · exact ⟨m, hm, .inl hu, hp⟩
    · exact ⟨m, hm, .inr hu, hp⟩
  · rintro ⟨m, hm, hu | hu, hp⟩
    · exact .inl ⟨m, hm, hu, hp⟩
    · exact .inr ⟨m, hm, hu, hp⟩

/-- In a valid directory a visible project exists. -/
lemma Directory.Valid.exists_of_visible (h : db.Valid)
    (hvisible : project_id ∈ afVisibleProjects user_id db) :
    ∃ p ∈ db.projects, p.id = project_id := by
  rcases mem_afVisibleProjects.mp hvisible with ⟨p, hp, -, hid⟩ | ⟨m, hm, -, hid⟩
  · exact ⟨p, hp, hid⟩
  · obtain ⟨p, hp, hproject⟩ := h.refs m hm
    exact ⟨p, hp, hproject.trans hid⟩

lemma getProject_seenBy (h : project_id ∈ afVisibleProjects user_id db) :
    (db.seenBy user_id).getProject project_id = db.getProject project_id := by
  simp only [Directory.getProject, Directory.seenBy, List.find?_filter]
  congr 1
  funext p
  by_cases hid : p.id = project_id
  · simp [hid, h]
  · simp [hid]

lemma getRole_seenBy (h : project_id ∈ afVisibleProjects user_id db) (who : Uuid) :
    (db.seenBy user_id).getRole project_id who = db.getRole project_id who := by
  simp only [Directory.getRole, Directory.seenBy, List.find?_filter]
  congr 2
  funext m
  by_cases hid : m.project_id = project_id
  · simp [hid, h]
  · simp [hid]

lemma getProject_seenBy_none (h : project_id ∉ afVisibleProjects user_id db) :
    (db.seenBy user_id).getProject project_id = none := by
  rw [Directory.getProject, List.find?_eq_none]
  intro p hp hid
  rw [decide_eq_true_eq] at hid
  have hvisible := (List.mem_filter.mp hp).2
  rw [decide_eq_true_eq, hid] at hvisible
  exact h hvisible

/-- A user to whom an action is allowed sees the project. -/
lemma visible_of_check (h : checkProjectAccess db user_id project_id required = .ok ()) :
    project_id ∈ afVisibleProjects user_id db := by
  obtain ⟨p, hp, hallowed⟩ := checkProjectAccess_ok_iff.mp h
  obtain ⟨hmem, hid⟩ := mem_of_getProject hp
  have hmember {who : Uuid} (hwho : who = user_id ∨ who = allUsersSentinel)
      (hrole : RoleAllows (db.getRole project_id who) required) :
      project_id ∈ afVisibleProjects user_id db := by
    obtain ⟨r, hr, -⟩ := hrole
    obtain ⟨role, hrole, -⟩ := Option.bind_eq_some_iff.mp hr
    obtain ⟨m, hm, hproject, huser, -⟩ := mem_of_getRole hrole
    exact mem_afVisibleProjects.mpr (.inr ⟨m, hm, by rwa [huser], hproject⟩)
  rcases hallowed with howner | hrole | hrole
  · exact mem_afVisibleProjects.mpr (.inl ⟨p, hmem, howner, hid⟩)
  · exact hmember (.inl rfl) hrole
  · exact hmember (.inr rfl) hrole

/-- What is allowed does not depend on whether the check is made under the row policies. -/
lemma checkProjectAccess_seenBy : checkProjectAccess (db.seenBy user_id) user_id project_id required
    = .ok () ↔ checkProjectAccess db user_id project_id required = .ok () := by
  by_cases hvisible : project_id ∈ afVisibleProjects user_id db
  · simp only [checkProjectAccess_ok_iff, getProject_seenBy hvisible, getRole_seenBy hvisible]
  · constructor
    · intro h
      obtain ⟨p, hp, -⟩ := checkProjectAccess_ok_iff.mp h
      rw [getProject_seenBy_none hvisible] at hp
      cases hp
    · intro h
      exact absurd (visible_of_check h) hvisible

/-- In a valid directory, a user may read the projects that are visible. -/
lemma Directory.Valid.visible_iff (h : db.Valid) : project_id ∈ afVisibleProjects user_id db ↔
    checkProjectAccess db user_id project_id .read = .ok () := by
  refine ⟨fun hvisible => ?_, visible_of_check⟩
  obtain ⟨p, hp⟩ := Option.isSome_iff_exists.mp
    (getProject_isSome_iff.mpr (h.exists_of_visible hvisible))
  refine checkProjectAccess_ok_iff.mpr ⟨p, hp, ?_⟩
  have hmember {who : Uuid} {m : ProjectMemberRow} (hm : m ∈ db.project_members)
      (huser : m.user_id = who) (hproject : m.project_id = project_id) :
      RoleAllows (db.getRole project_id who) .read := by
    obtain ⟨role, hrole⟩ := Option.isSome_iff_exists.mp
      (getRole_isSome_iff.mpr ⟨m, hm, hproject, huser⟩)
    obtain ⟨m', hm', -, -, hrole'⟩ := mem_of_getRole hrole
    obtain ⟨r, hr⟩ := Option.isSome_iff_exists.mp (h.roles m' hm')
    rw [hrole'] at hr
    exact ⟨r, by rw [hrole]; exact hr, r.allows_read⟩
  rcases mem_afVisibleProjects.mp hvisible with ⟨q, hq, howner, hid⟩ | ⟨m, hm, huser, hproject⟩
  · obtain ⟨hmem, hid'⟩ := mem_of_getProject hp
    have hsame : p = q := List.inj_on_of_nodup_map h.projects hmem hq (hid'.trans hid.symm)
    exact .inl (hsame ▸ howner)
  · rcases huser with huser | huser
    · exact .inr (.inl (hmember hm huser hproject))
    · exact .inr (.inr (hmember hm huser hproject))

/-! ### The list of projects -/

lemma mem_listProjectsForUser {p : ProjectRow} : p ∈ listProjectsForUser user_id db ↔
    p ∈ db.projects ∧ p.id ∈ afVisibleProjects user_id ⟨[p], db.project_members⟩ := by
  simp only [listProjectsForUser, List.mem_mergeSort, List.mem_dedup, List.mem_map,
    List.mem_filter, List.mem_flatMap, Bool.or_eq_true, decide_eq_true_eq, mem_afVisibleProjects,
    List.mem_singleton]
  constructor
  · rintro ⟨⟨q, m⟩, ⟨⟨p', hp', hjoin⟩, hwhere⟩, rfl⟩
    simp only [joinMembers] at hjoin
    split at hjoin
    · simp only [List.mem_singleton, Prod.mk.injEq] at hjoin
      obtain ⟨rfl, rfl⟩ := hjoin
      simp only [Option.isSome_none, Bool.false_eq_true, or_false] at hwhere
      exact ⟨hp', .inl ⟨_, rfl, hwhere, rfl⟩⟩
    · simp only [List.mem_map, List.mem_filter, Bool.and_eq_true, Bool.or_eq_true,
        decide_eq_true_eq, Prod.mk.injEq] at hjoin
      obtain ⟨member, ⟨hmember, hproject, huser⟩, rfl, -⟩ := hjoin
      exact ⟨hp', .inr ⟨member, hmember, huser, hproject⟩⟩
  · rintro ⟨hp, hvisible⟩
    by_cases hjoined : ∃ m ∈ db.project_members,
        (m.user_id = user_id ∨ m.user_id = allUsersSentinel) ∧ m.project_id = p.id
    · obtain ⟨m, hm, huser, hproject⟩ := hjoined
      have hmem : m ∈ db.project_members.filter fun m =>
          m.project_id = p.id && (m.user_id = user_id || m.user_id = allUsersSentinel) := by
        simp [hm, hproject, huser]
      refine ⟨(p, some m), ⟨⟨p, hp, ?_⟩, by simp⟩, rfl⟩
      simp only [joinMembers]
      rw [if_neg (by simpa using List.ne_nil_of_mem hmem)]
      exact List.mem_map.mpr ⟨m, hmem, rfl⟩
    · rcases hvisible with ⟨q, rfl, howner, -⟩ | hmember
      · refine ⟨(q, none), ⟨⟨q, hp, ?_⟩, .inl howner⟩, rfl⟩
        simp only [joinMembers]
        rw [if_pos, List.mem_singleton]
        rw [List.isEmpty_iff, List.filter_eq_nil_iff]
        intro m hm hkey
        simp only [Bool.and_eq_true, Bool.or_eq_true, decide_eq_true_eq] at hkey
        exact hjoined ⟨m, hm, hkey.2, hkey.1⟩
      · exact absurd hmember hjoined

lemma nodup_listProjectsForUser (h : db.Valid) :
    ((listProjectsForUser user_id db).map (·.id)).Nodup := by
  apply List.Nodup.map_on
  · intro p hp q hq hid
    exact List.inj_on_of_nodup_map h.projects (mem_listProjectsForUser.mp hp).1
      (mem_listProjectsForUser.mp hq).1 hid
  · exact (List.mergeSort_perm _ _).nodup_iff.mpr (List.nodup_dedup _)

/-- In a session of a user, the members of the visible projects are seen. -/
lemma mem_afVisibleProjects_seenBy : project_id ∈ afVisibleProjects user_id (db.seenBy user_id) ↔
    project_id ∈ afVisibleProjects user_id db := by
  constructor
  · intro h
    rcases mem_afVisibleProjects.mp h with ⟨p, hp, howner, hid⟩ | ⟨m, hm, huser, hid⟩
    · exact mem_afVisibleProjects.mpr (.inl ⟨p, List.mem_of_mem_filter hp, howner, hid⟩)
    · exact mem_afVisibleProjects.mpr (.inr ⟨m, List.mem_of_mem_filter hm, huser, hid⟩)
  · intro h
    rcases mem_afVisibleProjects.mp h with ⟨p, hp, howner, rfl⟩ | ⟨m, hm, huser, rfl⟩
    · exact mem_afVisibleProjects.mpr (.inl ⟨p, by simp [Directory.seenBy, hp, h], howner, rfl⟩)
    · exact mem_afVisibleProjects.mpr (.inr ⟨m, by simp [Directory.seenBy, hm, h], huser, rfl⟩)

lemma Directory.Valid.seenBy (h : db.Valid) : (db.seenBy user_id).Valid where
  projects := h.projects.sublist (List.filter_sublist.map _)
  members := h.members.sublist (List.filter_sublist.map _)
  refs m hm := by
    obtain ⟨hmem, hvisible⟩ := List.mem_filter.mp hm
    obtain ⟨p, hp, hid⟩ := h.refs m hmem
    exact ⟨p, List.mem_filter.mpr ⟨hp, by rwa [hid]⟩, hid⟩
  roles m hm := h.roles m (List.mem_of_mem_filter hm)

/-- A valid directory lists the projects that the row policies show. -/
lemma Directory.Valid.listed_iff (h : db.Valid) :
    project_id ∈ (listProjectsForUser user_id db).map (·.id) ↔
      project_id ∈ afVisibleProjects user_id db := by
  simp only [List.mem_map, mem_listProjectsForUser, mem_afVisibleProjects, List.mem_singleton,
    exists_eq_left]
  constructor
  · rintro ⟨p, ⟨hp, ⟨howner, -⟩ | hmember⟩, rfl⟩
    · exact .inl ⟨p, hp, howner, rfl⟩
    · exact .inr hmember
  · rintro (⟨p, hp, howner, rfl⟩ | ⟨m, hm, huser, rfl⟩)
    · exact ⟨p, ⟨hp, .inl ⟨howner, trivial⟩⟩, rfl⟩
    · obtain ⟨p, hp, hid⟩ := h.refs m hm
      exact ⟨p, ⟨hp, .inr ⟨m, hm, huser, hid.symm⟩⟩, hid⟩

/-- The row policies, the list of projects in a session of the user, and the check, made in the
session or outside it, agree on what a user may read; and the list has no project twice. -/
theorem visible_projects_agree (h : db.Valid) :
    [project_id ∈ afVisibleProjects user_id db,
      project_id ∈ (listProjectsForUser user_id (db.seenBy user_id)).map (·.id),
      checkProjectAccess (db.seenBy user_id) user_id project_id .read = .ok (),
      checkProjectAccess db user_id project_id .read = .ok ()].TFAE ∧
    ((listProjectsForUser user_id (db.seenBy user_id)).map (·.id)).Nodup := by
  refine ⟨?_, nodup_listProjectsForUser h.seenBy⟩
  tfae_have 1 ↔ 4 := h.visible_iff
  tfae_have 3 ↔ 4 := checkProjectAccess_seenBy
  tfae_have 2 ↔ 1 := h.seenBy.listed_iff.trans mem_afVisibleProjects_seenBy
  tfae_finish

/-- A project that is shared with everyone, in the session of a user without a role in it. -/
def sharedProject : Directory where
  projects := [⟨1, "shared", some 5, false, .null, 0⟩, ⟨2, "private", some 5, false, .null, 1⟩]
  project_members := [⟨1, 5, "owner"⟩, ⟨1, allUsersSentinel, "viewer"⟩, ⟨2, 5, "owner"⟩]

theorem visible_projects_agree_shared :
    [1 ∈ afVisibleProjects 7 sharedProject,
      1 ∈ (listProjectsForUser 7 (sharedProject.seenBy 7)).map (·.id),
      checkProjectAccess (sharedProject.seenBy 7) 7 1 .read = .ok (),
      checkProjectAccess sharedProject 7 1 .read = .ok ()].TFAE ∧
    ((listProjectsForUser 7 (sharedProject.seenBy 7)).map (·.id)).Nodup :=
  visible_projects_agree ⟨by decide, by decide, by decide, by decide⟩

end Arbeiterfarm.Access
