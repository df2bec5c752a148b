import Arbeiterfarm.Access.Requests
import Mathlib.Data.Set.Insert

/-!
# Nobody takes a right that is not given

A set of users who may not manage the members of a project cannot come to more rights in it by their
own requests, however these interleave with each other and with the requests of others: it takes
somebody else who gives one of them, or everyone, a role in the project.
-/

namespace Arbeiterfarm.Access

open Foundation Storage

variable {codec : Codec}

/-! ### What a request writes -/

variable (codec) in
/-- The ways in which a request succeeds. -/
inductive Written (db : Db) (identity : Identity) (drawn : Drawn) : Request → Db → Prop
  | user (subject : String) (roles : List String)
      (hfresh : ∀ u ∈ db.users, u.id ≠ drawn.id ∧ u.subject ≠ subject) :
      Written db identity drawn (.createUser subject roles)
        { db with users := db.users ++ [⟨drawn.id, subject, roles, true⟩] }
  | key (user_id : Uuid) (name : String) (huser : ∃ u ∈ db.users, u.id = user_id)
      (hfresh : ∀ k ∈ db.api_keys,
        k.id ≠ drawn.id ∧ k.key_hash ≠ codec.hashKey drawn.raw_key) :
      Written db identity drawn (.createKey user_id name)
        { db with
          api_keys := db.api_keys ++ [⟨drawn.id, user_id, codec.hashKey drawn.raw_key, none⟩] }
  | revoked (key_id : Uuid) :
      Written db identity drawn (.revokeKey key_id)
        { db with api_keys := db.api_keys.filter fun k => k.id ≠ key_id }
  | project (name : String) (hfresh : ∀ p ∈ db.projects, p.id ≠ drawn.id)
      (huser : ∀ user_id ∈ identity.user_id, ∃ u ∈ db.users, u.id = user_id) :
      Written db identity drawn (.createProject name)
        { db with
          projects := db.projects ++ [⟨drawn.id, name, identity.user_id, false, .obj [], drawn.now⟩]
          project_members := db.project_members ++
            (identity.user_id.map fun user_id => ⟨drawn.id, user_id, "owner"⟩).toList }
  | unseen (project_id : Uuid) : Written db identity drawn (.deleteProject project_id) db
  | emptied (project_id : Uuid) :
      Written db identity drawn (.deleteProject project_id)
        { db with project_members := db.project_members.filter fun m => m.project_id ≠ project_id }
  | deleted (project_id : Uuid)
      (hseen : ((Db.seen { db with project_members := db.project_members.filter fun m =>
        m.project_id ≠ project_id } identity).getProject project_id).isSome) :
      Written db identity drawn (.deleteProject project_id)
        { db with
          projects := db.projects.filter fun p => p.id ≠ project_id
          project_members := db.project_members.filter fun m => m.project_id ≠ project_id }
  | settings (project_id : Uuid) (body : Json) (nda : Option Bool) :
      Written db identity drawn (.updateSettings project_id body)
        { db with
          projects := db.projects.map fun p =>
            if p.id = project_id then
              { p with nda := nda.getD p.nda, settings := mergeSettings p.settings body }
            else p }
  | member (project_id : Uuid) (user_id role : String) (target_uid : Uuid)
      (htarget : resolveUserId codec user_id = .ok target_uid)
      (hproject : ∃ p ∈ db.projects, p.id = project_id)
      (huser : ∃ u ∈ db.users, u.id = target_uid) :
      Written db identity drawn (.addMember project_id user_id role)
        { db with
          project_members := upsertMember ⟨project_id, target_uid, role⟩ db.project_members }
  | notSeen (project_id : Uuid) (user_id : String) :
      Written db identity drawn (.removeMember project_id user_id) db
  | removed (project_id : Uuid) (user_id : String) (target_uid : Uuid) :
      Written db identity drawn (.removeMember project_id user_id)
        { db with
          project_members := db.project_members.filter fun m =>
            ¬ (m.project_id = project_id ∧ m.user_id = target_uid) }

lemma written_of_perform {db db' : Db} {identity : Identity} {drawn : Drawn} {request : Request}
    (h : perform codec db identity drawn request = .ok db') :
    Written codec db identity drawn request db' := by
  cases request with
  | createUser subject roles =>
    simp only [perform] at h
    split at h <;> cases h
    next hfresh => exact .user subject roles (by simpa [not_or] using hfresh)
  | createKey user_id name =>
    simp only [perform] at h
    split at h
    · next huser =>
      split at h <;> cases h
      next hfresh => exact .key user_id name (by simpa using huser) (by simpa [not_or] using hfresh)
    · cases h
  | revokeKey key_id =>
    simp only [perform] at h
    split at h <;> cases h
    exact .revoked key_id
  | createProject name =>
    simp only [perform] at h
    split at h
    · cases h
    · split at h
      · cases h
      · next hfresh =>
        split at h <;> cases h
        next huser =>
        refine .project name (by simpa using hfresh) fun user_id hid => ?_
        rw [Option.mem_def.mp hid] at huser
        simpa using huser
  | deleteProject project_id =>
    simp only [perform] at h
    split at h
    · cases h
      exact .unseen project_id
    · split at h <;> cases h
      · exact .emptied project_id
      · next hseen => exact .deleted project_id (by simpa [Option.isSome_iff_ne_none] using hseen)
  | updateSettings project_id body =>
    simp only [perform] at h
    cases hnda : ndaOf body with
    | error e => simp [hnda, bind, Except.bind] at h
    | ok nda =>
      simp only [hnda, bind, Except.bind] at h
      split at h <;> cases h
      exact .settings project_id body nda
  | addMember project_id user_id role =>
    simp only [perform] at h
    cases htarget : resolveUserId codec user_id with
    | error e => simp [htarget, bind, Except.bind] at h
    | ok target_uid =>
      simp only [htarget, bind, Except.bind] at h
      split at h
      · cases h
      · split at h
        · cases h
        · split at h <;> cases h
          next hrefs =>
          obtain ⟨hproject, huser⟩ := not_or.mp hrefs
          refine .member project_id user_id role target_uid htarget ?_ (by simpa using huser)
          exact getProject_isSome_iff.mp (by simpa [Option.isSome_iff_ne_none] using hproject)
  | removeMember project_id user_id =>
    simp only [perform] at h
    cases htarget : resolveUserId codec user_id with
    | error e => simp [htarget, bind, Except.bind] at h
    | ok target_uid =>
      simp only [htarget, bind, Except.bind] at h
      split at h
      · cases h
      · split at h <;> cases h
        · exact .notSeen project_id user_id
        · exact .removed project_id user_id target_uid

/-- The rows of a project and of its members. -/
def Directory.accessOf (project_id : Uuid) (db : Directory) :
    List ProjectRow × List ProjectMemberRow :=
  (db.projects.filter fun p => p.id = project_id,
    db.project_members.filter fun m => m.project_id = project_id)

lemma filter_upsertMember {m : ProjectMemberRow} {rows : List ProjectMemberRow} {p : Uuid}
    (h : m.project_id ≠ p) : (upsertMember m rows).filter (fun r => r.project_id = p) =
      rows.filter fun r => r.project_id = p := by
  simp only [upsertMember]
  split
  · rw [List.filter_map]
    have hkey : ((fun r : ProjectMemberRow => decide (r.project_id = p)) ∘ fun r =>
        if r.project_id = m.project_id ∧ r.user_id = m.user_id then { r with role := m.role }
        else r) = fun r => decide (r.project_id = p) := by
      funext r
      simp only [Function.comp]
      split <;> rfl
    rw [hkey]
    nth_rewrite 2 [← List.map_id (rows.filter _)]
    apply List.map_congr_left
    intro r hr
    have hproject : r.project_id = p := by simpa using (List.mem_filter.mp hr).2
    rw [if_neg, id]
    rintro ⟨hsame, -⟩
    exact h (hsame.symm.trans hproject)
  · simp [List.filter_append, h]

/-- Rows that are taken away do not matter where they do not count. -/
lemma filter_of_kept {α : Type} {keep p : α → Bool} {rows : List α}
    (h : ∀ x, p x = true → keep x = true) : (rows.filter keep).filter p = rows.filter p := by
  rw [List.filter_filter]
  apply List.filter_congr
  intro x _
  cases hx : p x with
  | false => rfl
  | true => rw [h x hx, Bool.and_self]

/-- A request about one project leaves the others and all accounts alone. -/
lemma perform_project {db db' : Db} {identity : Identity} {drawn : Drawn} {request : Request}
    {p q : Uuid} (hq : request.project = some q) (hne : q ≠ p)
    (h : perform codec db identity drawn request = .ok db') :
    db'.toDirectory.accessOf p = db.toDirectory.accessOf p ∧ db'.users = db.users ∧
      db'.api_keys = db.api_keys := by
  have hmembers : (db.project_members.filter fun m => m.project_id ≠ q).filter
      (fun m => m.project_id = p) = db.project_members.filter fun m => m.project_id = p := by
    apply filter_of_kept
    simp +contextual [hne.symm]
  cases written_of_perform h with
  | user _ _ _ | key _ _ _ _ | revoked _ | project _ _ _ => cases hq
  | unseen _ | notSeen _ _ => exact ⟨rfl, rfl, rfl⟩
  | emptied q' =>
    cases hq
    exact ⟨Prod.ext rfl hmembers, rfl, rfl⟩
  | deleted q' _ =>
    cases hq
    refine ⟨Prod.ext (filter_of_kept ?_) hmembers, rfl, rfl⟩
    simp +contextual [hne.symm]
  | settings q' body nda =>
    cases hq
    refine ⟨Prod.ext ?_ rfl, rfl, rfl⟩
    simp only [Directory.accessOf, List.filter_map]
    nth_rewrite 2 [← List.map_id (db.projects.filter _)]
    have hkey : ((fun r : ProjectRow => decide (r.id = p)) ∘ fun r : ProjectRow =>
        if r.id = q then
          { r with nda := nda.getD r.nda, settings := mergeSettings r.settings body }
        else r) = fun r => decide (r.id = p) := by
      funext r
      simp only [Function.comp]
      split <;> rfl
    rw [hkey]
    apply List.map_congr_left
    intro r hr
    have hid : r.id = p := by simpa using (List.mem_filter.mp hr).2
    rw [if_neg (fun hsame => hne (hsame.symm.trans hid)), id]
  | member q' user_id role target_uid _ _ _ =>
    cases hq
    exact ⟨Prod.ext rfl (filter_upsertMember hne), rfl, rfl⟩
  | removed q' user_id target_uid =>
    cases hq
    refine ⟨Prod.ext rfl (filter_of_kept ?_), rfl, rfl⟩
    simp +contextual [hne.symm]

/-- A new project leaves the others and all accounts alone. -/
lemma perform_createProject {db db' : Db} {identity : Identity} {drawn : Drawn} {name : String}
    {p : Uuid} (hne : drawn.id ≠ p)
    (h : perform codec db identity drawn (.createProject name) = .ok db') :
    db'.toDirectory.accessOf p = db.toDirectory.accessOf p ∧ db'.users = db.users ∧
      db'.api_keys = db.api_keys := by
  cases written_of_perform h
  refine ⟨?_, rfl, rfl⟩
  cases identity.user_id <;> simp [Directory.accessOf, List.filter_append, hne]

/-- A request about accounts leaves the projects alone, and no account is taken away or changed. -/
lemma perform_forAdmins {db db' : Db} {identity : Identity} {drawn : Drawn} {request : Request}
    (hrequest : request.forAdmins = true)
    (h : perform codec db identity drawn request = .ok db') :
    db'.toDirectory = db.toDirectory ∧ ∀ x ∈ db'.users, x ∈ db.users ∨ x.id = drawn.id := by
  cases written_of_perform h with
  | user subject roles _ =>
    refine ⟨rfl, ?_⟩
    intro x hx
    rcases List.mem_append.mp hx with hx | hx
    · exact .inl hx
    · exact .inr (by rw [List.mem_singleton.mp hx])
  | key _ _ _ _ | revoked _ => exact ⟨rfl, fun x hx => .inl hx⟩
  | project _ _ _ | unseen _ | emptied _ | deleted _ _ | settings _ _ _ | member _ _ _ _ _ _ _
  | notSeen _ _ | removed _ _ _ => cases hrequest

/-- Every request is about a project, for a new project, or for administrators. -/
lemma Request.cases_of (request : Request) :
    (∃ q, request.project = some q) ∨ (∃ name, request = .createProject name) ∨
      request.forAdmins = true := by
  cases request <;> simp [Request.project, Request.forAdmins]

/-! ### Rights that are given -/

/-- In `db'` the users of `S` have been given nothing in the project that they had not in `db`, and
their accounts are as they were. -/
structure NoGain (S : Set Uuid) (p : Uuid) (db db' : Db) : Prop where
  owner : ∀ r' ∈ db'.projects, r'.id = p → ∀ u ∈ S, r'.owner_id = some u →
    ∃ r ∈ db.projects, r.id = p ∧ r.owner_id = some u
  roles : ∀ m ∈ db'.project_members, m.project_id = p →
    (m.user_id ∈ S ∨ m.user_id = allUsersSentinel) → m ∈ db.project_members
  accounts : ∀ x ∈ db'.users, x.id ∈ S → x ∈ db.users

namespace NoGain

variable {S : Set Uuid} {p : Uuid} {db db' db'' : Db}

lemma refl (db : Db) : NoGain S p db db where
  owner r hr hid _ _ howner := ⟨r, hr, hid, howner⟩
  roles _ hm _ _ := hm
  accounts _ hx _ := hx

lemma trans (h : NoGain S p db db') (h' : NoGain S p db' db'') : NoGain S p db db'' where
  owner r'' hr hid u hu howner := by
    obtain ⟨r', hr', hid', howner'⟩ := h'.owner r'' hr hid u hu howner
    exact h.owner r' hr' hid' u hu howner'
  roles m hm hproject hwho := h.roles m (h'.roles m hm hproject hwho) hproject hwho
  accounts x hx hid := h.accounts x (h'.accounts x hx hid) hid

lemma of_accessOf (haccess : db'.toDirectory.accessOf p = db.toDirectory.accessOf p)
    (husers : ∀ x ∈ db'.users, x.id ∈ S → x ∈ db.users) : NoGain S p db db' := by
  simp only [Directory.accessOf, Prod.mk.injEq] at haccess
  obtain ⟨hprojects, hmembers⟩ := haccess
  refine ⟨?_, ?_, husers⟩
  · intro r hr hid u _ howner
    have hmem : r ∈ db'.projects.filter fun r => r.id = p := by simp [hr, hid]
    rw [hprojects] at hmem
    exact ⟨r, List.mem_of_mem_filter hmem, hid, howner⟩
  · intro m hm hproject _
    have hmem : m ∈ db'.project_members.filter fun m => m.project_id = p := by simp [hm, hproject]
    rw [hmembers] at hmem
    exact List.mem_of_mem_filter hmem

/-- Where nothing has been given, nothing more is allowed. -/
lemma allowed (h : NoGain S p db db') (hvalid : db.toDirectory.Valid) {u : Uuid} (hu : u ∈ S)
    {action : Action} (hok : checkProjectAccess db'.toDirectory u p action = .ok ()) :
    checkProjectAccess db.toDirectory u p action = .ok () := by
  obtain ⟨r', hr', hallowed⟩ := checkProjectAccess_ok_iff.mp hok
  obtain ⟨hmem', hid'⟩ := mem_of_getProject hr'
  have hrole {who : Uuid} (hwho : who ∈ S ∨ who = allUsersSentinel)
      (hallows : RoleAllows (db'.getRole p who) action) :
      (∃ r, db.getProject p = some r) ∧ RoleAllows (db.getRole p who) action := by
    obtain ⟨role, hfrom, hrole⟩ := hallows
    obtain ⟨text, htext, hparse⟩ := Option.bind_eq_some_iff.mp hfrom
    obtain ⟨m, hm, hproject, huser, rfl⟩ := mem_of_getRole htext
    have hmem := h.roles m hm hproject (by rwa [huser])
    obtain ⟨r, hr, hid⟩ := hvalid.refs m hmem
    refine ⟨Option.isSome_iff_exists.mp (getProject_isSome_iff.mpr ⟨r, hr, hid.trans hproject⟩),
      role, ?_, hrole⟩
    obtain ⟨text', htext'⟩ := Option.isSome_iff_exists.mp
      (getRole_isSome_iff.mpr ⟨m, hmem, hproject, huser⟩)
    obtain ⟨m', hm', hproject', huser', rfl⟩ := mem_of_getRole htext'
    have hsame : m' = m := List.inj_on_of_nodup_map hvalid.members hm' hmem
      (Prod.ext (hproject'.trans hproject.symm) (huser'.trans huser.symm))
    rw [htext', hsame]
    exact hparse
  rcases hallowed with howner | hdirect | hall
  · obtain ⟨r, hr, hid, howner'⟩ := h.owner r' hmem' hid' u hu howner
    obtain ⟨q, hq⟩ := Option.isSome_iff_exists.mp (getProject_isSome_iff.mpr ⟨r, hr, hid⟩)
    obtain ⟨hqmem, hqid⟩ := mem_of_getProject hq
    have hsame : q = r := List.inj_on_of_nodup_map hvalid.projects hqmem hr (hqid.trans hid.symm)
    exact checkProjectAccess_ok_iff.mpr ⟨q, hq, .inl (hsame ▸ howner')⟩
  · obtain ⟨⟨r, hr⟩, hallows⟩ := hrole (.inl hu) hdirect
    exact checkProjectAccess_ok_iff.mpr ⟨r, hr, .inr (.inl hallows)⟩
  · obtain ⟨⟨r, hr⟩, hallows⟩ := hrole (.inr rfl) hall
    exact checkProjectAccess_ok_iff.mpr ⟨r, hr, .inr (.inr hallows)⟩

end NoGain

/-! ### A coalition that may not manage a project -/

section

variable (S : Set Uuid) (p : Uuid)

def Identity.InSet (identity : Identity) : Prop := ∃ u ∈ S, identity.user_id = some u

/-- A request in progress of a user in `S` cannot become one that writes to the project. -/
def Harmless : Task → Prop
  | .received identity _ => identity.InSet S → identity.isAdmin = false
  | .notOwner identity request =>
    identity.InSet S → identity.isAdmin = false ∧ request.forAdmins = false
  | .hasRole identity request direct =>
    identity.InSet S → identity.isAdmin = false ∧ request.forAdmins = false ∧
      (request.project = some p → ¬ RoleAllows direct .manageMembers)
  | .permitted identity request =>
    identity.InSet S → identity.isAdmin = false ∧ request.forAdmins = false ∧
      request.project ≠ some p
  | .answered _ => True

/-- No user in `S` is an administrator, and none may manage the members of the project. -/
structure Outside (s : Server) : Prop where
  owner : ∀ r ∈ s.db.projects, r.id = p → ∀ u ∈ S, r.owner_id ≠ some u
  roles : ∀ m ∈ s.db.project_members, m.project_id = p →
    (m.user_id ∈ S ∨ m.user_id = allUsersSentinel) → ¬ RoleAllows (some m.role) .manageMembers
  accounts : ∀ x ∈ s.db.users, x.id ∈ S → "admin" ∉ x.roles
  tasks : ∀ t task, s.tasks t = some task → Harmless S p task

/-- A step by which a user in `S` writes. -/
def WrittenBy (s : Server) : Event → Prop
  | .write t _ => ∃ identity request,
      s.tasks t = some (.permitted identity request) ∧ identity.InSet S
  | _ => False

variable (codec) in
/-- A step does not give anything to the users in `S`: nobody else adds one of them or everyone to
the project, what is changed in another way gives them nothing, and ids are drawn afresh. -/
def NotGiven (s : Server) : Event → Prop
  | .write t drawn => drawn.id ≠ p ∧ drawn.id ∉ S ∧ ∀ identity user_id role target,
      s.tasks t = some (.permitted identity (.addMember p user_id role)) → ¬ identity.InSet S →
      resolveUserId codec user_id = .ok target → target ∉ S ∧ target ≠ allUsersSentinel
  | .other db => NoGain S p s.db db
  | _ => True

end

variable {S : Set Uuid} {p : Uuid} {s s' : Server}

/-- What a session reads of the members of a project is in its table. -/
lemma mem_of_readRoleOf {db : Db} {identity : Identity} {request : Request} {who : Uuid}
    {role : String} (hp : request.project = some p)
    (h : readRoleOf db identity request (some who) = some role) :
    ∃ m ∈ db.project_members, m.project_id = p ∧ m.user_id = who ∧ m.role = role := by
  simp only [readRoleOf, hp] at h
  obtain ⟨m, hm, hkey⟩ := mem_of_getRole h
  refine ⟨m, ?_, hkey⟩
  simp only [Db.seen] at hm
  split at hm
  · exact hm
  · split at hm
    · exact List.mem_of_mem_filter hm
    · cases hm

lemma mem_of_getProject_seen {db : Db} {identity : Identity} {r : ProjectRow}
    (h : (db.seen identity).getProject p = some r) : r ∈ db.projects ∧ r.id = p := by
  obtain ⟨hmem, hid⟩ := mem_of_getProject h
  refine ⟨?_, hid⟩
  simp only [Db.seen] at hmem
  split at hmem
  · exact hmem
  · split at hmem
    · exact List.mem_of_mem_filter hmem
    · cases hmem

/-- What a coalition may not do, it may not do by a role that one of its requests reads. -/
lemma Outside.not_roleAllows (h : Outside S p s) {identity : Identity} {request : Request}
    {who : Option Uuid} (hwho : ∀ u ∈ who, u ∈ S ∨ u = allUsersSentinel)
    (hp : request.project = some p) :
    ¬ RoleAllows (readRoleOf s.db identity request who) .manageMembers := by
  rintro ⟨r, hr, hallows⟩
  obtain ⟨role, hrole, hparse⟩ := Option.bind_eq_some_iff.mp hr
  cases who with
  | none => simp [readRoleOf, hp] at hrole
  | some who =>
    obtain ⟨m, hm, hproject, huser, rfl⟩ := mem_of_readRoleOf hp hrole
    exact h.roles m hm hproject (huser ▸ hwho who rfl) ⟨r, hparse, hallows⟩

/-- The first statement of a request does not let a coalition through. -/
lemma Outside.harmless_checkOwner (h : Outside S p s) {identity : Identity} {request : Request}
    (hadmin : identity.InSet S → identity.isAdmin = false) :
    Harmless S p (checkOwner codec s.db identity request) := by
  simp only [checkOwner]
  cases hprecheck : precheck codec identity request with
  | error e => trivial
  | ok =>
    cases hproject : request.project with
    | none =>
      intro hin
      refine ⟨hadmin hin, ?_, by simp [hproject]⟩
      cases request <;>
        simp_all [Request.forAdmins, precheck, adminOnly, bind, Except.bind, Request.project]
    | some q =>
      have hforAdmins : request.forAdmins = false := by
        cases request <;> simp_all [Request.forAdmins, Request.project]
      simp only
      cases hget : (s.db.seen identity).getProject q with
      | none =>
        simp only
        split
        · trivial
        · split
          · next hisAdmin =>
            intro hin
            rw [hadmin hin] at hisAdmin
            cases hisAdmin
          · trivial
      | some r =>
        simp only
        split
        · next hthrough =>
          intro hin
          refine ⟨hadmin hin, hforAdmins, ?_⟩
          rw [hproject]
          rintro ⟨⟩
          obtain ⟨hr, hid⟩ := mem_of_getProject_seen hget
          obtain ⟨u, hu, huser⟩ := id hin
          rcases hthrough with hisAdmin | howner
          · rw [hadmin hin] at hisAdmin
            cases hisAdmin
          · exact h.owner r hr hid u hu (howner.trans huser)
        · intro hin
          exact ⟨hadmin hin, hforAdmins⟩

/-- A row after an upsert is an old one or the one that is upserted. -/
lemma mem_upsertMember {m r : ProjectMemberRow} {rows : List ProjectMemberRow}
    (h : r ∈ upsertMember m rows) : r ∈ rows ∨ r = m := by
  simp only [upsertMember] at h
  split at h
  · obtain ⟨r', hr', rfl⟩ := List.mem_map.mp h
    split
    · next hkey =>
      obtain ⟨hproject, huser⟩ := hkey
      right
      rw [hproject, huser]
    · exact .inl hr'
  · rcases List.mem_append.mp h with h | h
    · exact .inl h
    · exact .inr (List.mem_singleton.mp h)

/-- A request that manages the members gives nothing to `S`, unless it adds one of them or
everyone. -/
lemma perform_noGain {db db' : Db} {identity : Identity} {drawn : Drawn} {request : Request}
    (hp : request.project = some p) (h : perform codec db identity drawn request = .ok db')
    (hadd : ∀ user_id role target, request = .addMember p user_id role →
      resolveUserId codec user_id = .ok target → target ∉ S ∧ target ≠ allUsersSentinel) :
    NoGain S p db db' := by
  have hsub {db' : Db} (hprojects : ∀ r' ∈ db'.projects, ∃ r ∈ db.projects,
      r.id = r'.id ∧ r.owner_id = r'.owner_id)
      (hmembers : ∀ m ∈ db'.project_members, m ∈ db.project_members)
      (husers : db'.users = db.users) : NoGain S p db db' := by
    refine ⟨?_, fun m hm _ _ => hmembers m hm, fun x hx _ => husers ▸ hx⟩
    intro r' hr' hid u _ howner
    obtain ⟨r, hr, hrid, hrowner⟩ := hprojects r' hr'
    exact ⟨r, hr, hrid.trans hid, hrowner.trans howner⟩
  have hsame : ∀ r' ∈ db.projects, ∃ r ∈ db.projects, r.id = r'.id ∧ r.owner_id = r'.owner_id :=
    fun r' hr' => ⟨r', hr', rfl, rfl⟩
  cases written_of_perform h with
  | user _ _ _ | key _ _ _ _ | revoked _ | project _ _ _ => cases hp
  | unseen _ | notSeen _ _ => exact .refl db
  | emptied q => exact hsub hsame (fun m hm => List.mem_of_mem_filter hm) rfl
  | deleted q _ =>
    exact hsub (fun r' hr' => hsame r' (List.mem_of_mem_filter hr'))
      (fun m hm => List.mem_of_mem_filter hm) rfl
  | settings q body nda =>
    refine hsub ?_ (fun m hm => hm) rfl
    intro r' hr'
    obtain ⟨r, hr, rfl⟩ := List.mem_map.mp hr'
    refine ⟨r, hr, ?_⟩
    split <;> exact ⟨rfl, rfl⟩
  | member q user_id role target_uid htarget _ _ =>
    cases hp
    obtain ⟨hnotS, hnotAll⟩ := hadd user_id role target_uid rfl htarget
    refine ⟨fun r' hr' hid u _ howner => ⟨r', hr', hid, howner⟩, ?_, fun x hx _ => hx⟩
    intro m hm _ hwho
    rcases mem_upsertMember hm with hm | rfl
    · exact hm
    · rcases hwho with hwho | hwho
      · exact absurd hwho hnotS
      · exact absurd hwho hnotAll
  | removed q user_id target_uid => exact hsub hsame (fun m hm => List.mem_of_mem_filter hm) rfl

/-- A step changes the database by what a permitted request writes, or in another way. -/
lemma db_of_step {e : Event} (h : step codec s e = some s') : s'.db = s.db ∨
    (∃ t drawn identity request, e = .write t drawn ∧
      s.tasks t = some (.permitted identity request) ∧
      perform codec s.db identity drawn request = .ok s'.db) ∨ e = .other s'.db := by
  cases e with
  | arrive t raw_key now request =>
    simp only [step] at h
    split at h
    · cases h
    · split at h <;> cases h <;> exact .inl rfl
  | readOwner t | readRole t | fail t =>
    simp only [step] at h
    split at h <;> cases h
    exact .inl rfl
  | readAll t =>
    simp only [step] at h
    split at h
    · split at h <;> cases h <;> exact .inl rfl
    · cases h
  | write t drawn =>
    simp only [step] at h
    split at h
    · next identity request htask =>
      split at h
      · next db hperform =>
        cases h
        exact .inr (.inl ⟨t, drawn, identity, request, rfl, htask, hperform⟩)
      · cases h
        exact .inl rfl
    · cases h
  | other db =>
    cases h
    exact .inr (.inr rfl)

/-- What a user of the coalition writes leaves the project and all accounts alone. -/
lemma Outside.written_by (h : Outside S p s) {t : ℕ} {drawn : Drawn} {identity : Identity}
    {request : Request} {db : Db} (htask : s.tasks t = some (.permitted identity request))
    (hin : identity.InSet S) (hfresh : drawn.id ≠ p)
    (hperform : perform codec s.db identity drawn request = .ok db) :
    db.toDirectory.accessOf p = s.db.toDirectory.accessOf p ∧ db.users = s.db.users ∧
      db.api_keys = s.db.api_keys := by
  obtain ⟨-, hforAdmins, hother⟩ := h.tasks t _ htask hin
  rcases request.cases_of with ⟨q, hq⟩ | ⟨name, rfl⟩ | hadmins
  · refine perform_project hq ?_ hperform
    rintro rfl
    exact hother hq
  · exact perform_createProject hfresh hperform
  · rw [hforAdmins] at hadmins
    cases hadmins

/-- A step that gives nothing to the coalition gains nothing for it. -/
lemma Outside.noGain (h : Outside S p s) {e : Event} (hgiven : NotGiven codec S p s e)
    (hstep : step codec s e = some s') : NoGain S p s.db s'.db := by
  rcases db_of_step hstep with hsame | ⟨t, drawn, identity, request, rfl, htask, hperform⟩ | rfl
  · rw [hsame]
    exact .refl s.db
  · obtain ⟨hfresh, hfreshUser, hadd⟩ := hgiven
    by_cases hin : identity.InSet S
    · obtain ⟨haccess, husers, -⟩ := h.written_by htask hin hfresh hperform
      exact .of_accessOf haccess fun x hx _ => husers ▸ hx
    · rcases request.cases_of with ⟨q, hq⟩ | ⟨name, rfl⟩ | hadmins
      · by_cases hqp : q = p
        · subst hqp
          refine perform_noGain hq hperform ?_
          rintro user_id role target rfl htarget
          exact hadd identity user_id role target htask hin htarget
        · obtain ⟨haccess, husers, -⟩ := perform_project hq hqp hperform
          exact .of_accessOf haccess fun x hx _ => husers ▸ hx
      · obtain ⟨haccess, husers, -⟩ := perform_createProject hfresh hperform
        exact .of_accessOf haccess fun x hx _ => husers ▸ hx
      · obtain ⟨hdirectory, husers⟩ := perform_forAdmins hadmins hperform
        refine .of_accessOf (by rw [hdirectory]) fun x hx hid => ?_
        rcases husers x hx with hmem | hdrawn
        · exact hmem
        · exact absurd (hdrawn ▸ hid) hfreshUser
  · exact hgiven

lemma Outside.of_noGain (h : Outside S p s) (hgain : NoGain S p s.db s'.db)
    (htasks : ∀ t task, s'.tasks t = some task → Harmless S p task) : Outside S p s' where
  owner r' hr' hid u hu howner := by
    obtain ⟨r, hr, hrid, hrowner⟩ := hgain.owner r' hr' hid u hu howner
    exact h.owner r hr hrid u hu hrowner
  roles m hm hproject hwho := h.roles m (hgain.roles m hm hproject hwho) hproject hwho
  accounts x hx hid := h.accounts x (hgain.accounts x hx hid) hid
  tasks := htasks

lemma Outside.put (h : Outside S p s) {t : ℕ} {task : Task} (htask : Harmless S p task) :
    ∀ t' task', (s.put t task).tasks t' = some task' → Harmless S p task' := by
  intro t' task' htask'
  simp only [Server.put, Function.update_apply] at htask'
  split at htask'
  · cases htask'
    exact htask
  · exact h.tasks t' task' htask'

/-- A user of the coalition is authenticated as one who is not an administrator. -/
lemma Outside.authenticated (h : Outside S p s) {raw_key : String} {now : ℤ} {identity : Identity}
    (hauth : authenticateApiKey codec s.db raw_key now = .ok identity) (hin : identity.InSet S) :
    identity.isAdmin = false := by
  simp only [authenticateApiKey] at hauth
  split at hauth
  · cases hauth
  · split at hauth
    · cases hauth
    · split at hauth
      · cases hauth
      · next user huser =>
        split at hauth <;> cases hauth
        obtain ⟨u, hu, hid⟩ := hin
        cases hid
        have hroles := h.accounts user (List.mem_of_find?_eq_some huser) hu
        simp only [Identity.isAdmin, List.any_eq_false, decide_eq_true_eq]
        rintro role hrole rfl
        exact hroles hrole

lemma Outside.harmless_step (h : Outside S p s) {e : Event} (hstep : step codec s e = some s') :
    ∀ t task, s'.tasks t = some task → Harmless S p task := by
  cases e with
  | arrive t raw_key now request =>
    simp only [step] at hstep
    split at hstep
    · cases hstep
    · split at hstep <;> cases hstep
      · exact h.put trivial
      · next identity hauth => exact h.put (h.authenticated hauth)
  | readOwner t =>
    simp only [step] at hstep
    split at hstep <;> cases hstep
    next identity request htask => exact h.put (h.harmless_checkOwner (h.tasks t _ htask))
  | readRole t =>
    simp only [step] at hstep
    split at hstep <;> cases hstep
    next identity request htask =>
    refine h.put fun hin => ?_
    obtain ⟨hadmin, hforAdmins⟩ := h.tasks t _ htask hin
    refine ⟨hadmin, hforAdmins, h.not_roleAllows ?_⟩
    intro u huser
    obtain ⟨v, hv, hidentity⟩ := hin
    rw [hidentity] at huser
    cases huser
    exact .inl hv
  | readAll t =>
    simp only [step] at hstep
    split at hstep
    · next identity request direct htask =>
      split at hstep <;> cases hstep
      · next hdecide =>
        refine h.put fun hin => ?_
        obtain ⟨hadmin, hforAdmins, hdirect⟩ := h.tasks t _ htask hin
        refine ⟨hadmin, hforAdmins, fun hp => ?_⟩
        rcases decideRole_ok_iff.mp hdecide with hallows | hallows
        · exact hdirect hp hallows
        · refine h.not_roleAllows ?_ hp hallows
          rintro u ⟨⟩
          exact .inr rfl
      · exact h.put trivial
    · cases hstep
  | write t drawn =>
    simp only [step] at hstep
    split at hstep
    · split at hstep <;> cases hstep <;> exact h.put trivial
    · cases hstep
  | fail t =>
    simp only [step] at hstep
    split at hstep <;> cases hstep
    exact h.put trivial
  | other db =>
    cases hstep
    exact h.tasks

lemma Outside.step (h : Outside S p s) {e : Event} (hgiven : NotGiven codec S p s e)
    (hstep : step codec s e = some s') : Outside S p s' :=
  h.of_noGain (h.noGain hgiven hstep) (h.harmless_step hstep)

/-- A coalition that may not manage the members of a project: unless somebody else gives one of its
users or everyone a role, nothing that they write in any interleaving of requests touches the
project, its members or an account, and none of them may do more in the end than in the
beginning. -/
theorem coalition_gains_nothing {es : List Event} (hvalid : s.db.toDirectory.Valid)
    (h : Outside S p s) (hgiven : Along (step codec) (NotGiven codec S p) s es)
    (hrun : exec (step codec) s es = some s') :
    Along (step codec) (fun s e => WrittenBy S s e → ∀ s', step codec s e = some s' →
      s'.db.toDirectory.accessOf p = s.db.toDirectory.accessOf p ∧ s'.db.users = s.db.users ∧
        s'.db.api_keys = s.db.api_keys) s es ∧
    ∀ u ∈ S, ∀ action, checkProjectAccess s'.db.toDirectory u p action = .ok () →
      checkProjectAccess s.db.toDirectory u p action = .ok () := by
  have hinv : ∀ (s : Server) e s', Outside S p s → NotGiven codec S p s e →
      Access.step codec s e = some s' → Outside S p s' :=
    fun s e s' hs hgiven hstep => hs.step hgiven hstep
  constructor
  · refine along_of_invariant hinv ?_ h hgiven
    intro s e hs hgiven hwritten s' hstep
    cases e with
    | write t drawn =>
      obtain ⟨identity, request, htask, hin⟩ := hwritten
      simp only [Access.step, htask] at hstep
      split at hstep <;> cases hstep
      · next db hperform => exact hs.written_by htask hin hgiven.1 hperform
      · exact ⟨rfl, rfl, rfl⟩
    | arrive _ _ _ _ | readOwner _ | readRole _ | readAll _ | fail _ | other _ => cases hwritten
  · intro u hu action hok
    have hgain : NoGain S p s.db s'.db :=
      exec_related (R := fun s s' : Server => NoGain S p s.db s'.db) (fun s => .refl s.db)
        (fun h h' => h.trans h') hinv (fun s e s' hs hgiven hstep => hs.noGain hgiven hstep)
        h hgiven hrun
    exact hgain.allowed hvalid hu hok

def digitCodec : Codec where
  parseUuid s := if s = "5" then some 5 else none
  showUuid id := toString id
  hashKey key := key

/-- A project of which user 7 is a viewer and one of its own, and a request of user 7 for each. -/
def viewerServer : Server where
  db :=
    { projects := [⟨1, "p", some 5, false, .obj [], 0⟩, ⟨2, "mine", some 7, false, .obj [], 0⟩]
      project_members := [⟨1, 5, "owner"⟩, ⟨1, 7, "viewer"⟩, ⟨2, 7, "owner"⟩]
      users := [⟨5, "owner", [], true⟩, ⟨7, "viewer", [], true⟩]
      api_keys := [⟨1, 7, "key", none⟩] }
  tasks _ := none

def viewerEvents : List Event :=
  [.arrive 0 "key" 0 (.addMember 2 "5" "manager"),
    .arrive 1 "key" 0 (.addMember 1 "@all" "manager"), .readOwner 1, .readOwner 0, .readRole 1,
    .write 0 ⟨3, "", 0⟩, .readAll 1]

/-- Where user 7 adds a manager to its own project and tries to make everyone one of the other. -/
theorem coalition_gains_nothing_viewer :
    ∃ s', exec (step digitCodec) viewerServer viewerEvents = some s' ∧
      s'.db.getRole 2 5 = some "manager" ∧
      ∀ u ∈ ({7} : Set Uuid), ∀ action,
        checkProjectAccess s'.db.toDirectory u 1 action = .ok () →
          checkProjectAccess viewerServer.db.toDirectory u 1 action = .ok () := by
  have hgiven : Along (step digitCodec) (NotGiven digitCodec {7} 1) viewerServer viewerEvents := by
    refine .cons rfl trivial (.cons rfl trivial (.cons rfl trivial (.cons rfl trivial
      (.cons rfl trivial (.cons rfl ⟨by decide, by simp, ?_⟩ (.cons rfl trivial trivial))))))
    rintro identity user_id role target ⟨⟩
  have houtside : Outside {7} 1 viewerServer := by
    refine ⟨?_, ?_, ?_, fun t task htask => nomatch htask⟩
    · simp [viewerServer]
    · simp [viewerServer, RoleAllows, allUsersSentinel, ProjectRole.fromStr, ProjectRole.allows]
    · simp [viewerServer]
  obtain ⟨s', hs'⟩ : ∃ s', exec (step digitCodec) viewerServer viewerEvents = some s' := ⟨_, rfl⟩
  refine ⟨s', hs', ?_, (coalition_gains_nothing ⟨?_, ?_, ?_, ?_⟩ houtside hgiven hs').2⟩
  · cases hs'
    rfl
  all_goals decide

end Arbeiterfarm.Access
