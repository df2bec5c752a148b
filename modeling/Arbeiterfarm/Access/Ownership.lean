import Arbeiterfarm.Access.Escalation

/-!
# The owner of a project

Whoever has made a project stays its owner, and keeps every right in it, whatever the members of the
project ask for; and nobody else comes to have the rights of the owner. The route that deletes a
project asks for less than the right to delete it, but under the row policies the row of the project
is left unless the owner or an administrator has asked.
-/

namespace Arbeiterfarm.Access

open Foundation Storage

variable {codec : Codec}

/-- What the constraints of the four tables say: the directory is valid; ids, subjects and hashes
are unique; and owners, members and keys belong to users. -/
structure Db.Valid (db : Db) : Prop where
  directory : db.toDirectory.Valid
  users : (db.users.map (·.id)).Nodup
  subjects : (db.users.map (·.subject)).Nodup
  keys : (db.api_keys.map (·.id)).Nodup
  hashes : (db.api_keys.map (·.key_hash)).Nodup
  owners : ∀ p ∈ db.projects, ∀ u ∈ p.owner_id, ∃ x ∈ db.users, x.id = u
  members : ∀ m ∈ db.project_members, ∃ x ∈ db.users, x.id = m.user_id
  keyUsers : ∀ k ∈ db.api_keys, ∃ x ∈ db.users, x.id = k.user_id

/-- The role of the owner is held by owners only. -/
def Directory.OwnersOnly (db : Directory) : Prop :=
  ∀ m ∈ db.project_members, m.role = "owner" →
    ∃ r ∈ db.projects, r.id = m.project_id ∧ r.owner_id = some m.user_id

/-- A request that is past its first statement has passed the checks before it. -/
def Prechecked (codec : Codec) : Task → Prop
  | .notOwner identity request | .hasRole identity request _ | .permitted identity request =>
    precheck codec identity request = .ok ()
  | .received _ _ | .answered _ => True

structure Sound (codec : Codec) (s : Server) : Prop where
  valid : s.db.Valid
  owners : s.db.toDirectory.OwnersOnly
  prechecked : ∀ t task, s.tasks t = some task → Prechecked codec task

lemma fromStr_eq_owner {role : String} (h : ProjectRole.fromStr role = some .owner) :
    role = "owner" := by
  unfold ProjectRole.fromStr at h
  split at h <;> simp_all

/-- The roles that may be given do not include that of the owner. -/
lemma role_of_precheck {identity : Identity} {p : Uuid} {user_id role : String}
    (h : precheck codec identity (.addMember p user_id role) = .ok ()) :
    role = "manager" ∨ role = "collaborator" ∨ role = "viewer" := by
  by_contra hnot
  simp [precheck, hnot, bind, Except.bind] at h

/-! ### Statements on valid directories -/

lemma nodup_keys_upsertMember {m : ProjectMemberRow} {rows : List ProjectMemberRow}
    (h : (rows.map fun r => (r.project_id, r.user_id)).Nodup) :
    ((upsertMember m rows).map fun r => (r.project_id, r.user_id)).Nodup := by
  simp only [upsertMember]
  split
  · have hkey : ((fun r : ProjectMemberRow => (r.project_id, r.user_id)) ∘ fun r =>
        if r.project_id = m.project_id ∧ r.user_id = m.user_id then { r with role := m.role }
        else r) = fun r => (r.project_id, r.user_id) := by
      funext r
      simp only [Function.comp]
      split <;> rfl
    rwa [List.map_map, hkey]
  · next hnone =>
    rw [List.map_append, List.nodup_append]
    refine ⟨h, by simp, ?_⟩
    intro k hk k' hk' heq
    subst heq
    rw [List.map_singleton, List.mem_singleton] at hk'
    obtain ⟨r, hr, hkey⟩ := List.mem_map.mp hk
    apply hnone
    rw [List.any_eq_true]
    exact ⟨r, hr, by simpa using hkey.trans hk'⟩

lemma nodup_map_concat {α β : Type} {f : α → β} {rows : List α} (h : (rows.map f).Nodup) {row : α}
    (hfresh : ∀ r ∈ rows, f r ≠ f row) : ((rows ++ [row]).map f).Nodup := by
  rw [List.map_append, List.map_singleton, List.nodup_append]
  refine ⟨h, by simp, ?_⟩
  intro k hk k' hk'
  obtain ⟨r, hr, rfl⟩ := List.mem_map.mp hk
  rw [List.mem_singleton.mp hk']
  exact hfresh r hr

/-- A new project comes with the membership of its owner. -/
lemma mem_ownerRow {identity : Identity} {id : Uuid} {m : ProjectMemberRow}
    (h : m ∈ (identity.user_id.map fun user_id => (⟨id, user_id, "owner"⟩ :
      ProjectMemberRow)).toList) :
    m.project_id = id ∧ identity.user_id = some m.user_id ∧ m.role = "owner" := by
  cases huser : identity.user_id with
  | none => simp [huser] at h
  | some user_id =>
    simp only [huser, Option.map_some, Option.toList_some, List.mem_singleton] at h
    rw [h]
    exact ⟨rfl, rfl, rfl⟩

section

variable {db : Directory}

lemma Directory.Valid.newProject (h : db.Valid) {row : ProjectRow}
    (hfresh : ∀ r ∈ db.projects, r.id ≠ row.id) {identity : Identity} :
    Directory.Valid { db with
      projects := db.projects ++ [row]
      project_members := db.project_members ++
        (identity.user_id.map fun user_id => ⟨row.id, user_id, "owner"⟩).toList } := by
  have hnoMember : ∀ m ∈ db.project_members, m.project_id ≠ row.id := by
    intro m hm hid
    obtain ⟨r, hr, hrid⟩ := h.refs m hm
    exact hfresh r hr (hrid.trans hid)
  constructor
  · exact nodup_map_concat h.projects hfresh
  · cases identity.user_id with
    | none => simpa using h.members
    | some user_id =>
      refine nodup_map_concat h.members fun m hm hkey => hnoMember m hm ?_
      exact congrArg Prod.fst hkey
  · intro m hm
    rcases List.mem_append.mp hm with hm | hm
    · obtain ⟨r, hr, hid⟩ := h.refs m hm
      exact ⟨r, List.mem_append_left _ hr, hid⟩
    · exact ⟨_, List.mem_append_right _ (List.mem_singleton_self _), (mem_ownerRow hm).1.symm⟩
  · intro m hm
    rcases List.mem_append.mp hm with hm | hm
    · exact h.roles m hm
    · rw [(mem_ownerRow hm).2.2]
      rfl

lemma Directory.Valid.fewerMembers (h : db.Valid) (keep : ProjectMemberRow → Bool) :
    Directory.Valid { db with project_members := db.project_members.filter keep } where
  projects := h.projects
  members := h.members.sublist (List.filter_sublist.map _)
  refs m hm := h.refs m (List.mem_of_mem_filter hm)
  roles m hm := h.roles m (List.mem_of_mem_filter hm)

lemma Directory.Valid.withoutProject (h : db.Valid) (q : Uuid) :
    Directory.Valid { db with
      projects := db.projects.filter fun p => p.id ≠ q
      project_members := db.project_members.filter fun m => m.project_id ≠ q } where
  projects := h.projects.sublist (List.filter_sublist.map _)
  members := h.members.sublist (List.filter_sublist.map _)
  refs m hm := by
    obtain ⟨hmem, hother⟩ := List.mem_filter.mp hm
    obtain ⟨r, hr, hid⟩ := h.refs m hmem
    exact ⟨r, List.mem_filter.mpr ⟨hr, by rwa [hid]⟩, hid⟩
  roles m hm := h.roles m (List.mem_of_mem_filter hm)

/-- Projects may change as long as they keep their ids. -/
lemma Directory.Valid.mapProjects (h : db.Valid) {f : ProjectRow → ProjectRow}
    (hid : ∀ r, (f r).id = r.id) :
    Directory.Valid { db with projects := db.projects.map f } where
  projects := by
    have hids : (fun r : ProjectRow => r.id) ∘ f = fun r => r.id := funext hid
    rw [List.map_map, hids]
    exact h.projects
  members := h.members
  refs m hm := by
    obtain ⟨r, hr, hrid⟩ := h.refs m hm
    exact ⟨_, List.mem_map_of_mem hr, (hid r).trans hrid⟩
  roles := h.roles

lemma Directory.Valid.upsertMember (h : db.Valid) {row : ProjectMemberRow}
    (hproject : ∃ p ∈ db.projects, p.id = row.project_id)
    (hrole : (ProjectRole.fromStr row.role).isSome) :
    Directory.Valid { db with project_members := Access.upsertMember row db.project_members } where
  projects := h.projects
  members := nodup_keys_upsertMember h.members
  refs m hm := by
    rcases mem_upsertMember hm with hm | rfl
    · exact h.refs m hm
    · exact hproject
  roles m hm := by
    rcases mem_upsertMember hm with hm | rfl
    · exact h.roles m hm
    · exact hrole

end

/-- What a checked request writes leaves the directory valid. -/
lemma Directory.Valid.written {db db' : Db} {identity : Identity} {drawn : Drawn}
    {request : Request} (h : db.toDirectory.Valid)
    (hprecheck : precheck codec identity request = .ok ())
    (hwritten : Written codec db identity drawn request db') : db'.toDirectory.Valid := by
  cases hwritten with
  | user _ _ _ | key _ _ _ _ | revoked _ | unseen _ | notSeen _ _ => exact h
  | project name hfresh _ => exact h.newProject hfresh
  | emptied q => exact h.fewerMembers _
  | deleted q _ => exact h.withoutProject q
  | settings q body nda =>
    refine h.mapProjects fun r => ?_
    split <;> rfl
  | member q user_id role target_uid _ hproject _ =>
    refine h.upsertMember hproject ?_
    rcases role_of_precheck hprecheck with rfl | rfl | rfl <;> rfl
  | removed q user_id target_uid => exact h.fewerMembers _

/-- What a checked request writes leaves all four tables valid. -/
lemma Db.Valid.perform {db db' : Db} {identity : Identity} {drawn : Drawn} {request : Request}
    (h : db.Valid) (hprecheck : precheck codec identity request = .ok ())
    (hperform : Access.perform codec db identity drawn request = .ok db') : db'.Valid := by
  have hwritten := written_of_perform hperform
  have hdirectory := h.directory.written hprecheck hwritten
  have hmore : ∀ {id : Uuid} {x : UserRow}, (∃ y ∈ db.users, y.id = id) →
      ∃ y ∈ db.users ++ [x], y.id = id := fun ⟨y, hy, hid⟩ =>
    ⟨y, List.mem_append_left _ hy, hid⟩
  cases hwritten with
  | user subject roles hfresh =>
    exact ⟨hdirectory, nodup_map_concat h.users fun x hx => (hfresh x hx).1,
      nodup_map_concat h.subjects fun x hx => (hfresh x hx).2, h.keys, h.hashes,
      fun p hp u hu => hmore (h.owners p hp u hu), fun m hm => hmore (h.members m hm),
      fun k hk => hmore (h.keyUsers k hk)⟩
  | key user_id name huser hfresh =>
    refine ⟨hdirectory, h.users, h.subjects, nodup_map_concat h.keys fun k hk => (hfresh k hk).1,
      nodup_map_concat h.hashes fun k hk => (hfresh k hk).2, h.owners, h.members, ?_⟩
    intro k hk
    rcases List.mem_append.mp hk with hk | hk
    · exact h.keyUsers k hk
    · rw [List.mem_singleton.mp hk]
      exact huser
  | revoked key_id =>
    exact ⟨hdirectory, h.users, h.subjects, h.keys.sublist (List.filter_sublist.map _),
      h.hashes.sublist (List.filter_sublist.map _), h.owners, h.members,
      fun k hk => h.keyUsers k (List.mem_of_mem_filter hk)⟩
  | project name hfresh huser =>
    refine ⟨hdirectory, h.users, h.subjects, h.keys, h.hashes, ?_, ?_, h.keyUsers⟩
    · intro p hp u hu
      rcases List.mem_append.mp hp with hp | hp
      · exact h.owners p hp u hu
      · rw [List.mem_singleton.mp hp] at hu
        exact huser u hu
    · intro m hm
      rcases List.mem_append.mp hm with hm | hm
      · exact h.members m hm
      · exact huser _ (mem_ownerRow hm).2.1
  | unseen _ | notSeen _ _ => exact h
  | emptied _ | removed _ _ _ =>
    exact ⟨hdirectory, h.users, h.subjects, h.keys, h.hashes, h.owners,
      fun m hm => h.members m (List.mem_of_mem_filter hm), h.keyUsers⟩
  | deleted q _ =>
    exact ⟨hdirectory, h.users, h.subjects, h.keys, h.hashes,
      fun p hp => h.owners p (List.mem_of_mem_filter hp),
      fun m hm => h.members m (List.mem_of_mem_filter hm), h.keyUsers⟩
  | settings q body nda =>
    refine ⟨hdirectory, h.users, h.subjects, h.keys, h.hashes, ?_, h.members, h.keyUsers⟩
    intro p hp u hu
    obtain ⟨r, hr, rfl⟩ := List.mem_map.mp hp
    refine h.owners r hr u ?_
    split at hu <;> exact hu
  | member q user_id role target_uid _ _ huser =>
    refine ⟨hdirectory, h.users, h.subjects, h.keys, h.hashes, h.owners, ?_, h.keyUsers⟩
    intro m hm
    rcases mem_upsertMember hm with hm | rfl
    · exact h.members m hm
    · exact huser

/-- What a checked request writes leaves the role of the owner to owners. -/
lemma Directory.OwnersOnly.perform {db db' : Db} {identity : Identity} {drawn : Drawn}
    {request : Request} (h : db.toDirectory.OwnersOnly)
    (hprecheck : precheck codec identity request = .ok ())
    (hperform : Access.perform codec db identity drawn request = .ok db') :
    db'.toDirectory.OwnersOnly := by
  cases written_of_perform hperform with
  | user _ _ _ | key _ _ _ _ | revoked _ | unseen _ | notSeen _ _ => exact h
  | project name _ _ =>
    intro m hm hrole
    rcases List.mem_append.mp hm with hm | hm
    · obtain ⟨r, hr, hkey⟩ := h m hm hrole
      exact ⟨r, List.mem_append_left _ hr, hkey⟩
    · obtain ⟨hid, huser, -⟩ := mem_ownerRow hm
      exact ⟨_, List.mem_append_right _ (List.mem_singleton_self _), hid.symm, huser⟩
  | emptied q | removed q _ _ => exact fun m hm => h m (List.mem_of_mem_filter hm)
  | deleted q _ =>
    intro m hm hrole
    obtain ⟨hmem, hother⟩ := List.mem_filter.mp hm
    obtain ⟨r, hr, hid, howner⟩ := h m hmem hrole
    exact ⟨r, List.mem_filter.mpr ⟨hr, by rwa [hid]⟩, hid, howner⟩
  | settings q body nda =>
    intro m hm hrole
    obtain ⟨r, hr, hkey⟩ := h m hm hrole
    refine ⟨_, List.mem_map_of_mem hr, ?_⟩
    split <;> exact hkey
  | member q user_id role target_uid _ _ _ =>
    intro m hm hrole
    rcases mem_upsertMember hm with hm | rfl
    · exact h m hm hrole
    · rcases role_of_precheck hprecheck with rfl | rfl | rfl <;> simp at hrole

/-- A project that is left has the owner that it had. -/
def SameOwner (p : Uuid) (db db' : Directory) : Prop :=
  ∀ r' ∈ db'.projects, r'.id = p → ∃ r ∈ db.projects, r.id = p ∧ r.owner_id = r'.owner_id

lemma SameOwner.of_subset {p : Uuid} {db db' : Directory}
    (h : ∀ r' ∈ db'.projects, r' ∈ db.projects) : SameOwner p db db' :=
  fun r' hr' hid => ⟨r', h r' hr', hid, rfl⟩

/-- No request gives a project to somebody else. -/
lemma sameOwner_perform {db db' : Db} {identity : Identity} {drawn : Drawn} {request : Request}
    {p : Uuid} (hfresh : drawn.id ≠ p) (h : perform codec db identity drawn request = .ok db') :
    SameOwner p db.toDirectory db'.toDirectory := by
  cases written_of_perform h with
  | user _ _ _ | key _ _ _ _ | revoked _ | unseen _ | notSeen _ _ | emptied _ | member _ _ _ _ _ _ _
  | removed _ _ _ => exact .of_subset fun r hr => hr
  | project name _ _ =>
    intro r' hr' hid
    rcases List.mem_append.mp hr' with hr' | hr'
    · exact ⟨r', hr', hid, rfl⟩
    · rw [List.mem_singleton.mp hr'] at hid
      exact absurd hid hfresh
  | deleted q _ => exact .of_subset fun r hr => List.mem_of_mem_filter hr
  | settings q body nda =>
    intro r' hr' hid
    obtain ⟨r, hr, rfl⟩ := List.mem_map.mp hr'
    refine ⟨r, hr, ?_⟩
    split at hid <;> simp_all

/-- The row of the project is in the table. -/
def Directory.Has (db : Directory) (p : Uuid) : Prop := ∃ r ∈ db.projects, r.id = p

/-- Without its members, a project is seen by its owner and by administrators. -/
lemma owner_of_seen {db : Db} {identity : Identity} {p : Uuid}
    (h : ((Db.seen { db with project_members := db.project_members.filter fun m =>
      m.project_id ≠ p } identity).getProject p).isSome) :
    identity.isAdmin = true ∨ ∃ r ∈ db.projects, r.id = p ∧ ∃ u, identity.user_id = some u ∧
      r.owner_id = some u := by
  by_cases hadmin : identity.isAdmin = true
  · exact .inl hadmin
  · rw [Db.seen, if_neg hadmin] at h
    cases huser : identity.user_id with
    | none => simp [huser, Directory.getProject] at h
    | some u =>
      simp only [huser] at h
      obtain ⟨r, hr, hid⟩ := getProject_isSome_iff.mp h
      have hvisible := of_decide_eq_true (List.mem_filter.mp hr).2
      rw [hid] at hvisible
      rcases mem_afVisibleProjects.mp hvisible with ⟨r', hr', howner, hid'⟩ | ⟨m, hm, -, hproject⟩
      · exact .inr ⟨r', hr', hid', u, rfl, howner⟩
      · have hother := (List.mem_filter.mp hm).2
        simp [hproject] at hother

/-- Only the owner and administrators remove the row of a project. -/
lemma remover_of_perform {db db' : Db} {identity : Identity} {drawn : Drawn} {request : Request}
    {p : Uuid} (hthere : db.toDirectory.Has p) (hgone : ¬ db'.toDirectory.Has p)
    (h : perform codec db identity drawn request = .ok db') :
    request = .deleteProject p ∧ (identity.isAdmin = true ∨ ∃ r ∈ db.projects, r.id = p ∧
      ∃ u, identity.user_id = some u ∧ r.owner_id = some u) := by
  obtain ⟨r, hr, hid⟩ := hthere
  cases written_of_perform h with
  | user _ _ _ | key _ _ _ _ | revoked _ | unseen _ | notSeen _ _ | emptied _ | member _ _ _ _ _ _ _
  | removed _ _ _ => exact absurd ⟨r, hr, hid⟩ hgone
  | project name _ _ => exact absurd ⟨r, List.mem_append_left _ hr, hid⟩ hgone
  | deleted q hseen =>
    by_cases hq : q = p
    · subst hq
      exact ⟨rfl, owner_of_seen hseen⟩
    · have hother : r.id ≠ q := fun heq => hq (heq.symm.trans hid)
      exact absurd ⟨r, List.mem_filter.mpr ⟨hr, by simpa using hother⟩, hid⟩ hgone
  | settings q body nda =>
    refine absurd ⟨_, List.mem_map_of_mem hr, ?_⟩ hgone
    split <;> exact hid

/-! ### Every step -/

/-- A new project does not take the id of `p`; and what is changed in another way leaves the tables
valid and the owners as they are. -/
def KeepsOwners (p : Uuid) (s : Server) : Event → Prop
  | .write _ drawn => drawn.id ≠ p
  | .other db => db.Valid ∧ db.toDirectory.OwnersOnly ∧
      SameOwner p s.db.toDirectory db.toDirectory
  | _ => True

variable {p : Uuid} {s s' : Server}

lemma prechecked_checkOwner {db : Db} {identity : Identity} {request : Request} :
    Prechecked codec (checkOwner codec db identity request) := by
  simp only [checkOwner]
  cases hprecheck : precheck codec identity request with
  | error e => trivial
  | ok =>
    cases request.project with
    | none => exact hprecheck
    | some q =>
      simp only
      cases (db.seen identity).getProject q with
      | none =>
        simp only
        split
        · trivial
        · split
          · exact hprecheck
          · trivial
      | some r =>
        simp only
        split <;> exact hprecheck

lemma Sound.put (h : Sound codec s) {t : ℕ} {task : Task} (htask : Prechecked codec task) :
    ∀ t' task', (s.put t task).tasks t' = some task' → Prechecked codec task' := by
  intro t' task' htask'
  simp only [Server.put, Function.update_apply] at htask'
  split at htask'
  · cases htask'
    exact htask
  · exact h.prechecked t' task' htask'

lemma Sound.prechecked_step (h : Sound codec s) {e : Event} (hstep : step codec s e = some s') :
    ∀ t task, s'.tasks t = some task → Prechecked codec task := by
  cases e with
  | arrive t raw_key now request =>
    simp only [step] at hstep
    split at hstep
    · cases hstep
    · split at hstep <;> cases hstep <;> exact h.put trivial
  | readOwner t =>
    simp only [step] at hstep
    split at hstep <;> cases hstep
    exact h.put prechecked_checkOwner
  | readRole t =>
    simp only [step] at hstep
    split at hstep <;> cases hstep
    next identity request htask =>
    have hprecheck : precheck codec identity request = .ok () := h.prechecked t _ htask
    exact h.put hprecheck
  | readAll t =>
    simp only [step] at hstep
    split at hstep
    · next identity request direct htask =>
      have hprecheck : precheck codec identity request = .ok () := h.prechecked t _ htask
      split at hstep <;> cases hstep
      · exact h.put hprecheck
      · exact h.put trivial
    · cases hstep
  | write t drawn =>
    simp only [step] at hstep
    split at hstep
    · split at hstep <;> cases hstep <;> exact h.put trivial
    · cases hstep
  | fail t =>
    simp only [step] at hstep
    split at hstep <;> cases hstep
    exact h.put trivial
  | other db =>
    cases hstep
    exact h.prechecked

lemma Sound.step (h : Sound codec s) {e : Event} (hkeeps : KeepsOwners p s e)
    (hstep : step codec s e = some s') :
    Sound codec s' ∧ SameOwner p s.db.toDirectory s'.db.toDirectory := by
  have htasks := h.prechecked_step hstep
  rcases db_of_step hstep with hsame | ⟨t, drawn, identity, request, rfl, htask, hperform⟩ | rfl
  · refine ⟨⟨?_, ?_, htasks⟩, ?_⟩
    · rw [hsame]
      exact h.valid
    · rw [hsame]
      exact h.owners
    · rw [hsame]
      exact .of_subset fun r hr => hr
  · have hprecheck : precheck codec identity request = .ok () := h.prechecked t _ htask
    exact ⟨⟨h.valid.perform hprecheck hperform, h.owners.perform hprecheck hperform, htasks⟩,
      sameOwner_perform hkeeps hperform⟩
  · obtain ⟨hvalid, howners, hsame⟩ := hkeeps
    exact ⟨⟨hvalid, howners, htasks⟩, hsame⟩

/-- A role that allows to delete is that of the owner. -/
lemma eq_owner_of_allows_delete {r : ProjectRole} (h : r.allows .delete = true) : r = .owner := by
  cases r <;> simp_all [ProjectRole.allows]

/-- Nobody but the owner may delete a project. -/
lemma Directory.Valid.owner_of_delete {db : Directory} (hvalid : db.Valid) (howners : db.OwnersOnly)
    {r : ProjectRow} (hr : r ∈ db.projects) (hid : r.id = p) {u v : Uuid}
    (howner : r.owner_id = some u) (hu : u ≠ allUsersSentinel)
    (h : checkProjectAccess db v p .delete = .ok ()) : v = u := by
  have hrole {who : Uuid} (hallows : RoleAllows (db.getRole p who) .delete) : who = u := by
    obtain ⟨role, hfrom, hallows⟩ := hallows
    obtain ⟨text, htext, hparse⟩ := Option.bind_eq_some_iff.mp hfrom
    obtain ⟨m, hm, hproject, rfl, rfl⟩ := mem_of_getRole htext
    rw [eq_owner_of_allows_delete hallows] at hparse
    obtain ⟨r', hr', hid', howner'⟩ := howners m hm (fromStr_eq_owner hparse)
    have hsame : r' = r := List.inj_on_of_nodup_map hvalid.projects hr' hr
      (hid'.trans (hproject.trans hid.symm))
    rw [hsame, howner] at howner'
    exact (Option.some.inj howner').symm
  obtain ⟨r', hr', hallowed⟩ := checkProjectAccess_ok_iff.mp h
  rcases hallowed with howner' | hdirect | hall
  · obtain ⟨hmem, hid'⟩ := mem_of_getProject hr'
    have hsame : r' = r := List.inj_on_of_nodup_map hvalid.projects hmem hr (hid'.trans hid.symm)
    rw [hsame, howner] at howner'
    exact (Option.some.inj howner').symm
  · exact hrole hdirect
  · exact absurd (hrole hall).symm hu

/-- A step that removes the row of the project is a request to delete it, of its owner `u` or an
administrator, or a change that is made in another way. -/
def RemovedByOwner (codec : Codec) (p u : Uuid) (s : Server) (e : Event) : Prop :=
  ∀ s', Access.step codec s e = some s' → s.db.toDirectory.Has p → ¬ s'.db.toDirectory.Has p →
    (∃ t drawn identity, e = .write t drawn ∧
      s.tasks t = some (.permitted identity (.deleteProject p)) ∧
      (identity.isAdmin = true ∨ identity.user_id = some u)) ∨ ∃ db, e = .other db

/-- Whatever the members of a project and administrators ask for, in any order of the statements:
the tables stay valid; as long as the project is there, its owner may do everything in it, and the
check lets nobody else delete it; and no request of another user removes it. -/
theorem owner_stays {u : Uuid} (hu : u ≠ allUsersSentinel) (h : Sound codec s)
    (howner : ∀ r ∈ s.db.projects, r.id = p → r.owner_id = some u) {es : List Event}
    (hkeeps : Along (step codec) (KeepsOwners p) s es) :
    Always (step codec) (fun s => s.db.Valid ∧
      ∀ r ∈ s.db.projects, r.id = p → r.owner_id = some u ∧
        ∀ v, (∀ action, checkProjectAccess s.db.toDirectory u p action = .ok ()) ∧
          (checkProjectAccess s.db.toDirectory v p .delete = .ok () → v = u)) s es ∧
    Along (step codec) (RemovedByOwner codec p u) s es := by
  have hinv : ∀ (s : Server) e s',
      (Sound codec s ∧ ∀ r ∈ s.db.projects, r.id = p → r.owner_id = some u) → KeepsOwners p s e →
      Access.step codec s e = some s' →
      Sound codec s' ∧ ∀ r ∈ s'.db.projects, r.id = p → r.owner_id = some u := by
    rintro s e s' ⟨hs, howner⟩ hkeeps hstep
    obtain ⟨hs', hsame⟩ := hs.step hkeeps hstep
    refine ⟨hs', ?_⟩
    intro r' hr' hid'
    obtain ⟨r, hr, hid, heq⟩ := hsame r' hr' hid'
    rw [← heq]
    exact howner r hr hid
  constructor
  · refine (always_of_along hinv ⟨h, howner⟩ hkeeps).mono ?_
    rintro s ⟨hs, howner⟩
    refine ⟨hs.valid, ?_⟩
    intro r hr hid
    refine ⟨howner r hr hid, fun v => ⟨?_, ?_⟩⟩
    · intro action
      obtain ⟨q, hq⟩ := Option.isSome_iff_exists.mp (getProject_isSome_iff.mpr ⟨r, hr, hid⟩)
      obtain ⟨hmem, hqid⟩ := mem_of_getProject hq
      exact checkProjectAccess_ok_iff.mpr ⟨q, hq, .inl (howner q hmem hqid)⟩
    · intro hdelete
      exact hs.valid.directory.owner_of_delete hs.owners hr hid (howner r hr hid) hu hdelete
  · refine along_of_invariant hinv ?_ ⟨h, howner⟩ hkeeps
    rintro s e ⟨-, howner⟩ - s' hstep hthere hgone
    rcases db_of_step hstep with hsame | ⟨t, drawn, identity, request, rfl, htask, hperform⟩ | rfl
    · exact absurd (hsame ▸ hthere) hgone
    · obtain ⟨rfl, hadmin | ⟨r, hr, hid, v, huser, hv⟩⟩ :=
        remover_of_perform hthere hgone hperform
      · exact .inl ⟨t, drawn, identity, rfl, htask, .inl hadmin⟩
      · have hsame : v = u := Option.some.inj (hv.symm.trans (howner r hr hid))
        exact .inl ⟨t, drawn, identity, rfl, htask, .inr (hsame ▸ huser)⟩
    · exact .inr ⟨s'.db, rfl⟩

/-- Where the owner has made user 7 a manager, who then makes the owner a viewer and asks to delete
the project. -/
def demotedServer : Server where
  db :=
    { projects := [⟨1, "p", some 5, false, .obj [], 0⟩]
      project_members := [⟨1, 5, "owner"⟩, ⟨1, 7, "manager"⟩]
      users := [⟨5, "owner", [], true⟩, ⟨7, "manager", [], true⟩]
      api_keys := [⟨1, 7, "key", none⟩] }
  tasks _ := none

def demotingEvents : List Event :=
  [.arrive 0 "key" 0 (.addMember 1 "5" "viewer"), .arrive 1 "key" 0 (.deleteProject 1),
    .readOwner 0, .readRole 0, .readAll 0, .readOwner 1, .readRole 1, .write 0 ⟨2, "", 0⟩,
    .readAll 1, .write 1 ⟨3, "", 0⟩]

/-- The members are gone, and the project is left to its owner. -/
theorem owner_stays_demoted :
    (∃ s', exec (step digitCodec) demotedServer (demotingEvents.take 8) = some s' ∧
      s'.db.getRole 1 5 = some "viewer") ∧
    ∃ s', exec (step digitCodec) demotedServer demotingEvents = some s' ∧
      s'.db.project_members = [] ∧ s'.db.Valid ∧
      ∀ action, checkProjectAccess s'.db.toDirectory 5 1 action = .ok () := by
  refine ⟨⟨_, rfl, rfl⟩, ?_⟩
  have hsound : Sound digitCodec demotedServer := by
    refine ⟨⟨⟨?_, ?_, ?_, ?_⟩, ?_, ?_, ?_, ?_, ?_, ?_, ?_⟩, ?_, fun t task htask => nomatch htask⟩
    all_goals simp [demotedServer, ProjectRole.fromStr, Directory.OwnersOnly]
  have hkeeps : Along (step digitCodec) (KeepsOwners 1) demotedServer demotingEvents := by
    refine .of_mem ?_ _
    simp [demotingEvents, KeepsOwners]
  obtain ⟨s', hs'⟩ : ∃ s', exec (step digitCodec) demotedServer demotingEvents = some s' := ⟨_, rfl⟩
  obtain ⟨hvalid, howner⟩ := (owner_stays (by decide) hsound (u := 5)
    (by simp [demotedServer]) hkeeps).1.of_exec hs'
  refine ⟨s', hs', ?_, hvalid, ?_⟩
  · cases hs'
    rfl
  · have hmem : (⟨1, "p", some 5, false, .obj [], 0⟩ : ProjectRow) ∈ s'.db.projects := by
      cases hs'
      decide
    exact ((howner _ hmem rfl).2 5).1

end Arbeiterfarm.Access
