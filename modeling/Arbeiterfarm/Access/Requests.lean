import Arbeiterfarm.Access.Membership
import Arbeiterfarm.Core.Text
import Arbeiterfarm.Foundation.Exec
import Arbeiterfarm.Storage.UploadQuota
import Mathlib.Logic.Function.Basic

/-!
# Requests about projects, members and accounts

A request is authenticated, and then handled in a transaction of its own: its user is checked
statement by statement, and what it asks for is written at the end. Between any two statements of a
check, and before what follows it, other requests go on, so that a check may be out of date when its
request writes. The statements behind the check are one step, up to the commit.

An administrator's transaction sees all rows; that of another user sees the projects that are
visible to the user, and writes to nothing else.
-/

namespace Arbeiterfarm.Access

open Foundation Storage

/-! ### Accounts -/

structure UserRow where
  id : Uuid
  subject : String
  roles : List String
  enabled : Bool
  deriving DecidableEq, Repr

structure ApiKeyRow where
  id : Uuid
  user_id : Uuid
  key_hash : String
  expires_at : Option ℤ
  deriving DecidableEq, Repr

structure Db extends Directory where
  users : List UserRow
  api_keys : List ApiKeyRow

structure Identity where
  roles : List String
  user_id : Option Uuid
  deriving DecidableEq, Repr

def Identity.isAdmin (identity : Identity) : Bool := identity.roles.any fun r => r = "admin"

inductive AuthError where
  | invalidKey | expired | disabled
  deriving DecidableEq, Repr

def AuthError.message : AuthError → String
  | .invalidKey => "invalid API key"
  | .expired    => "API key expired"
  | .disabled   => "user account disabled"

/-- The parts of the server that are not its own: the text of ids, and the hash of a key. -/
structure Codec where
  parseUuid : String → Option Uuid
  showUuid : Uuid → String
  hashKey : String → String

variable (codec : Codec)

def authenticateApiKey (db : Db) (raw_key : String) (now : ℤ) : Except AuthError Identity :=
  match db.api_keys.find? fun k => k.key_hash = codec.hashKey raw_key with
  | none => .error .invalidKey
  | some key =>
    if key.expires_at.any fun expires_at => expires_at < now then .error .expired
    else
      match db.users.find? fun u => u.id = key.user_id with
      | none => .error .invalidKey
      | some user =>
        if user.enabled then .ok ⟨user.roles, some user.id⟩ else .error .disabled

/-! ### Requests -/

inductive Request where
  | createUser (subject : String) (roles : List String)
  | createKey (user_id : Uuid) (name : String)
  | revokeKey (key_id : Uuid)
  | createProject (name : String)
  | deleteProject (project_id : Uuid)
  | updateSettings (project_id : Uuid) (body : Json)
  | addMember (project_id : Uuid) (user_id role : String)
  | removeMember (project_id : Uuid) (user_id : String)
  deriving DecidableEq, Repr

namespace Request

/-- The project that the user must be allowed to manage. -/
def project : Request → Option Uuid
  | .deleteProject p | .updateSettings p _ | .addMember p _ _ | .removeMember p _ => some p
  | _ => none

/-- The project is fetched before the check. -/
def fetches : Request → Bool
  | .deleteProject _ | .updateSettings _ _ => true
  | _ => false

/-- Only administrators may ask for it. -/
def forAdmins : Request → Bool
  | .createUser _ _ | .createKey _ _ | .revokeKey _ => true
  | _ => false

end Request

/-- `@all`, or an id -/
def resolveUserId (s : String) : Except ApiError Uuid :=
  if s = "@all" then .ok allUsersSentinel
  else
    match codec.parseUuid s with
    | some id => .ok id
    | none => .error (.badRequest ("invalid user_id: " ++ s))

def adminOnly (identity : Identity) : Except ApiError Unit :=
  if identity.isAdmin then .ok () else .error (.forbidden "admin required")

/-- A transaction under the row policies needs a user. -/
def hasUser (identity : Identity) : Except ApiError Unit :=
  if identity.isAdmin || identity.user_id.isSome then .ok ()
  else .error (.forbidden "no user_id on identity")

/-- What is checked of a request before the first statement. -/
def precheck (identity : Identity) : Request → Except ApiError Unit
  | .createUser subject _ => do
    adminOnly identity
    if subject.isEmpty then .error (.badRequest "subject is required")
  | .createKey _ name => do
    adminOnly identity
    if name.isEmpty then .error (.badRequest "name is required")
  | .revokeKey _ => adminOnly identity
  | .createProject name => do
    if (trim name.toList).isEmpty then .error (.badRequest "project name is required")
    hasUser identity
  | .deleteProject _ | .updateSettings _ _ => hasUser identity
  | .addMember _ user_id role => do
    if ¬ (role = "manager" ∨ role = "collaborator" ∨ role = "viewer") then
      .error (.badRequest "role must be one of: manager, collaborator, viewer")
    let target_uid ← resolveUserId codec user_id
    if identity.user_id = some target_uid then
      .error (.badRequest "cannot add yourself as a member")
    hasUser identity
  | .removeMember _ user_id => do
    let _ ← resolveUserId codec user_id
    hasUser identity

/-! ### What requests write -/

/-- What the transaction of an identity sees. -/
def Db.seen (db : Db) (identity : Identity) : Directory :=
  if identity.isAdmin then db.toDirectory
  else
    match identity.user_id with
    | some user_id => db.seenBy user_id
    | none => ⟨[], []⟩

/-- The values that are drawn for new rows. -/
structure Drawn where
  id : Uuid
  raw_key : String
  now : ℤ

def projectNotFound (project_id : Uuid) : ApiError :=
  .notFound ("project " ++ codec.showUuid project_id ++ " not found")

/-- `INSERT INTO project_members … ON CONFLICT (project_id, user_id) DO UPDATE SET role` -/
def upsertMember (m : ProjectMemberRow) (rows : List ProjectMemberRow) : List ProjectMemberRow :=
  if rows.any fun r => r.project_id = m.project_id && r.user_id = m.user_id then
    rows.map fun r =>
      if r.project_id = m.project_id ∧ r.user_id = m.user_id then { r with role := m.role } else r
  else rows ++ [m]

/-- `settings || $2`, without the flag that has a column of its own -/
def mergeSettings (settings body : Json) : Json :=
  match settings, body with
  | .obj fields, .obj changes =>
    let changes := changes.filter fun e => e.1 ≠ "nda"
    .obj (fields.filter (fun e => changes.all fun c => c.1 ≠ e.1) ++ changes)
  | settings, _ => settings

/-- The flag that a request sets, if it sets it. -/
def ndaOf (body : Json) : Except ApiError (Option Bool) :=
  match body.get "nda" with
  | none => .ok none
  | some v =>
    match v.asBool with
    | some nda => .ok (some nda)
    | none => .error (.badRequest "nda must be a boolean")

/-- The statements after the check, up to the commit. -/
def perform (db : Db) (identity : Identity) (drawn : Drawn) : Request → Except ApiError Db
  | .createUser subject roles =>
    if db.users.any fun u => u.id = drawn.id || u.subject = subject then
      .error (.ofDb (some "23505"))
    else .ok { db with users := db.users ++ [⟨drawn.id, subject, roles, true⟩] }
  | .createKey user_id _ =>
    if db.users.any fun u => u.id = user_id then
      if db.api_keys.any fun k => k.id = drawn.id || k.key_hash = codec.hashKey drawn.raw_key then
        .error (.ofDb (some "23505"))
      else
        .ok { db with
          api_keys := db.api_keys ++ [⟨drawn.id, user_id, codec.hashKey drawn.raw_key, none⟩] }
    else .error (.notFound ("user '" ++ codec.showUuid user_id ++ "' not found"))
  | .revokeKey key_id =>
    if db.api_keys.any fun k => k.id = key_id then
      .ok { db with api_keys := db.api_keys.filter fun k => k.id ≠ key_id }
    else .error (.notFound ("api key '" ++ codec.showUuid key_id ++ "' not found"))
  | .createProject name =>
    -- a row that is returned has to be visible when its statement begins
    if ¬ identity.isAdmin ∧ ((db.seen identity).getProject drawn.id).isNone then
      .error (.ofDb (some "42501"))
    else if db.projects.any fun p => p.id = drawn.id then .error (.ofDb (some "23505"))
    else if identity.user_id.any fun user_id => ¬ db.users.any fun u => u.id = user_id then
      .error (.ofDb (some "23503"))
    else
      .ok { db with
        projects := db.projects ++
          [⟨drawn.id, name, identity.user_id, false, .obj [], drawn.now⟩]
        project_members := db.project_members ++
          (identity.user_id.map fun user_id => ⟨drawn.id, user_id, "owner"⟩).toList }
  | .deleteProject project_id =>
    if ((db.seen identity).getProject project_id).isNone then .ok db
    else
      let left := { db with
        project_members := db.project_members.filter fun m => m.project_id ≠ project_id }
      -- without its members, only the owner still sees the project
      if ((left.seen identity).getProject project_id).isNone then .ok left
      else .ok { left with projects := left.projects.filter fun p => p.id ≠ project_id }
  | .updateSettings project_id body => do
    let nda ← ndaOf body
    if ((db.seen identity).getProject project_id).isSome then
      .ok { db with
        projects := db.projects.map fun p =>
          if p.id = project_id then
            { p with nda := nda.getD p.nda, settings := mergeSettings p.settings body }
          else p }
    else .error (projectNotFound codec project_id)
  | .addMember project_id user_id role => do
    let target_uid ← resolveUserId codec user_id
    if target_uid ≠ allUsersSentinel ∧ ¬ db.users.any fun u => u.id = target_uid then
      .error (.notFound ("user " ++ codec.showUuid target_uid ++ " not found"))
    else if ¬ identity.isAdmin ∧ ((db.seen identity).getProject project_id).isNone then
      .error (.ofDb (some "42501"))
    else if (db.getProject project_id).isNone ∨ ¬ db.users.any fun u => u.id = target_uid then
      .error (.ofDb (some "23503"))
    else
      .ok { db with
        project_members := upsertMember ⟨project_id, target_uid, role⟩ db.project_members }
  | .removeMember project_id user_id => do
    let target_uid ← resolveUserId codec user_id
    let owner := ((db.seen identity).getProject project_id).bind (·.owner_id)
    if owner = some target_uid then .error (.badRequest "cannot remove the project owner")
    else if ((db.seen identity).getProject project_id).isNone then .ok db
    else
      .ok { db with
        project_members := db.project_members.filter fun m =>
          ¬ (m.project_id = project_id ∧ m.user_id = target_uid) }

/-! ### Requests in progress -/

inductive Task where
  | received (identity : Identity) (request : Request)
  /-- The user is not the owner of the project. -/
  | notOwner (identity : Identity) (request : Request)
  /-- The role of the user has been read. -/
  | hasRole (identity : Identity) (request : Request) (direct : Option String)
  | permitted (identity : Identity) (request : Request)
  | answered (result : Except ApiError Unit)

structure Server where
  db : Db
  tasks : ℕ → Option Task

inductive Event where
  | arrive (t : ℕ) (raw_key : String) (now : ℤ) (request : Request)
  | readOwner (t : ℕ)
  | readRole (t : ℕ)
  | readAll (t : ℕ)
  | write (t : ℕ) (drawn : Drawn)
  /-- A statement of the request fails, and its transaction is rolled back. -/
  | fail (t : ℕ)
  /-- The database is changed in another way, for example by the local command line. -/
  | other (db : Db)

def Server.put (s : Server) (t : ℕ) (task : Task) : Server :=
  { s with tasks := Function.update s.tasks t (some task) }

/-- Refused, in the same words whatever the reason. -/
def accessDenied : Task := .answered (.error (.forbidden "access denied"))

/-- The check up to the owner of the project. -/
def checkOwner (db : Db) (identity : Identity) (request : Request) : Task :=
  match precheck codec identity request, request.project with
  | .error e, _ => .answered (.error e)
  | .ok (), none => .permitted identity request
  | .ok (), some project_id =>
    match (db.seen identity).getProject project_id with
    | none =>
      if request.fetches then .answered (.error (projectNotFound codec project_id))
      else if identity.isAdmin then .permitted identity request
      else accessDenied
    | some p =>
      if identity.isAdmin ∨ p.owner_id = identity.user_id then .permitted identity request
      else .notOwner identity request

/-- The role that the transaction of an identity reads. -/
def readRoleOf (db : Db) (identity : Identity) (request : Request) (who : Option Uuid) :
    Option String :=
  match request.project, who with
  | some project_id, some user_id => (db.seen identity).getRole project_id user_id
  | _, _ => none

def step (s : Server) : Event → Option Server
  | .arrive t raw_key now request =>
    match s.tasks t with
    | some _ => none
    | none =>
      match authenticateApiKey codec s.db raw_key now with
      | .error e => some (s.put t (.answered (.error (.unauthorized e.message))))
      | .ok identity => some (s.put t (.received identity request))
  | .readOwner t =>
    match s.tasks t with
    | some (.received identity request) => some (s.put t (checkOwner codec s.db identity request))
    | _ => none
  | .readRole t =>
    match s.tasks t with
    | some (.notOwner identity request) =>
      some (s.put t (.hasRole identity request (readRoleOf s.db identity request identity.user_id)))
    | _ => none
  | .readAll t =>
    match s.tasks t with
    | some (.hasRole identity request direct) =>
      let all := readRoleOf s.db identity request (some allUsersSentinel)
      match decideRole direct all .manageMembers with
      | .ok () => some (s.put t (.permitted identity request))
      | .error _ => some (s.put t accessDenied)
    | _ => none
  | .write t drawn =>
    match s.tasks t with
    | some (.permitted identity request) =>
      match perform codec s.db identity drawn request with
      | .ok db => some ({ s with db := db }.put t (.answered (.ok ())))
      | .error e => some (s.put t (.answered (.error e)))
    | _ => none
  | .fail t =>
    match s.tasks t with
    | none | some (.answered _) => none
    | some _ => some (s.put t (.answered (.error (.ofDb none))))
  | .other db => some { s with db := db }

end Arbeiterfarm.Access
