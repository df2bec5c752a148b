import Arbeiterfarm.Core.Json
import Arbeiterfarm.Core.Text
import Arbeiterfarm.Foundation.Session
import Mathlib.Logic.Function.Basic

/-!
# Connections of plugins

A plugin's statement runs under the search path of the plugin and, for a user, under a restricted
role. `scopedQuery` and `scopedExecute` set both before the statement and reset them after it; for a
user the calls around them open a transaction. The outcome of each step is an input, and so is
what the plugin's statement does to the transaction; it changes no setting.
-/

namespace Arbeiterfarm.Db

open Foundation

/-- The settings of a session. -/
structure Settings where
  role : String
  search_path : String
  current_user_id : String
  deriving DecidableEq, Repr

inductive PluginDbError where
  | query (msg : String)
  deriving DecidableEq, Repr

/-! ### Validation -/

def forbiddenSqlPatterns : List String :=
  ["SET SEARCH_PATH", "SET SESSION", "SET LOCAL", "GRANT", "REVOKE", "DROP SCHEMA",
    "CREATE SCHEMA", "ALTER SCHEMA", "PUBLIC.", "PG_CATALOG.", "INFORMATION_SCHEMA.",
    "SET ROLE", "RESET ROLE", "COPY ", "\\COPY"]

def validateSql (toUppercase : String → String) (sql : String) : Except PluginDbError Unit :=
  let upper := toUppercase sql
  match forbiddenSqlPatterns.find? fun p => (splitAround p.toList upper.toList).isSome with
  | some forbidden => .error (.query ("forbidden SQL pattern: " ++ forbidden))
  | none           => .ok ()

/-! ### A call -/

/-- A call and the outcomes of its steps: an error, or `none`. -/
structure PluginCall (ρ : Type) where
  sql : String
  user_id : Option Uuid
  begin : Option String
  set_role : Option String
  set_user : Option String
  set_path : Option String
  statement : Except String ρ
  /-- What the statement does to the transaction if it succeeds. -/
  commands : List TxCommand
  reset_path : Option String
  reset_role : Option String
  commit : Option String

/-- The session of a call, and the settings under which the plugin's statement ran. -/
structure CallState where
  session : Session Settings
  ran_under : Option Settings := none

section Scoped

variable {ρ : Type} (default : Settings) (schema : String) (printUuid : Uuid → String)
  (toUppercase : String → String) (call : PluginCall ρ)

/-- Go on unless the statement fails. -/
def CallState.step (error : Option String) (effect : Session Settings → Session Settings)
    (next : CallState → CallState × Except PluginDbError ρ) (c : CallState) :
    CallState × Except PluginDbError ρ :=
  match c.session.statement error effect with
  | (s, some msg) => ({ c with session := s }, .error (.query msg))
  | (s, none)     => next { c with session := s }

def pluginPath : String := schema ++ ",pg_temp"

def setRole (s : Settings) : Settings := { s with role := "af_api" }

def setUser (uid : Uuid) (s : Settings) : Settings := { s with current_user_id := printUuid uid }

def setPath (s : Settings) : Settings := { s with search_path := pluginPath schema }

def resetPath (s : Settings) : Settings := { s with search_path := default.search_path }

def setContext (next : CallState → CallState × Except PluginDbError ρ) (c : CallState) :
    CallState × Except PluginDbError ρ :=
  match call.user_id with
  | some uid =>
    c.step call.set_role (.setLocal setRole)
      (CallState.step call.set_user (.setLocal (setUser printUuid uid)) next)
  | none => next c

/-- The plugin's statement; its error is not raised yet. -/
def runStatement (c : CallState) : CallState where
  session := (c.session.statement
    (match call.statement with | .error msg => some msg | .ok _ => none)
    (.execAll call.commands)).1
  ran_under := some c.session.current

/-- An error is passed over. -/
def resetRole (c : CallState) : CallState :=
  match call.user_id with
  | some _ =>
    { c with session :=
        (c.session.statement call.reset_role (.set fun s => { s with role := default.role })).1 }
  | none => c

/-- The common body of the two functions. -/
def scopedRun : CallState → CallState × Except PluginDbError ρ :=
  setContext printUuid call
    (CallState.step call.set_path (.set (setPath schema)) fun c =>
      (runStatement call c).step call.reset_path (.set (resetPath default)) fun c =>
        (resetRole default call c, call.statement.mapError .query))

/-- A commit that fails rolls back, as a transaction that is dropped does. -/
def commitTx (error : Option String) (s : Session Settings) : Session Settings × Option String :=
  match error with
  | some msg => (s.exec .rollback, some msg)
  | none     => (s.exec .commit, none)

/-- The end of the transaction of a call. -/
def closeTransaction (r : CallState × Except PluginDbError ρ) :
    CallState × Except PluginDbError ρ :=
  match r with
  | (c, .error e) => ({ c with session := c.session.exec .rollback }, .error e)
  | (c, .ok result) =>
    match commitTx call.commit c.session with
    | (s, some msg) => ({ c with session := s }, .error (.query msg))
    | (s, none)     => ({ c with session := s }, .ok result)

/-- The common body of the two calls. -/
def runJson (s : Session Settings) : CallState × Except PluginDbError ρ :=
  match validateSql toUppercase call.sql with
  | .error e => (⟨s, none⟩, .error e)
  | .ok () =>
    match call.user_id with
    | some _ =>
      match s.statement call.begin (.exec .begin) with
      | (s, some msg) => (⟨s, none⟩, .error (.query msg))
      | (s, none) =>
        closeTransaction call (scopedRun default schema printUuid call ⟨s, none⟩)
    | none =>
      match call.begin with
      | some msg => (⟨s, none⟩, .error (.query msg))
      | none     => scopedRun default schema printUuid call ⟨s, none⟩

end Scoped

section Calls

variable (default : Settings) (schema : String) (printUuid : Uuid → String)
  (toUppercase : String → String)

/-- Returns the rows. -/
def queryJson (call : PluginCall (List Json)) :
    Session Settings → CallState × Except PluginDbError (List Json) :=
  runJson default schema printUuid toUppercase call

/-- Returns the number of rows. -/
def executeJson (call : PluginCall ℕ) :
    Session Settings → CallState × Except PluginDbError ℕ :=
  runJson default schema printUuid toUppercase call

/-! ### A pool of connections -/

inductive PluginRequest where
  | query (call : PluginCall (List Json))
  | execute (call : PluginCall ℕ)

def PluginRequest.user_id : PluginRequest → Option Uuid
  | .query call   => call.user_id
  | .execute call => call.user_id

def PluginRequest.run (s : Session Settings) : PluginRequest → CallState
  | .query call   => (queryJson default schema printUuid toUppercase call s).1
  | .execute call => (executeJson default schema printUuid toUppercase call s).1

/-- The settings with which a call took its connection, with which it returned it, and under which
the plugin's statement ran. -/
structure CallRecord where
  user_id : Option Uuid
  taken : Settings
  returned : Settings
  ran_under : Option Settings
  deriving DecidableEq

structure PluginPool where
  connections : ℕ → Session Settings
  calls : List CallRecord

/-- Every connection starts with the default settings. -/
def PluginPool.new : PluginPool := ⟨fun _ => .idle default, []⟩

/-- A call on connection `c`. Calls on different connections do not affect each other's settings. -/
def PluginPool.call (pool : PluginPool) (c : ℕ) (request : PluginRequest) : PluginPool :=
  let s := request.run default schema printUuid toUppercase (pool.connections c)
  { connections := Function.update pool.connections c s.session
    calls := pool.calls ++
      [⟨request.user_id, (pool.connections c).current, s.session.current, s.ran_under⟩] }

def PluginPool.run (requests : List (ℕ × PluginRequest)) : PluginPool :=
  requests.foldl (fun pool request =>
    pool.call default schema printUuid toUppercase request.1 request.2) (PluginPool.new default)

end Calls

end Arbeiterfarm.Db
