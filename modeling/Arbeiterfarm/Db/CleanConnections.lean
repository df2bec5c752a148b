import Arbeiterfarm.Db.PluginDb

/-!
# Clean connections

A call for a user works in a transaction: what it sets is undone with the transaction, or reset
before the commit. A call without a user resets the search path itself, so its connection comes back
clean as long as that statement succeeds and the plugin has left no transaction open.
-/

namespace Arbeiterfarm.Db

open Foundation

variable {ρ : Type} {default : Settings} {schema : String} {printUuid : Uuid → String}
  {toUppercase : String → String} {call : PluginCall ρ}

/-- The statement ends with the end of a transaction. -/
def PluginCall.EndsTransaction (call : PluginCall ρ) : Prop :=
  ∃ commands cmd, call.commands = commands ++ [cmd] ∧ cmd ≠ .begin

/-- Without a user, the search path is reset and the statement leaves no transaction open. For a
user, the statement ends no transaction; or it leaves none open, and the search path is reset. -/
def PluginCall.Contained (toUppercase : String → String) (call : PluginCall ρ) : Prop :=
  validateSql toUppercase call.sql = .ok () →
    match call.user_id with
    | none => call.reset_path = none ∧ (call.commands = [] ∨ call.EndsTransaction)
    | some _ =>
      (∀ cmd ∈ call.commands, cmd = .begin) ∨ call.reset_path = none ∧ call.EndsTransaction

/-- The plugin's statement ran under the search path of the plugin and, for a user, under the
restricted role and with the id of the user. -/
structure Scoped (schema : String) (printUuid : Uuid → String) (user_id : Option Uuid)
    (s : Settings) : Prop where
  search_path : s.search_path = pluginPath schema
  role : ∀ uid, user_id = some uid → s.role = "af_api"
  user : ∀ uid, user_id = some uid → s.current_user_id = printUuid uid

/-! ### Steps -/

/-- A statement fails and ends the call, or it takes effect and the call goes on. -/
lemma CallState.step_eq (error : Option String) (effect : Session Settings → Session Settings)
    (next : CallState → CallState × Except PluginDbError ρ) (c : CallState) :
    (∃ e, c.step error effect next = ({ c with session := c.session.fail }, .error e)) ∨
      error = none ∧ c.step error effect next = next { c with session := effect c.session } := by
  obtain ⟨s, ran_under⟩ := c
  cases error with
  | none =>
    cases s with
    | aborted start => exact .inl ⟨_, rfl⟩
    | idle s => exact .inr ⟨rfl, rfl⟩
    | active start pending cur => exact .inr ⟨rfl, rfl⟩
  | some msg => cases s <;> exact .inl ⟨_, rfl⟩

lemma resetPath_setPath : resetPath default (setPath schema default) = default := rfl

/-- The end of the call, on a session without a transaction. -/
lemma finish_idle (call : PluginCall ρ) {c : CallState} {s : Settings}
    (hsession : c.session = .idle s) (hs : resetPath default s = default)
    (hreset : call.reset_path = none) :
    ∃ result, (c.step call.reset_path (.set (resetPath default)) fun c =>
        (resetRole default call c, call.statement.mapError .query)) =
      (⟨.idle default, c.ran_under⟩, result) := by
  obtain ⟨session, ran_under⟩ := c
  obtain rfl : session = .idle s := hsession
  rw [hreset]
  simp only [CallState.step, Session.statement, Session.set, hs, resetRole]
  cases call.user_id with
  | none => exact ⟨_, rfl⟩
  | some uid => cases call.reset_role <;> exact ⟨_, rfl⟩

/-! ### The plugin's statement -/

lemma PluginCall.EndsTransaction.exists_idle (h : call.EndsTransaction) (s : Session Settings) :
    ∃ x, s.execAll call.commands = .idle x := by
  obtain ⟨commands, cmd, hcommands, hcmd⟩ := h
  rw [hcommands]
  exact Session.exists_execAll_eq_idle hcmd s

/-- Outside a transaction the statement leaves the settings as they are. -/
lemma session_runStatement_idle {c : CallState} {s : Settings} (hc : c.session = .idle s)
    (h : call.commands = [] ∨ call.EndsTransaction) :
    (runStatement call c).session = .idle s := by
  simp only [runStatement, hc]
  cases call.statement with
  | error msg => rfl
  | ok result =>
    show Session.execAll call.commands (.idle s) = .idle s
    rcases h with hnil | hends
    · rw [hnil]
      rfl
    · obtain ⟨x, hx⟩ := hends.exists_idle (.idle s)
      have hkept := (show Session.Kept (· = s) (.idle s) from rfl).execAll call.commands
      rw [hx] at hkept ⊢
      exact congrArg _ hkept

/-- In a transaction the statement leaves it open, aborts it, or ends it. -/
lemma session_runStatement_active {c : CallState} {cur : Settings}
    (hc : c.session = .active default (setPath schema default) cur)
    (h : (∀ cmd ∈ call.commands, cmd = .begin) ∨ call.reset_path = none ∧ call.EndsTransaction) :
    (runStatement call c).session = .active default (setPath schema default) cur ∨
      (runStatement call c).session = .aborted default ∨
      call.reset_path = none ∧ ∃ x, (runStatement call c).session = .idle x ∧
        resetPath default x = default := by
  simp only [runStatement, hc]
  cases call.statement with
  | error msg => exact .inr (.inl rfl)
  | ok result =>
    rcases h with hbegin | ⟨hreset, hends⟩
    · exact .inl (Session.execAll_active hbegin _ _ _)
    · obtain ⟨x, hx⟩ := hends.exists_idle (.active default (setPath schema default) cur)
      have hkept : Session.Kept (fun x => resetPath default x = default)
          (.active default (setPath schema default) cur) := ⟨rfl, rfl⟩
      have hafter := hkept.execAll call.commands
      rw [hx] at hafter
      exact .inr (.inr ⟨hreset, x, hx, hafter⟩)

/-! ### A call without a user -/

lemma scopedRun_of_none (default : Settings) (schema : String) (printUuid : Uuid → String)
    (huser : call.user_id = none) (hreset : call.reset_path = none)
    (h : call.commands = [] ∨ call.EndsTransaction) :
    ∃ ran result, scopedRun default schema printUuid call ⟨.idle default, none⟩ =
        (⟨.idle default, ran⟩, result) ∧
      ∀ s, ran = some s → Scoped schema printUuid call.user_id s := by
  simp only [scopedRun, setContext, huser]
  rcases CallState.step_eq call.set_path (.set (setPath schema)) _ ⟨.idle default, none⟩ with
    ⟨e, hstep⟩ | ⟨-, hstep⟩
  · exact ⟨none, .error e, hstep, by rintro s ⟨⟩⟩
  · obtain ⟨result, hfinish⟩ := finish_idle call
      (session_runStatement_idle (c := ⟨.idle (setPath schema default), none⟩) rfl h)
      (resetPath_setPath) hreset
    refine ⟨some (setPath schema default), result, hstep.trans hfinish, ?_⟩
    rintro s ⟨⟩
    exact ⟨rfl, by rintro uid ⟨⟩, by rintro uid ⟨⟩⟩

/-! ### A call for a user -/

/-- However the call ends, the settings are the default ones after its transaction. -/
def Restored (default : Settings) (r : CallState × Except PluginDbError ρ) : Prop :=
  match r.2 with
  | .error _ => r.1.session.exec .rollback = .idle default
  | .ok _    => ∀ error, (commitTx error r.1.session).1 = .idle default

/-- The end of the transaction leaves the default settings, whichever it is. -/
inductive Restorable (default : Settings) : Session Settings → Prop
  | idle : Restorable default (.idle default)
  | active (cur : Settings) : Restorable default (.active default default cur)
  | aborted : Restorable default (.aborted default)

lemma Restorable.restored {c : CallState} (h : Restorable default c.session)
    (result : Except PluginDbError ρ) : Restored default (c, result) := by
  obtain ⟨session, ran_under⟩ := c
  have hrollback : session.exec .rollback = .idle default := by cases h <;> rfl
  cases result with
  | error e => exact hrollback
  | ok x =>
    intro error
    cases error with
    | some msg => exact hrollback
    | none => cases h <;> rfl

lemma Restorable.resetRole {c : CallState} (h : Restorable default c.session) :
    Restorable default (resetRole default call c).session := by
  obtain ⟨session, ran_under⟩ := c
  simp only [Db.resetRole]
  cases call.user_id with
  | none => exact h
  | some uid =>
    cases h with
    | idle => cases call.reset_role <;> exact .idle
    | active cur =>
      cases call.reset_role with
      | none => exact .active _
      | some msg => exact .aborted
    | aborted => exact .aborted

lemma restored_of_openedAt {c : CallState} {e : PluginDbError}
    (h : Session.OpenedAt default c.session) :
    Restored default ((c, .error e) : CallState × Except PluginDbError ρ) := h.rollback

lemma ran_under_resetRole (c : CallState) :
    (resetRole default call c).ran_under = c.ran_under := by
  simp only [resetRole]
  cases call.user_id <;> rfl

/-- The end of the call, after the plugin's statement. -/
lemma restored_finish {c : CallState} {cur : Settings}
    (hc : c.session = .active default (setPath schema default) cur ∨
      c.session = .aborted default ∨
      call.reset_path = none ∧ ∃ x, c.session = .idle x ∧ resetPath default x = default) :
    ∃ r, (c.step call.reset_path (.set (resetPath default)) fun c =>
        (resetRole default call c, call.statement.mapError .query)) = r ∧
      Restored default r ∧ r.1.ran_under = c.ran_under := by
  obtain ⟨session, ran_under⟩ := c
  rcases hc with hc | hc | ⟨hreset, x, hc, hx⟩
  · obtain rfl : session = _ := hc
    rcases CallState.step_eq call.reset_path (.set (resetPath default)) _
      ⟨.active default (setPath schema default) cur, ran_under⟩ with ⟨e, hstep⟩ | ⟨-, hstep⟩
    · exact ⟨_, hstep, restored_of_openedAt .aborted, rfl⟩
    · exact ⟨_, hstep, (Restorable.resetRole (.active _)).restored _, ran_under_resetRole _⟩
  · obtain rfl : session = _ := hc
    exact ⟨_, rfl, restored_of_openedAt .aborted, rfl⟩
  · obtain ⟨result, hfinish⟩ := finish_idle call hc hx hreset
    exact ⟨_, hfinish, Restorable.idle.restored _, rfl⟩

lemma scopedRun_of_some (default : Settings) (schema : String) (printUuid : Uuid → String)
    {uid : Uuid} (huser : call.user_id = some uid)
    (h : (∀ cmd ∈ call.commands, cmd = .begin) ∨ call.reset_path = none ∧ call.EndsTransaction) :
    ∃ r, scopedRun default schema printUuid call ⟨.active default default default, none⟩ = r ∧
      Restored default r ∧
      ∀ s, r.1.ran_under = some s → Scoped schema printUuid call.user_id s := by
  simp only [scopedRun, setContext, huser]
  rcases CallState.step_eq call.set_role (.setLocal setRole) _
    ⟨.active default default default, none⟩ with ⟨e, hstep⟩ | ⟨-, hstep⟩
  · exact ⟨_, hstep, restored_of_openedAt .aborted, by rintro s ⟨⟩⟩
  rw [hstep]
  rcases CallState.step_eq call.set_user (.setLocal (setUser printUuid uid)) _
    ⟨.active default default (setRole default), none⟩ with ⟨e, hstep⟩ | ⟨-, hstep⟩
  · exact ⟨_, hstep, restored_of_openedAt .aborted, by rintro s ⟨⟩⟩
  rw [show Session.setLocal setRole (.active default default default) =
    .active default default (setRole default) from rfl, hstep]
  rcases CallState.step_eq call.set_path (.set (setPath schema)) _
    ⟨.active default default (setUser printUuid uid (setRole default)), none⟩ with
    ⟨e, hstep⟩ | ⟨-, hstep⟩
  · exact ⟨_, hstep, restored_of_openedAt .aborted, by rintro s ⟨⟩⟩
  obtain ⟨r, hfinish, hrestored, hran⟩ := restored_finish (session_runStatement_active
    (c := ⟨.active default (setPath schema default)
      (setPath schema (setUser printUuid uid (setRole default))), none⟩) rfl h)
  refine ⟨r, hstep.trans hfinish, hrestored, ?_⟩
  intro s hs
  rw [hran] at hs
  obtain rfl : setPath schema (setUser printUuid uid (setRole default)) = s := by
    simpa [runStatement, Session.current] using hs
  refine ⟨rfl, ?_, ?_⟩
  · rintro uid' ⟨⟩
    rfl
  · rintro uid' ⟨⟩
    rfl

lemma closeTransaction_of_restored (call : PluginCall ρ) {r : CallState × Except PluginDbError ρ}
    (h : Restored default r) :
    ∃ result, closeTransaction call r = (⟨.idle default, r.1.ran_under⟩, result) := by
  obtain ⟨⟨session, ran⟩, result⟩ := r
  cases result with
  | error e =>
    refine ⟨.error e, ?_⟩
    rw [closeTransaction, show session.exec .rollback = _ from h]
  | ok x =>
    have hcommit := h call.commit
    simp only [closeTransaction]
    cases herror : commitTx call.commit session with
    | mk s error =>
      obtain rfl : s = .idle default := by
        rw [herror] at hcommit
        exact hcommit
      cases error with
      | none => exact ⟨_, rfl⟩
      | some msg => exact ⟨_, rfl⟩

/-! ### Calls on a pool -/

/-- On a connection with the default settings and no transaction, a contained call leaves such a
connection. -/
lemma runJson_clean (default : Settings) (schema : String) (printUuid : Uuid → String)
    (h : call.Contained toUppercase) :
    ∃ ran result, runJson default schema printUuid toUppercase call (.idle default) =
        (⟨.idle default, ran⟩, result) ∧
      ∀ s, ran = some s → Scoped schema printUuid call.user_id s := by
  simp only [runJson]
  cases hvalid : validateSql toUppercase call.sql with
  | error e => exact ⟨none, .error e, rfl, by rintro s ⟨⟩⟩
  | ok u =>
    have hcontained := h hvalid
    cases huser : call.user_id with
    | none =>
      rw [huser] at hcontained
      cases call.begin with
      | some msg => exact ⟨none, .error (.query msg), rfl, by rintro s ⟨⟩⟩
      | none =>
        have hrun := scopedRun_of_none default schema printUuid huser hcontained.1 hcontained.2
        rw [huser] at hrun
        exact hrun
    | some uid =>
      rw [huser] at hcontained
      cases call.begin with
      | some msg => exact ⟨none, .error (.query msg), rfl, by rintro s ⟨⟩⟩
      | none =>
        obtain ⟨r, hrun, hrestored, hran⟩ :=
          scopedRun_of_some default schema printUuid huser hcontained
        obtain ⟨result, hclose⟩ := closeTransaction_of_restored call hrestored
        rw [huser] at hran
        refine ⟨r.1.ran_under, result, ?_, hran⟩
        rw [← hclose, ← hrun]
        rfl

/-- The call is a contained one. -/
def PluginRequest.Contained (toUppercase : String → String) : PluginRequest → Prop
  | .query call   => call.Contained toUppercase
  | .execute call => call.Contained toUppercase

lemma PluginRequest.run_clean (default : Settings) (schema : String) (printUuid : Uuid → String)
    {request : PluginRequest} (h : request.Contained toUppercase) :
    ∃ ran, request.run default schema printUuid toUppercase (.idle default) =
        ⟨.idle default, ran⟩ ∧
      ∀ s, ran = some s → Scoped schema printUuid request.user_id s := by
  cases request with
  | query call | execute call =>
    obtain ⟨ran, result, hrun, hran⟩ := runJson_clean default schema printUuid h
    exact ⟨ran, congrArg Prod.fst hrun, hran⟩

/-- The connection came back with the role and the search path that it was taken with, and the
statement ran under the settings that it should. -/
structure CallRecord.Clean (schema : String) (printUuid : Uuid → String) (r : CallRecord) :
    Prop where
  role : r.returned.role = r.taken.role
  search_path : r.returned.search_path = r.taken.search_path
  ran : ∀ s, r.ran_under = some s → Scoped schema printUuid r.user_id s

/-- Every connection has the default settings and no transaction, and every call was clean. -/
structure PluginPool.Clean (default : Settings) (schema : String) (printUuid : Uuid → String)
    (pool : PluginPool) : Prop where
  connections : ∀ c, pool.connections c = .idle default
  calls : ∀ r ∈ pool.calls, r.Clean schema printUuid

lemma PluginPool.clean_call {pool : PluginPool} (hpool : pool.Clean default schema printUuid)
    (c : ℕ) {request : PluginRequest} (h : request.Contained toUppercase) :
    (pool.call default schema printUuid toUppercase c request).Clean default schema printUuid := by
  obtain ⟨ran, hrun, hran⟩ := request.run_clean default schema printUuid h
  refine ⟨?_, ?_⟩
  · intro c'
    by_cases hc : c' = c
    · subst hc
      simp only [PluginPool.call, hpool.connections, hrun, Function.update_self]
    · simp only [PluginPool.call, Function.update_of_ne hc, hpool.connections]
  · intro r hr
    simp only [PluginPool.call, hpool.connections, hrun] at hr
    rcases List.mem_append.mp hr with hr | hr
    · exact hpool.calls r hr
    · obtain rfl := List.mem_singleton.mp hr
      exact ⟨rfl, rfl, hran⟩

/-- Whatever becomes of the steps of the calls, their connections come back clean, provided that the
calls are contained. -/
theorem clean_run (default : Settings) (schema : String) (printUuid : Uuid → String)
    (toUppercase : String → String) (requests : List (ℕ × PluginRequest))
    (h : ∀ request ∈ requests, request.2.Contained toUppercase) :
    (PluginPool.run default schema printUuid toUppercase requests).Clean default schema
      printUuid := by
  have hfrom : ∀ pool : PluginPool, pool.Clean default schema printUuid →
      (requests.foldl (fun pool request =>
        pool.call default schema printUuid toUppercase request.1 request.2) pool).Clean default
          schema printUuid := by
    induction requests with
    | nil => exact fun pool hpool => hpool
    | cons request requests ih =>
      intro pool hpool
      exact ih (fun r hr => h r (List.mem_cons_of_mem _ hr)) _
        (PluginPool.clean_call hpool request.1 (h request List.mem_cons_self))
  exact hfrom _ ⟨fun _ => rfl, by simp [PluginPool.new]⟩

/-! ### Calls that leak -/

section Examples

def defaults : Settings := ⟨"af", "\"$user\", public", ""⟩

/-- A call in which nothing fails but, perhaps, the statement and the reset of the path. -/
def plainCall {ρ : Type} (sql : String) (user_id : Option Uuid) (statement : Except String ρ)
    (commands : List TxCommand) (reset_path : Option String) : PluginCall ρ where
  sql := sql
  user_id := user_id
  begin := none
  set_role := none
  set_user := none
  set_path := none
  statement := statement
  commands := commands
  reset_path := reset_path
  reset_role := none
  commit := none

/-- A query of user 7 that fails. -/
def failingQuery : PluginRequest :=
  .query (plainCall "SELECT ghost FROM iocs" (some 7) (.error "no such column") [] none)

theorem clean_run_plain :
    (PluginPool.run defaults "re" toString id
      [(0, .execute (plainCall "DELETE FROM iocs" none (.ok 3) [] none)),
        (0, failingQuery)]).Clean defaults "re" toString := by
  refine clean_run defaults "re" toString id _ ?_
  intro request hrequest
  simp only [List.mem_cons, List.not_mem_nil, or_false] at hrequest
  rcases hrequest with rfl | rfl
  · exact fun _ => ⟨rfl, .inl rfl⟩
  · exact fun _ => .inl (by simp [plainCall])

/-- The plugin begins a transaction without a user, and the next call fails: the rollback restores
the search path that was set before the transaction began. And a call without a user whose search
path is not reset returns its connection with the path of the plugin. -/
theorem not_clean_run_begin :
    ¬ (PluginPool.run defaults "re" toString id
        [(0, .execute (plainCall "BEGIN" none (.ok 0) [.begin] none)), (0, failingQuery)]).Clean
          defaults "re" toString ∧
      ¬ (PluginPool.run defaults "re" toString id
        [(0, .query (plainCall "SELECT value FROM iocs" none (.ok [])  []
          (some "canceling statement due to user request")))]).Clean defaults "re" toString := by
  constructor
  · intro h
    have hpath := (h.calls ⟨some 7, defaults, ⟨"af", "re,pg_temp", ""⟩,
      some ⟨"af_api", "re,pg_temp", "7"⟩⟩ (by decide +kernel)).search_path
    revert hpath
    decide
  · intro h
    have hpath := (h.calls ⟨none, defaults, ⟨"af", "re,pg_temp", ""⟩,
      some ⟨"af", "re,pg_temp", ""⟩⟩ (by decide +kernel)).search_path
    revert hpath
    decide

end Examples

end Arbeiterfarm.Db
