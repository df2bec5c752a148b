import Arbeiterfarm.Core.Json
import Arbeiterfarm.Core.Numbers
import Arbeiterfarm.Foundation.Exec
import Arbeiterfarm.Foundation.Session
import Arbeiterfarm.Foundation.Table
import Mathlib.Data.List.Sort
import Mathlib.Logic.Function.Basic

/-!
# Tick hooks

The table `project_hooks`, and any number of runners: each lists the tick hooks that are due and
claims one after the other with the generation that it has seen. Users create, change and delete
hooks at any time. A statement may fail or its answer may get lost, and a runner may stop.
-/

namespace Arbeiterfarm.Hooks

open Foundation

/-- The values the `event_type` column admits. -/
inductive HookEvent where
  | artifactUploaded
  | tick
  deriving DecidableEq, Repr

structure ProjectHookRow where
  id : Uuid
  project_id : Uuid
  name : String
  enabled : Bool := true
  event_type : HookEvent
  workflow_name : Option String
  agent_name : Option String
  prompt_template : String
  route_override : Option String
  tick_interval_minutes : Option ℤ
  last_tick_at : Option ℤ := none
  tick_generation : ℕ := 0
  created_at : ℤ
  updated_at : ℤ
  deriving DecidableEq, Repr

abbrev HookTable := Table ProjectHookRow.id

/-! ### The statements -/

/-- The columns that `create` sets. -/
structure CreateHook where
  project_id : Uuid
  name : String
  event_type : HookEvent
  workflow_name : Option String
  agent_name : Option String
  prompt_template : String
  route_override : Option String
  tick_interval_minutes : Option ℤ

/-- The check constraints of the table. -/
def CreateHook.admissible (req : CreateHook) : Bool :=
  req.workflow_name.isSome != req.agent_name.isSome &&
    req.tick_interval_minutes.all (0 < ·) &&
    (req.event_type ≠ .tick || req.tick_interval_minutes.isSome)

/-- `none` if a constraint is violated; a name is unique in its project. -/
def create (now : ℤ) (id : Uuid) (req : CreateHook) (t : HookTable) : Option HookTable :=
  if req.admissible && t.rows.all fun r => r.project_id ≠ req.project_id || r.name ≠ req.name then
    t.insert
      { id := id, project_id := req.project_id, name := req.name, event_type := req.event_type,
        workflow_name := req.workflow_name, agent_name := req.agent_name,
        prompt_template := req.prompt_template, route_override := req.route_override,
        tick_interval_minutes := req.tick_interval_minutes, created_at := now, updated_at := now }
  else none

/-- The columns that `update` sets, where they are given. -/
structure UpdateHook where
  enabled : Option Bool := none
  prompt_template : Option String := none
  route_override : Option (Option String) := none
  tick_interval_minutes : Option ℤ := none

def setHook (now : ℤ) (req : UpdateHook) (r : ProjectHookRow) : ProjectHookRow :=
  { r with
    updated_at := now
    enabled := req.enabled.getD r.enabled
    prompt_template := req.prompt_template.getD r.prompt_template
    route_override := req.route_override.getD r.route_override
    tick_interval_minutes := req.tick_interval_minutes <|> r.tick_interval_minutes }

/-- `none` if the interval violates its check. -/
def update (now : ℤ) (id : Uuid) (req : UpdateHook) (t : HookTable) : Option HookTable :=
  if req.tick_interval_minutes.all (0 < ·) then
    some (t.update (·.id = id) (setHook now req) fun _ => rfl)
  else none

def delete (id : Uuid) (t : HookTable) : HookTable := t.delete (·.id = id)

/-- `last_tick_at + interval <= now()`, which is not true if the interval is `NULL`. -/
def intervalOver (now last : ℤ) (interval : Option ℤ) : Bool :=
  interval.any fun m => last + minutes m ≤ now

def isDue (now : ℤ) (r : ProjectHookRow) : Bool :=
  r.event_type = .tick && r.enabled &&
    match r.last_tick_at with
    | none => true
    | some last => intervalOver now last r.tick_interval_minutes

/-- `ORDER BY last_tick_at NULLS FIRST`. -/
def TickLe (a b : ProjectHookRow) : Prop :=
  match a.last_tick_at, b.last_tick_at with
  | none, _ => True
  | some _, none => False
  | some x, some y => x ≤ y

instance : DecidableRel TickLe := fun a b => by
  unfold TickLe
  exact match a.last_tick_at, b.last_tick_at with
    | none, _ => isTrue trivial
    | some _, none => isFalse id
    | some x, some y => Int.decLe x y

def listDueTickHooks (now : ℤ) (t : HookTable) : List ProjectHookRow :=
  (t.rows.filter (isDue now)).insertionSort TickLe

/-- `WHERE id = $1 AND tick_generation = $2`. -/
def atGeneration (id : Uuid) (generation : ℕ) (r : ProjectHookRow) : Bool :=
  r.id = id ∧ r.tick_generation = generation

def markTicked (now : ℤ) (r : ProjectHookRow) : ProjectHookRow :=
  { r with last_tick_at := some now, tick_generation := r.tick_generation + 1, updated_at := now }

/-- The compare-and-set, and whether `rows_affected() > 0`. -/
def claimTick (now : ℤ) (id : Uuid) (expected_generation : ℕ) (t : HookTable) :
    Bool × HookTable :=
  (t.rows.countP (atGeneration id expected_generation) > 0,
    t.update (atGeneration id expected_generation) (markTicked now) fun _ => rfl)

/-! ### The system -/

abbrev RunnerId := ℕ

structure Ticker where
  now : ℤ
  hooks : HookTable
  /-- The hooks that a runner has listed and still has to claim. -/
  runners : RunnerId → List ProjectHookRow
  /-- Not in the program: the ids that have been generated. -/
  used : List Uuid

def Ticker.init : Ticker := ⟨0, Table.empty _, fun _ => [], []⟩

def Ticker.setRunner (s : Ticker) (k : RunnerId) (due : List ProjectHookRow) : Ticker :=
  { s with runners := Function.update s.runners k due }

inductive TickAction where
  | clock (d : ℕ)
  | create (id : Uuid) (req : CreateHook)
  | update (id : Uuid) (req : UpdateHook)
  | delete (id : Uuid)
  | list (k : RunnerId)
  | claim (k : RunnerId) (e : Execution)
  | stop (k : RunnerId)

/-- `fire_tick_hooks_inner` claims the next hook with the generation of its copy. -/
def claimNext (s : Ticker) (k : RunnerId) (e : Execution) : Option Ticker :=
  match s.runners k with
  | [] => none
  | r :: due =>
    let hooks := (claimTick s.now r.id r.tick_generation s.hooks).2
    some ({ s with hooks := e.apply s.hooks hooks }.setRunner k due)

/-- One statement of one party. An id is generated once. -/
def Ticker.step (s : Ticker) : TickAction → Option Ticker
  | .clock d => some { s with now := s.now + d }
  | .create id req =>
    if id ∈ s.used then none
    else (Hooks.create s.now id req s.hooks).map fun hooks =>
      { s with hooks := hooks, used := id :: s.used }
  | .update id req => (Hooks.update s.now id req s.hooks).map fun hooks => { s with hooks := hooks }
  | .delete id => some { s with hooks := Hooks.delete id s.hooks }
  | .list k =>
    match s.runners k with
    | [] => some (s.setRunner k (listDueTickHooks s.now s.hooks))
    | _ => none
  | .claim k e => claimNext s k e
  | .stop k => some (s.setRunner k [])

/-- The hook that an action claims. -/
def Ticker.fired (s : Ticker) : TickAction → Option Uuid
  | .claim k e =>
    match s.runners k with
    | [] => none
    | r :: _ =>
      if e.executed ∧ (claimTick s.now r.id r.tick_generation s.hooks).1 then some r.id else none
  | _ => none

/-! ### What a step can do -/

/-- The hook with a given primary key. -/
def get (id : Uuid) (t : HookTable) : Option ProjectHookRow := t.lookup id

lemma id_of_get {id : Uuid} {t : HookTable} {r : ProjectHookRow} (h : get id t = some r) :
    r.id = id := Table.key_of_lookup h

lemma claimTick_fst {now : ℤ} {id : Uuid} {generation : ℕ} {t : HookTable} :
    (claimTick now id generation t).1 ↔
      ∃ q, get id t = some q ∧ q.tick_generation = generation := by
  simp only [claimTick, gt_iff_lt, List.countP_pos_iff, decide_eq_true_eq, atGeneration]
  constructor
  · rintro ⟨q, hq, rfl, hgen⟩
    exact ⟨q, Table.lookup_of_mem hq, hgen⟩
  · rintro ⟨q, hq, hgen⟩
    exact ⟨q, (Table.lookup_eq_some_iff.mp hq).1, id_of_get hq, hgen⟩

lemma get_claimTick (now : ℤ) (id id' : Uuid) (generation : ℕ) (t : HookTable) :
    get id' (claimTick now id generation t).2 = (get id' t).map fun q =>
      if atGeneration id generation q then markTicked now q else q :=
  Table.lookup_update (atGeneration id generation) (markTicked now) (fun _ => rfl) t id'

lemma get_update {now : ℤ} {id : Uuid} {req : UpdateHook} {t hooks : HookTable}
    (h : update now id req t = some hooks) (id' : Uuid) :
    get id' hooks = (get id' t).map fun q => if q.id = id then setHook now req q else q := by
  simp only [update] at h
  split_ifs at h
  obtain rfl := Option.some.inj h
  have hlookup := Table.lookup_update (fun q : ProjectHookRow => q.id = id) (setHook now req)
    (fun _ => rfl) t id'
  simp only [decide_eq_true_eq] at hlookup
  exact hlookup

/-- Only the new hook is added. -/
lemma get_create {now : ℤ} {id : Uuid} {req : CreateHook} {t hooks : HookTable}
    (h : create now id req t = some hooks) :
    get id t = none ∧ ∀ id' ≠ id, get id' hooks = get id' t := by
  simp only [create] at h
  split_ifs at h
  refine ⟨Table.lookup_eq_none_of_insert h, fun id' hne => ?_⟩
  exact (Table.lookup_insert h id').trans (if_neg (Ne.symm hne))

lemma get_delete (id id' : Uuid) (t : HookTable) :
    get id' (delete id t) = (get id' t).filter fun q => !decide (q.id = id) :=
  Table.lookup_delete _ t id'

/-- A claim that succeeds finds the hook in the generation of the copy. -/
lemma fired_eq_some {s : Ticker} {a : TickAction} {h : Uuid} (hfired : s.fired a = some h) :
    ∃ k e r due q, a = .claim k e ∧ s.runners k = r :: due ∧ r.id = h ∧ e.executed = true ∧
      get h s.hooks = some q ∧ q.tick_generation = r.tick_generation := by
  cases a with
  | claim k e =>
    simp only [Ticker.fired] at hfired
    split at hfired
    · cases hfired
    · next r due hk =>
      split_ifs at hfired with hclaim
      obtain rfl := Option.some.inj hfired
      obtain ⟨q, hq, hgen⟩ := claimTick_fst.mp hclaim.2
      exact ⟨k, e, r, due, q, rfl, hk, rfl, hclaim.1, hq, hgen⟩
  | _ => cases hfired

/-- The step from `s` by an action, with what enables it. -/
inductive TickRule (s : Ticker) : TickAction → Ticker → Prop
  | clock (d : ℕ) : TickRule s (.clock d) { s with now := s.now + d }
  | create (id : Uuid) (req : CreateHook) {hooks : HookTable} (hnew : id ∉ s.used)
    (hcreate : create s.now id req s.hooks = some hooks) :
    TickRule s (.create id req) { s with hooks := hooks, used := id :: s.used }
  | update (id : Uuid) (req : UpdateHook) {hooks : HookTable}
    (hupdate : update s.now id req s.hooks = some hooks) :
    TickRule s (.update id req) { s with hooks := hooks }
  | delete (id : Uuid) : TickRule s (.delete id) { s with hooks := delete id s.hooks }
  | list (k : RunnerId) (hidle : s.runners k = []) :
    TickRule s (.list k) (s.setRunner k (listDueTickHooks s.now s.hooks))
  | claim (k : RunnerId) (e : Execution) {r : ProjectHookRow} {due : List ProjectHookRow}
    (hdue : s.runners k = r :: due) :
    TickRule s (.claim k e)
      ({ s with
          hooks := e.apply s.hooks
            (claimTick s.now r.id r.tick_generation s.hooks).2 }.setRunner k due)
  | stop (k : RunnerId) : TickRule s (.stop k) (s.setRunner k [])

lemma TickRule.of_step {s t : Ticker} {a : TickAction} (h : s.step a = some t) :
    TickRule s a t := by
  cases a with
  | clock d =>
    obtain rfl := Option.some.inj h
    exact .clock d
  | create id req =>
    simp only [Ticker.step] at h
    split_ifs at h with hused
    obtain ⟨hooks, hhooks, rfl⟩ := Option.map_eq_some_iff.mp h
    exact .create id req hused hhooks
  | update id req =>
    obtain ⟨hooks, hhooks, rfl⟩ := Option.map_eq_some_iff.mp h
    exact .update id req hhooks
  | delete id =>
    obtain rfl := Option.some.inj h
    exact .delete id
  | list k =>
    simp only [Ticker.step] at h
    split at h
    · next hidle =>
      obtain rfl := Option.some.inj h
      exact .list k hidle
    · cases h
  | claim k e =>
    simp only [Ticker.step, claimNext] at h
    split at h
    · cases h
    · next r due hdue =>
      obtain rfl := Option.some.inj h
      exact .claim k e hdue
  | stop k =>
    obtain rfl := Option.some.inj h
    exact .stop k

/-- What the step from `s` by `a` makes of the hook `q`; none of it but a claim touches the
generation and the time of the last tick. -/
inductive HookChange (s : Ticker) (a : TickAction) (q : ProjectHookRow) :
    Option ProjectHookRow → Prop
  | same : HookChange s a q (some q)
  | set (req : UpdateHook) (ha : a = .update q.id req) :
    HookChange s a q (some (setHook s.now req q))
  | deleted : HookChange s a q none
  | ticked (hfired : s.fired a = some q.id) : HookChange s a q (some (markTicked s.now q))

lemma hook_step {s t : Ticker} {a : TickAction} (hstep : s.step a = some t) {h : Uuid}
    {q : ProjectHookRow} (hq : get h s.hooks = some q) : HookChange s a q (get h t.hooks) := by
  have hid : q.id = h := id_of_get hq
  cases TickRule.of_step hstep with
  | clock d =>
    rw [hq]
    exact .same
  | @create id req hooks hnew hcreate =>
    obtain ⟨hnone, hother⟩ := get_create hcreate
    have hne : h ≠ id := by
      rintro rfl
      cases hnone.symm.trans hq
    show HookChange s _ q (get h hooks)
    rw [hother h hne, hq]
    exact .same
  | @update id req hooks hupdate =>
    show HookChange s _ q (get h hooks)
    rw [get_update hupdate, hq, Option.map_some]
    split_ifs with hqid
    · exact .set req (by rw [hqid])
    · exact .same
  | delete id =>
    show HookChange s _ q (get h (delete id s.hooks))
    rw [get_delete, hq]
    by_cases hqid : q.id = id
    · rw [Option.filter_some_neg (by simpa using hqid)]
      exact .deleted
    · rw [Option.filter_some_pos (by simpa using hqid)]
      exact .same
  | list k =>
    show HookChange s _ q (get h s.hooks)
    rw [hq]
    exact .same
  | @claim k e r due hdue =>
    show HookChange s _ q (get h (e.apply s.hooks _))
    rcases e.apply_eq s.hooks (claimTick s.now r.id r.tick_generation s.hooks).2 with
      ⟨he, happly⟩ | ⟨-, happly⟩
    · rw [happly, get_claimTick, hq, Option.map_some]
      split_ifs with hgen
      · obtain ⟨hrid, hrgen⟩ := of_decide_eq_true hgen
        refine .ticked ?_
        simp only [Ticker.fired, hdue]
        rw [if_pos ⟨he, claimTick_fst.mpr ⟨q, by rw [← hrid, hid]; exact hq, hrgen⟩⟩, hrid]
      · exact .same
    · rw [happly, hq]
      exact .same
  | stop k =>
    show HookChange s _ q (get h s.hooks)
    rw [hq]
    exact .same

/-- A hook that appears is new: its id has not been used. -/
lemma used_of_new {s t : Ticker} {a : TickAction} (hstep : s.step a = some t) {h : Uuid}
    (hnone : get h s.hooks = none) {q : ProjectHookRow} (hq : get h t.hooks = some q) :
    h ∉ s.used ∧ h ∈ t.used := by
  have habsurd {hooks : HookTable} (hhooks : get h hooks = none) (hq : get h hooks = some q) :
      False := by simp [hhooks] at hq
  cases TickRule.of_step hstep with
  | create id req hnew hcreate =>
    by_cases hid : h = id
    · subst hid
      exact ⟨hnew, List.mem_cons_self⟩
    · exact (habsurd (((get_create hcreate).2 h hid).trans hnone) hq).elim
  | update id req hupdate =>
    refine (habsurd ?_ hq).elim
    rw [get_update hupdate, hnone, Option.map_none]
  | delete id =>
    refine (habsurd ?_ hq).elim
    rw [get_delete, hnone, Option.filter_none]
  | claim k e hdue =>
    refine (habsurd (e.apply_preserves (P := fun hooks => get h hooks = none) hnone ?_) hq).elim
    rw [get_claimTick, hnone, Option.map_none]
  | clock | list | stop => exact (habsurd hnone hq).elim

/-- A copy that a runner has after a step was there before, or has just been listed. -/
lemma copy_step {s t : Ticker} {a : TickAction} (hstep : s.step a = some t) {k : RunnerId}
    {r : ProjectHookRow} (hr : r ∈ t.runners k) : r ∈ s.runners k ∨ a = .list k ∧
      t.now = s.now ∧ t.hooks = s.hooks ∧ r ∈ s.hooks.rows ∧ isDue s.now r = true := by
  have hother {k' : RunnerId} {due : List ProjectHookRow} (hne : k ≠ k')
      (hr : r ∈ Function.update s.runners k' due k) : r ∈ s.runners k := by
    rwa [Function.update_of_ne hne] at hr
  cases TickRule.of_step hstep with
  | clock | create | update | delete => exact .inl hr
  | list k' =>
    by_cases hk : k = k'
    · subst hk
      simp only [Ticker.setRunner, Function.update_self, listDueTickHooks,
        List.mem_insertionSort, List.mem_filter] at hr
      exact .inr ⟨rfl, rfl, rfl, hr⟩
    · exact .inl (hother hk hr)
  | claim k' e hdue =>
    by_cases hk : k = k'
    · subst hk
      simp only [Ticker.setRunner, Function.update_self] at hr
      rw [hdue]
      exact .inl (List.mem_cons_of_mem _ hr)
    · exact .inl (hother hk hr)
  | stop k' =>
    by_cases hk : k = k'
    · subst hk
      simp [Ticker.setRunner] at hr
    · exact .inl (hother hk hr)

/-- The clock does not run backwards, and no id is forgotten. -/
lemma clock_step {s t : Ticker} {a : TickAction} (hstep : s.step a = some t) :
    s.now ≤ t.now ∧ ∀ h ∈ s.used, h ∈ t.used := by
  cases TickRule.of_step hstep with
  | clock d => exact ⟨Int.le_add_of_nonneg_right (Int.natCast_nonneg d), fun _ hh => hh⟩
  | create => exact ⟨le_refl _, fun _ hh => List.mem_cons_of_mem _ hh⟩
  | update | delete | list | claim | stop => exact ⟨le_refl _, fun _ hh => hh⟩

end Arbeiterfarm.Hooks
