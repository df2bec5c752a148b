import Arbeiterfarm.Foundation.Exec
import Arbeiterfarm.Tools.VtGateway
import Mathlib.Data.List.Induction
import Mathlib.Data.List.Pairwise
import Mathlib.Data.List.Perm.Basic
import Mathlib.Data.List.Perm.Subperm

/-!
# What the VirusTotal gateway answers

In every interleaving of connections, a report is what VirusTotal has answered for the same hash,
from the cache only if it has been stored a short time ago; every call to VirusTotal has a token of
its own, and every answer to a user one of the user's.
-/

namespace Arbeiterfarm.Tools.Vt

open Foundation Jobs

/-! ### Limiters -/

section

variable {rpm : UInt32} {l l' : Limiter} {a : Act}

/-- What is granted stays granted. -/
structure Limiter.Grows (l l' : Limiter) : Prop where
  granted : ∀ r : ℕ, l.requests[r]? = some Phase.granted → l'.requests[r]? = some Phase.granted
  length : l.requests.length ≤ l'.requests.length

/-- Every grant is that of a call of `acquire`. -/
def Limiter.Counted (l : Limiter) : Prop := l.granted.length = l.requests.count Phase.granted

lemma Limiter.Grows.refl (l : Limiter) : l.Grows l := ⟨fun _ h => h, Nat.le_refl _⟩

lemma Limiter.Grows.trans {l'' : Limiter} (h : l.Grows l') (h' : l'.Grows l'') : l.Grows l'' :=
  ⟨fun r hr => h'.granted r (h.granted r hr), Nat.le_trans h.length h'.length⟩

/-- A step adds a call of `acquire` or decides about one that waits. -/
lemma Limiter.requests_step (h : l.step rpm a = some l') :
    (l'.requests = l.requests ∧ l'.granted = l.granted) ∨
    (∃ timeout deadline wake, l'.requests = l.requests ++ [.acquiring timeout deadline wake] ∧
      l'.granted = l.granted) ∨
    ∃ r timeout deadline wake phase, l.requests[r]? = some (.acquiring timeout deadline wake) ∧
      l'.requests = l.requests.set r phase ∧
      l'.granted.length = l.granted.length + if phase = .granted then 1 else 0 := by
  cases a with
  | clock passed =>
    cases h
    exact .inl ⟨rfl, rfl⟩
  | acquire timeout =>
    cases h
    exact .inr (.inl ⟨_, _, _, rfl, rfl⟩)
  | poll r passed passed' =>
    rw [Limiter.step] at h
    split at h
    · next timeout deadline wake hr =>
      split at h <;> cases h
      right
      right
      rw [Limiter.poll]
      split
      · exact ⟨r, timeout, deadline, wake, .panicked, hr, rfl, rfl⟩
      · split
        · exact ⟨r, timeout, deadline, wake, .granted, hr, rfl, List.length_append⟩
        · refine ⟨r, timeout, deadline, wake, _, hr, rfl, ?_⟩
          rw [if_neg]
          · rfl
          · split_ifs <;> simp
    · cases h

lemma Limiter.grows_step (h : l.step rpm a = some l') : l.Grows l' := by
  rcases requests_step h with ⟨hsame, -⟩ | ⟨timeout, deadline, wake, hnew, -⟩ |
    ⟨r, timeout, deadline, wake, phase, hr, hset, -⟩
  · exact ⟨fun r hr => hsame ▸ hr, hsame ▸ Nat.le_refl _⟩
  · refine ⟨?_, ?_⟩
    · intro r hr
      rw [hnew, List.getElem?_append_left (List.getElem?_eq_some_iff.mp hr).1]
      exact hr
    · rw [hnew, List.length_append]
      exact Nat.le_add_right _ _
  · refine ⟨?_, ?_⟩
    · intro r' hr'
      have hne : r ≠ r' := by
        rintro rfl
        rw [hr] at hr'
        cases hr'
      rw [hset, List.getElem?_set_ne hne]
      exact hr'
    · rw [hset, List.length_set]

lemma Limiter.Counted.step (hl : l.Counted) (h : l.step rpm a = some l') : l'.Counted := by
  rcases requests_step h with ⟨hsame, hgranted⟩ | ⟨timeout, deadline, wake, hnew, hgranted⟩ |
    ⟨r, timeout, deadline, wake, phase, hr, hset, hgranted⟩
  · rw [Counted, hsame, hgranted]
    exact hl
  · rw [Counted, hnew, hgranted, List.count_append, hl]
    rfl
  · obtain ⟨hlt, hr⟩ := List.getElem?_eq_some_iff.mp hr
    have hcount := List.count_set hlt (a := phase) (b := Phase.granted)
    have hold : ¬ (Phase.acquiring timeout deadline wake == Phase.granted) = true := by simp
    rw [Counted, hset, hgranted, hcount, hr, if_neg hold, hl, Nat.sub_zero]
    simp only [beq_iff_eq]

lemma Limiter.length_acquire {timeout : ℕ} (h : l.step rpm (.acquire timeout) = some l') :
    l'.requests.length = l.requests.length + 1 := by
  cases h
  exact List.length_append

end

/-! ### Tokens -/

lemma length_filter_range {α : Type*} [DecidableEq α] (l : List α) (x : α) :
    ((List.range l.length).filter fun r => l[r]? = some x).length = l.count x := by
  induction l using List.reverseRecOn with
  | nil => rfl
  | append_singleton l a ih =>
    have hsame : (List.range l.length).filter (fun r => (l ++ [a])[r]? = some x) =
        (List.range l.length).filter fun r => l[r]? = some x := by
      refine List.filter_congr fun r hr => ?_
      rw [List.getElem?_append_left (List.mem_range.mp hr)]
    rw [List.length_append, List.length_singleton, List.range_succ, List.filter_append,
      List.length_append, hsame, ih, List.count_append, List.count_singleton]
    by_cases ha : a = x
    · simp [ha]
    · simp [ha]

/-- Different positions of an element are not more than it has. -/
lemma length_le_count {α : Type*} [DecidableEq α] {l : List α} {x : α} {rs : List ℕ}
    (hnodup : rs.Nodup) (h : ∀ r ∈ rs, l[r]? = some x) : rs.length ≤ l.count x := by
  rw [← length_filter_range]
  refine (List.subperm_of_subset hnodup fun r hr => ?_).length_le
  rw [List.mem_filter, List.mem_range, decide_eq_true_eq]
  exact ⟨(List.getElem?_eq_some_iff.mp (h r hr)).1, h r hr⟩

/-- The number of the task at the limiter of all requests, or at that of a user. -/
def Task.tokenAt (task : Task) : Option String → Option ℕ
  | none => task.token
  | some uid => if task.request.user_id = some uid then task.user_token else none

namespace VtGateway

/-- The tokens that tasks have at a limiter. -/
def held (s : VtGateway) (user_id : Option String) : List ℕ :=
  s.tasks.filterMap (·.tokenAt user_id)

/-! ### What is kept -/

variable (cfg : VtConfig) (s : VtGateway)

/-- VirusTotal has answered for the hash, and this is the summary. -/
def Reported (sha256 : String) (summary : Json) : Prop :=
  ∃ body, (sha256, .body body) ∈ s.replies ∧
    extractVtSummary cfg.libs sha256 body = some summary

/-- The limiter of the task's user has let it through. -/
def Paid (task : Task) : Prop :=
  ∀ uid, task.request.user_id = some uid → ∃ r, task.user_token = some r ∧
    (s.limiters (some uid)).requests[r]? = some Phase.granted

structure Answered (task : Task) (resp : GatewayResponse) (now : ℤ) : Prop where
  paid : resp.ok = true → s.Paid task
  report : ∀ v, resp.data = some v → resp.ok = true ∧
    (resp.cached = some true ∧ (∃ stored, (task.sha256, v, stored) ∈ s.stores ∧
        now - cfg.cache_ttl < stored ∧ stored ≤ now) ∨
      resp.cached = some false ∧ Reported cfg s task.sha256 v)
  missing : resp.ok = true → resp.data = none → (task.sha256, .notFound) ∈ s.replies

def TaskInv (task : Task) : Prop :=
  match task.phase with
  | .received => task.user_token = none ∧ task.token = none
  | .admitted uid =>
    task.user_token = none ∧ task.token = none ∧ task.request.user_id = some uid
  | .waitingUser uid => task.token = none ∧ task.request.user_id = some uid
  | .lookup | .unlimited => task.token = none ∧ s.Paid task
  | .waiting => s.Paid task
  | .calling => s.Paid task ∧ ∃ r, (r, task.sha256) ∈ s.sent
  | .storing summary => s.Paid task ∧ Reported cfg s task.sha256 summary
  | .answered resp now => Answered cfg s task resp now
  | .panicked => True

/-- What is kept of limiters, calls and the cache. -/
structure Ledger : Prop where
  counted : ∀ user_id, (s.limiters user_id).Counted
  untracked : ∀ uid, uid ∉ s.per_user_limiters → (s.limiters (some uid)).requests = []
  sent_nodup : (s.sent.map Prod.fst).Nodup
  sent_granted : ∀ x ∈ s.sent, (s.limiters none).requests[x.1]? = some Phase.granted
  replied : ∀ x ∈ s.replies, ∃ r, (r, x.1) ∈ s.sent
  stored : ∀ x ∈ s.stores, x.2.2 ≤ s.now ∧ Reported cfg s x.1 x.2.1
  cached : ∀ row ∈ s.cache.rows, (row.sha256, row.response, row.fetched_at) ∈ s.stores

structure Invariant : Prop where
  ledger : Ledger cfg s
  tasks : ∀ task ∈ s.tasks, TaskInv cfg s task
  held_nodup : ∀ user_id, (s.held user_id).Nodup
  held_lt : ∀ user_id, ∀ r ∈ s.held user_id, r < (s.limiters user_id).requests.length
  sent_by : ∀ x ∈ s.sent, ∃ task ∈ s.tasks, task.token = some x.1 ∧ task.phase ≠ .waiting

/-- The history only grows, and what is granted stays granted. -/
structure Grows (s s' : VtGateway) : Prop where
  sent : s.sent ⊆ s'.sent
  replies : s.replies ⊆ s'.replies
  stores : s.stores ⊆ s'.stores
  limiters : ∀ user_id, (s.limiters user_id).Grows (s'.limiters user_id)

variable {cfg s} {s' : VtGateway} {task task' : Task} {t : ℕ}

lemma Grows.refl (s : VtGateway) : Grows s s :=
  ⟨List.Subset.refl _, List.Subset.refl _, List.Subset.refl _, fun _ => .refl _⟩

lemma Reported.mono (hgrows : Grows s s') {sha256 : String} {v : Json}
    (h : Reported cfg s sha256 v) : Reported cfg s' sha256 v := by
  obtain ⟨body, hreply, hsummary⟩ := h
  exact ⟨body, hgrows.replies hreply, hsummary⟩

lemma Paid.mono (hgrows : Grows s s') (h : s.Paid task) : s'.Paid task := by
  intro uid huid
  obtain ⟨r, htoken, hgranted⟩ := h uid huid
  exact ⟨r, htoken, (hgrows.limiters (some uid)).granted r hgranted⟩

lemma Answered.mono (hgrows : Grows s s') {resp : GatewayResponse} {now : ℤ}
    (h : Answered cfg s task resp now) : Answered cfg s' task resp now where
  paid hok := (h.paid hok).mono hgrows
  report v hv := by
    obtain ⟨hok, ⟨hcached, stored, hstored, hfresh⟩ | ⟨hcached, hreported⟩⟩ := h.report v hv
    · exact ⟨hok, .inl ⟨hcached, stored, hgrows.stores hstored, hfresh⟩⟩
    · exact ⟨hok, .inr ⟨hcached, hreported.mono hgrows⟩⟩
  missing hok hdata := hgrows.replies (h.missing hok hdata)

lemma TaskInv.mono (hgrows : Grows s s') (h : TaskInv cfg s task) : TaskInv cfg s' task := by
  unfold TaskInv at h ⊢
  cases hphase : task.phase with
  | received | admitted _ | waitingUser _ | panicked =>
    rw [hphase] at h
    exact h
  | lookup | unlimited =>
    rw [hphase] at h
    exact ⟨h.1, h.2.mono hgrows⟩
  | waiting =>
    rw [hphase] at h
    exact h.mono hgrows
  | calling =>
    rw [hphase] at h
    exact ⟨h.1.mono hgrows, h.2.imp fun _ hsent => hgrows.sent hsent⟩
  | storing summary =>
    rw [hphase] at h
    exact ⟨h.1.mono hgrows, h.2.mono hgrows⟩
  | answered resp now =>
    rw [hphase] at h
    exact h.mono hgrows

/-! ### Steps of a task -/

/-- The tokens at a limiter before and after a task is set. -/
lemma held_set (ht : s.tasks[t]? = some task) (htasks : s'.tasks = s.tasks.set t task')
    (user_id : Option String) : ∃ rest,
      (s.held user_id).Perm ((task.tokenAt user_id).toList ++ rest) ∧
      (s'.held user_id).Perm ((task'.tokenAt user_id).toList ++ rest) := by
  obtain ⟨hlt, hget⟩ := List.getElem?_eq_some_iff.mp ht
  have hcons (task : Task) (rest : List Task) :
      (task :: rest).filterMap (·.tokenAt user_id) =
        (task.tokenAt user_id).toList ++ rest.filterMap (·.tokenAt user_id) := by
    rw [List.filterMap_cons]
    cases task.tokenAt user_id <;> rfl
  refine ⟨(s.tasks.eraseIdx t).filterMap (·.tokenAt user_id), ?_, ?_⟩
  · rw [← hcons, ← hget]
    exact (List.getElem_cons_eraseIdx_perm hlt).symm.filterMap _
  · rw [← hcons, held, htasks]
    exact (List.set_perm_cons_eraseIdx hlt task').filterMap _

/-- Tasks with the same token are the same. -/
lemma Invariant.eq_of_token (h : Invariant cfg s) (htask : task ∈ s.tasks)
    (htask' : task' ∈ s.tasks) {r : ℕ} (hr : task.token = some r) (hr' : task'.token = some r) :
    task = task' := by
  by_contra hne
  have hpairwise := List.pairwise_filterMap.mp (h.held_nodup none)
  have hsymm : Std.Symm fun a a' : Task => ∀ b, a.tokenAt none = some b →
      ∀ b', a'.tokenAt none = some b' → b ≠ b' :=
    ⟨fun a a' h b hb b' hb' => (h b' hb' b hb).symm⟩
  exact hpairwise.forall htask htask' hne r hr r hr' rfl

/-- A step of a task keeps the invariant: it keeps the ledger and that of the task, takes a new
token or none, and what it sends has its token. -/
lemma Invariant.setTask (h : Invariant cfg s) (ht : s.tasks[t]? = some task)
    (htasks : s'.tasks = s.tasks.set t task') (hgrows : Grows s s') (hledger : Ledger cfg s')
    (htask : TaskInv cfg s' task')
    (htoken : ∀ user_id, task'.tokenAt user_id = task.tokenAt user_id ∨
      task.tokenAt user_id = none ∧ ∃ r, task'.tokenAt user_id = some r ∧
        (s.limiters user_id).requests.length ≤ r ∧ r < (s'.limiters user_id).requests.length)
    (hwaiting : task'.phase = .waiting → task.token = none)
    (hsent : ∀ x ∈ s'.sent, x ∈ s.sent ∨ task'.token = some x.1 ∧ task'.phase ≠ .waiting) :
    Invariant cfg s' := by
  obtain ⟨hlt, hget⟩ := List.getElem?_eq_some_iff.mp ht
  have hmem (task'' : Task) (h' : task'' ∈ s'.tasks) : task'' ∈ s.tasks ∨ task'' = task' := by
    rw [htasks] at h'
    exact List.mem_or_eq_of_mem_set h'
  refine ⟨hledger, ?_, ?_, ?_, ?_⟩
  · intro task'' h'
    rcases hmem task'' h' with h' | rfl
    · exact (h.tasks task'' h').mono hgrows
    · exact htask
  · intro user_id
    obtain ⟨rest, hold, hnew⟩ := held_set ht htasks user_id
    have hnodup := hold.nodup_iff.mp (h.held_nodup user_id)
    rw [hnew.nodup_iff]
    rcases htoken user_id with hsame | ⟨hnone, r, hr, hge, -⟩
    · rw [hsame]
      exact hnodup
    · rw [hnone] at hold hnodup
      rw [hr]
      refine List.nodup_cons.mpr ⟨fun hr => ?_, hnodup⟩
      exact Nat.not_lt_of_le hge (h.held_lt user_id r (hold.mem_iff.mpr hr))
  · intro user_id r hr
    obtain ⟨rest, hold, hnew⟩ := held_set ht htasks user_id
    have hr := hnew.mem_iff.mp hr
    have hle := (hgrows.limiters user_id).length
    rcases htoken user_id with hsame | ⟨hnone, r', hr', -, hlt'⟩
    · rw [hsame] at hr
      exact Nat.lt_of_lt_of_le (h.held_lt user_id r (hold.mem_iff.mpr hr)) hle
    · rw [hnone] at hold
      rw [hr'] at hr
      rcases List.mem_cons.mp hr with rfl | hr
      · exact hlt'
      · exact Nat.lt_of_lt_of_le (h.held_lt user_id r (hold.mem_iff.mpr hr)) hle
  · intro x hx
    have htask' : task' ∈ s'.tasks := by
      rw [htasks]
      exact List.mem_set hlt task'
    rcases hsent x hx with hx | hnew
    · obtain ⟨sender, hsender, hx, hphase⟩ := h.sent_by x hx
      by_cases hself : sender = task
      · subst hself
        refine ⟨task', htask', ?_, fun hwait => ?_⟩
        · rcases htoken none with hsame | ⟨hnone, -⟩
          · exact hsame.trans hx
          · rw [show sender.token = none from hnone] at hx
            cases hx
        · rw [hwaiting hwait] at hx
          cases hx
      · refine ⟨sender, ?_, hx, hphase⟩
        rw [htasks]
        obtain ⟨i, hi, hsender⟩ := List.mem_iff_getElem.mp hsender
        have hne : t ≠ i := by
          rintro rfl
          exact hself (hsender.symm.trans hget)
        have hset : (s.tasks.set t task')[i]? = some sender := by
          rw [List.getElem?_set_ne hne, List.getElem?_eq_getElem hi, hsender]
        exact List.mem_of_getElem? hset
    · exact ⟨task', htask', hnew⟩

lemma Ledger.setPhase (h : Ledger cfg s) (phase : TaskPhase) :
    Ledger cfg (s.setPhase t task phase) :=
  ⟨h.counted, h.untracked, h.sent_nodup, h.sent_granted, h.replied, h.stored, h.cached⟩

lemma Grows.setPhase (h : Grows s s') (phase : TaskPhase) :
    Grows s (s'.setPhase t task phase) :=
  ⟨h.sent, h.replies, h.stores, h.limiters⟩

lemma answered_errorResponse (code msg : String) (now : ℤ) :
    Answered cfg s task (errorResponse code msg) now :=
  ⟨by rintro ⟨⟩, by rintro _ ⟨⟩, by rintro ⟨⟩⟩

/-- A step that changes the history, and leaves the tokens of the task alone. -/
lemma Invariant.setPhase (h : Invariant cfg s) (ht : s.tasks[t]? = some task)
    (hgrows : Grows s s') (htasks : s'.tasks = s.tasks) (hledger : Ledger cfg s')
    {phase : TaskPhase} (htask : TaskInv cfg s' { task with phase }) (hphase : phase ≠ .waiting)
    (hsent : ∀ x ∈ s'.sent, x ∈ s.sent ∨ task.token = some x.1) :
    Invariant cfg (s'.setPhase t task phase) := by
  have hset : (s'.setPhase t task phase).tasks = s.tasks.set t { task with phase } := by
    rw [VtGateway.setPhase, htasks]
  refine h.setTask ht hset (hgrows.setPhase phase) (hledger.setPhase phase)
    (htask.mono ((Grows.refl s').setPhase phase)) ?_ ?_ ?_
  · intro user_id
    left
    cases user_id <;> rfl
  · exact fun hwaiting => absurd hwaiting hphase
  · exact fun x hx => (hsent x hx).imp_right fun htoken => ⟨htoken, hphase⟩

/-- A step that leaves the history alone. -/
lemma Invariant.setPhase_same (h : Invariant cfg s) (ht : s.tasks[t]? = some task)
    {phase : TaskPhase} (htask : TaskInv cfg s { task with phase }) (hphase : phase ≠ .waiting) :
    Invariant cfg (s.setPhase t task phase) :=
  h.setPhase ht (.refl s) rfl h.ledger htask hphase fun _ hx => .inl hx

lemma Invariant.answer_error (h : Invariant cfg s) (ht : s.tasks[t]? = some task)
    (code msg : String) : Invariant cfg (s.answer t task (errorResponse code msg)) :=
  h.setPhase_same ht (answered_errorResponse code msg s.now) (by simp)

lemma Invariant.check (h : Invariant cfg s) (ht : s.tasks[t]? = some task)
    (hphase : task.phase = .received) : Invariant cfg (s.check cfg t task) := by
  have htask := h.tasks task (List.mem_of_getElem? ht)
  rw [TaskInv, hphase] at htask
  rw [VtGateway.check]
  split_ifs
  · exact h.answer_error ht _ _
  · cases huser : task.request.user_id with
    | none =>
      refine h.setPhase_same ht ⟨htask.2, fun uid huid => ?_⟩ (by simp)
      rw [huser] at huid
      cases huid
    | some uid =>
      simp only
      split_ifs
      · exact h.answer_error ht _ _
      · exact h.setPhase_same ht ⟨htask.1, htask.2, huser⟩ (by simp)
      · exact h.answer_error ht _ _
  · exact h.answer_error ht _ _

/-- A limiter makes a step. -/
lemma Ledger.setLimiter (h : Ledger cfg s) {user_id : Option String} {l : Limiter}
    (hgrows : (s.limiters user_id).Grows l) (hcounted : l.Counted)
    (huntracked : ∀ uid, user_id = some uid → uid ∉ s.per_user_limiters → l.requests = []) :
    Ledger cfg (s.setLimiter user_id l) := by
  refine ⟨?_, ?_, h.sent_nodup, ?_, h.replied, h.stored, h.cached⟩
  · intro user_id'
    simp only [VtGateway.setLimiter, Function.update_apply]
    split
    · exact hcounted
    · exact h.counted user_id'
  · intro uid huid
    simp only [VtGateway.setLimiter, Function.update_apply]
    split
    · next heq => exact huntracked uid heq.symm huid
    · exact h.untracked uid huid
  · intro x hx
    simp only [VtGateway.setLimiter, Function.update_apply]
    split
    · next heq =>
      subst heq
      exact hgrows.granted x.1 (h.sent_granted x hx)
    · exact h.sent_granted x hx

lemma grows_setLimiter {user_id : Option String} {l : Limiter}
    (hgrows : (s.limiters user_id).Grows l) : Grows s (s.setLimiter user_id l) := by
  refine ⟨List.Subset.refl _, List.Subset.refl _, List.Subset.refl _, ?_⟩
  intro user_id'
  simp only [VtGateway.setLimiter, Function.update_apply]
  split
  · next heq =>
    subst heq
    exact hgrows
  · exact .refl _

lemma Invariant.track (h : Invariant cfg s) (ht : s.tasks[t]? = some task) {uid : String}
    (hphase : task.phase = .admitted uid) {now : ℕ} (hstep : s.track cfg t task uid now = some s') :
    Invariant cfg s' := by
  have htask := h.tasks task (List.mem_of_getElem? ht)
  rw [TaskInv, hphase] at htask
  obtain ⟨hno_user_token, hno_token, huser⟩ := htask
  simp only [VtGateway.track, Option.map_eq_some_iff] at hstep
  obtain ⟨limiter', hlimiter, rfl⟩ := hstep
  set limiter := if uid ∈ s.per_user_limiters then s.limiters (some uid)
    else .init (cfg.rpm (some uid)) now with hdef
  have hsame : (s.limiters (some uid)).requests = limiter.requests := by
    rw [hdef]
    split
    · rfl
    · next hnot => exact h.ledger.untracked uid hnot
  have hcounted : limiter.Counted := by
    rw [hdef]
    split
    · exact h.ledger.counted (some uid)
    · rfl
  have hgrows : (s.limiters (some uid)).Grows limiter' := by
    have hgrows := Limiter.grows_step hlimiter
    refine ⟨fun r hr => hgrows.granted r (hsame ▸ hr), ?_⟩
    rw [hsame]
    exact hgrows.length
  set s₁ : VtGateway := { s with
    per_user_limiters := if uid ∈ s.per_user_limiters then s.per_user_limiters
      else s.per_user_limiters ++ [uid] } with hs₁
  have huid : uid ∈ s₁.per_user_limiters := by
    rw [hs₁]
    by_cases hin : uid ∈ s.per_user_limiters <;> simp [hin]
  have hkeeps : ∀ uid' ∈ s.per_user_limiters, uid' ∈ s₁.per_user_limiters := by
    intro uid' huid'
    rw [hs₁]
    by_cases hin : uid ∈ s.per_user_limiters <;> simp [hin, huid']
  have hledger₁ : Ledger cfg s₁ :=
    ⟨h.ledger.counted, fun uid' hnot => h.ledger.untracked uid' fun hin => hnot (hkeeps uid' hin),
      h.ledger.sent_nodup, h.ledger.sent_granted, h.ledger.replied, h.ledger.stored,
      h.ledger.cached⟩
  have hledger : Ledger cfg (s₁.setLimiter (some uid) limiter') := by
    refine hledger₁.setLimiter hgrows (hcounted.step hlimiter) ?_
    intro uid' heq hnot
    cases heq
    exact absurd huid hnot
  have hgrows₁ : Grows s (s₁.setLimiter (some uid) limiter') :=
    ⟨List.Subset.refl _, List.Subset.refl _, List.Subset.refl _,
      (grows_setLimiter (s := s₁) hgrows).limiters⟩
  refine h.setTask ht rfl (hgrows₁.setPhase _) (hledger.setPhase _) ⟨hno_token, huser⟩ ?_
    (by simp) fun x hx => .inl hx
  intro user_id
  cases user_id with
  | none => exact .inl rfl
  | some uid' =>
    by_cases heq : uid' = uid
    · subst heq
      right
      refine ⟨?_, limiter.requests.length, ?_, ?_, ?_⟩
      · simp [Task.tokenAt, hno_user_token]
      · simp [Task.tokenAt, huser]
      · exact Nat.le_of_eq (congrArg List.length hsame)
      · show _ < (Function.update s.limiters (some uid') limiter' (some uid')).requests.length
        rw [Function.update_self, Limiter.length_acquire hlimiter]
        exact Nat.lt_succ_self _
    · left
      simp [Task.tokenAt, huser, Ne.symm heq]

/-- The end of a call of `acquire`: the token is granted, or the request is refused. -/
lemma acquired_cases {granted : VtGateway} {phase : Option Phase}
    (h : s.acquired t task granted phase = some s') :
    (phase = some .granted ∧ s' = granted) ∨
    s' = s.answer t task (errorResponse "rate_limited" "rate limit exceeded") ∨
    s' = s.setPhase t task .panicked := by
  unfold acquired at h
  split at h <;> cases h
  · exact .inl ⟨rfl, rfl⟩
  · exact .inr (.inl rfl)
  · exact .inr (.inr rfl)

lemma Invariant.refuse (h : Invariant cfg s) (ht : s.tasks[t]? = some task)
    (hs' : s' = s.answer t task (errorResponse "rate_limited" "rate limit exceeded") ∨
      s' = s.setPhase t task .panicked) : Invariant cfg s' := by
  rcases hs' with rfl | rfl
  · exact h.answer_error ht _ _
  · exact h.setPhase_same ht trivial (by simp)

lemma Invariant.admittedUser (h : Invariant cfg s) (ht : s.tasks[t]? = some task)
    (hstep : s.stepTask cfg t task (.admittedUser t) = some s') : Invariant cfg s' := by
  have htask := h.tasks task (List.mem_of_getElem? ht)
  simp only [stepTask] at hstep
  split at hstep
  · next uid r hphase htoken =>
    rw [TaskInv, hphase] at htask
    rcases acquired_cases hstep with ⟨hgranted, rfl⟩ | hrefused
    · refine h.setPhase_same ht ⟨htask.1, ?_⟩ (by simp)
      intro uid' huid'
      obtain rfl := Option.some.inj (htask.2.symm.trans huid')
      exact ⟨r, htoken, hgranted⟩
    · exact h.refuse ht hrefused
  · cases hstep

lemma Invariant.lookupCache (h : Invariant cfg s) (ht : s.tasks[t]? = some task)
    (hphase : task.phase = .lookup) (failed : Bool) :
    Invariant cfg (s.lookupCache cfg t task failed) := by
  have htask := h.tasks task (List.mem_of_getElem? ht)
  rw [TaskInv, hphase] at htask
  rw [VtGateway.lookupCache]
  split
  · next cached_response hget =>
    split at hget
    · cases hget
    · simp only [VtCache.get, Option.map_eq_some_iff, Option.filter_eq_some_iff,
        decide_eq_true_eq] at hget
      obtain ⟨row, ⟨hrow, hfresh⟩, rfl⟩ := hget
      obtain ⟨hmem, hsha256⟩ := Table.lookup_eq_some_iff.mp hrow
      have hstored := h.ledger.cached row hmem
      rw [hsha256] at hstored
      refine h.setPhase_same ht ⟨fun _ => htask.2, ?_, ?_⟩ (by simp)
      · rintro v ⟨⟩
        exact ⟨rfl, .inl ⟨rfl, row.fetched_at, hstored, hfresh, (h.ledger.stored _ hstored).1⟩⟩
      · rintro _ ⟨⟩
  · exact h.setPhase_same ht htask (by simp)

lemma Invariant.acquire (h : Invariant cfg s) (ht : s.tasks[t]? = some task)
    (hstep : s.stepTask cfg t task (.acquire t) = some s') : Invariant cfg s' := by
  have htask := h.tasks task (List.mem_of_getElem? ht)
  simp only [stepTask] at hstep
  split at hstep
  · next hphase =>
    rw [TaskInv, hphase] at htask
    obtain ⟨limiter, hlimiter, rfl⟩ := Option.map_eq_some_iff.mp hstep
    have hgrows := Limiter.grows_step hlimiter
    have hledger : Ledger cfg (s.setLimiter none limiter) :=
      h.ledger.setLimiter hgrows ((h.ledger.counted none).step hlimiter) (by rintro _ ⟨⟩)
    have hgrows' := grows_setLimiter hgrows
    have hpaid : Paid (s.setLimiter none limiter) task := htask.2.mono hgrows'
    refine h.setTask ht rfl (hgrows'.setPhase _) (hledger.setPhase _) hpaid ?_ (fun _ => htask.1)
      fun x hx => .inl hx
    intro user_id
    cases user_id with
    | none =>
      refine .inr ⟨htask.1, _, rfl, Nat.le_refl _, ?_⟩
      show _ < (Function.update s.limiters none limiter none).requests.length
      rw [Function.update_self, Limiter.length_acquire hlimiter]
      exact Nat.lt_succ_self _
    | some uid => exact .inl rfl
  · cases hstep

lemma Invariant.call (h : Invariant cfg s) (ht : s.tasks[t]? = some task)
    (hstep : s.stepTask cfg t task (.call t) = some s') : Invariant cfg s' := by
  have hmem := List.mem_of_getElem? ht
  have htask := h.tasks task hmem
  simp only [stepTask] at hstep
  split at hstep
  · next r hphase htoken =>
    rw [TaskInv, hphase] at htask
    rcases acquired_cases hstep with ⟨hgranted, rfl⟩ | hrefused
    · have hgrows : Grows s { s with sent := s.sent ++ [(r, task.sha256)] } :=
        ⟨List.subset_append_left _ _, List.Subset.refl _, List.Subset.refl _, fun _ => .refl _⟩
      have hunsent : r ∉ s.sent.map Prod.fst := by
        intro hr
        obtain ⟨x, hx, rfl⟩ := List.mem_map.mp hr
        obtain ⟨sender, hsender, hx, hwaiting⟩ := h.sent_by x hx
        obtain rfl := h.eq_of_token hsender hmem hx htoken
        exact hwaiting hphase
      refine h.setPhase ht hgrows rfl ⟨h.ledger.counted, h.ledger.untracked, ?_, ?_, ?_, ?_,
        h.ledger.cached⟩ ⟨htask.mono hgrows, r, List.mem_append_right _ (List.mem_singleton_self _)⟩
        (by simp) ?_
      · rw [List.map_append, List.map_singleton, List.nodup_append]
        refine ⟨h.ledger.sent_nodup, List.nodup_singleton _, ?_⟩
        rintro r' hr' _ hr rfl
        rw [List.mem_singleton] at hr
        subst hr
        exact hunsent hr'
      · intro x hx
        rcases List.mem_append.mp hx with hx | hx
        · exact h.ledger.sent_granted x hx
        · obtain rfl := List.mem_singleton.mp hx
          exact hgranted
      · intro x hx
        obtain ⟨r, hr⟩ := h.ledger.replied x hx
        exact ⟨r, List.mem_append_left _ hr⟩
      · exact fun x hx => ⟨(h.ledger.stored x hx).1, (h.ledger.stored x hx).2.mono hgrows⟩
      · intro x hx
        rcases List.mem_append.mp hx with hx | hx
        · exact .inl hx
        · obtain rfl := List.mem_singleton.mp hx
          exact .inr htoken
    · exact h.refuse ht hrefused
  · cases hstep

lemma Invariant.receive (h : Invariant cfg s) (ht : s.tasks[t]? = some task)
    (hphase : task.phase = .calling) (result : ApiResult) :
    Invariant cfg (s.receive cfg t task result) := by
  have htask := h.tasks task (List.mem_of_getElem? ht)
  rw [TaskInv, hphase] at htask
  obtain ⟨hpaid, hsent⟩ := htask
  have hgrows : Grows s { s with replies := s.replies ++ [(task.sha256, result)] } :=
    ⟨List.Subset.refl _, List.subset_append_left _ _, List.Subset.refl _, fun _ => .refl _⟩
  have hnew : (task.sha256, result) ∈ s.replies ++ [(task.sha256, result)] :=
    List.mem_append_right _ (List.mem_singleton_self _)
  have hledger : Ledger cfg { s with replies := s.replies ++ [(task.sha256, result)] } := by
    refine ⟨h.ledger.counted, h.ledger.untracked, h.ledger.sent_nodup, h.ledger.sent_granted, ?_,
      ?_, h.ledger.cached⟩
    · intro x hx
      rcases List.mem_append.mp hx with hx | hx
      · exact h.ledger.replied x hx
      · obtain rfl := List.mem_singleton.mp hx
        exact hsent
    · exact fun x hx => ⟨(h.ledger.stored x hx).1, (h.ledger.stored x hx).2.mono hgrows⟩
  have hset {phase : TaskPhase}
      (hphase : TaskInv cfg { s with replies := s.replies ++ [(task.sha256, result)] }
        { task with phase }) (hne : phase ≠ .waiting) :=
    h.setPhase ht hgrows rfl hledger hphase hne fun _ hx => .inl hx
  cases result with
  | failed | status _ | unparsed =>
    exact hset (answered_errorResponse _ _ _) (by simp)
  | notFound =>
    refine hset ⟨fun _ => hpaid.mono hgrows, ?_, fun _ _ => hnew⟩ (by simp)
    rintro _ ⟨⟩
  | body body =>
    unfold VtGateway.receive
    dsimp only
    split
    · next summary hsummary =>
      exact hset ⟨hpaid.mono hgrows, body, hnew, hsummary⟩ (by simp)
    · exact hset trivial (by simp)

/-- What is stored for a hash is in the cache afterwards, and nothing else is. -/
lemma mem_put {now : ℤ} {sha256 : String} {response : Json} {positives total : Option ℤ}
    {cache cache' : VtCache} (h : cache.put now sha256 response positives total = some cache')
    {row : VtRow} (hrow : row ∈ cache'.rows) :
    row ∈ cache.rows ∨ (row.sha256 = sha256 ∧ row.response = response ∧ row.fetched_at = now) := by
  rw [VtCache.put] at h
  split at h <;> cases h
  have hlookup := Table.lookup_of_mem hrow
  rw [Table.lookup_upsert] at hlookup
  split at hlookup
  · next hsha256 =>
    right
    cases hold : cache.lookup row.sha256 with
    | none =>
      rw [hold] at hlookup
      obtain rfl := Option.some.inj hlookup
      exact ⟨rfl, rfl, rfl⟩
    | some old =>
      rw [hold] at hlookup
      obtain rfl := Option.some.inj hlookup
      exact ⟨hsha256.symm, rfl, rfl⟩
  · exact .inl (Table.lookup_eq_some_iff.mp hlookup).1

lemma Invariant.store (h : Invariant cfg s) (ht : s.tasks[t]? = some task) {summary : Json}
    (hphase : task.phase = .storing summary) (stored : Bool) :
    Invariant cfg (s.store t task summary stored) := by
  have htask := h.tasks task (List.mem_of_getElem? ht)
  rw [TaskInv, hphase] at htask
  obtain ⟨hpaid, hreported⟩ := htask
  have hanswered (s' : VtGateway) (hgrows : Grows s s') (phase : TaskPhase) :
      Answered cfg s' { task with phase } ⟨true, some summary, some false, none, none⟩ s'.now := by
    refine ⟨fun _ => hpaid.mono hgrows, ?_, by rintro _ ⟨⟩⟩
    rintro v ⟨⟩
    exact ⟨rfl, .inr ⟨rfl, hreported.mono hgrows⟩⟩
  rw [VtGateway.store]
  split
  · next cache hput =>
    have hgrows : Grows s { s with cache, stores := s.stores ++ [(task.sha256, summary, s.now)] } :=
      ⟨List.Subset.refl _, List.Subset.refl _, List.subset_append_left _ _, fun _ => .refl _⟩
    refine h.setPhase ht hgrows rfl ⟨h.ledger.counted, h.ledger.untracked, h.ledger.sent_nodup,
      h.ledger.sent_granted, h.ledger.replied, ?_, ?_⟩ (hanswered _ hgrows _)
      (by simp) fun _ hx => .inl hx
    · intro x hx
      rcases List.mem_append.mp hx with hx | hx
      · exact ⟨(h.ledger.stored x hx).1, (h.ledger.stored x hx).2.mono hgrows⟩
      · obtain rfl := List.mem_singleton.mp hx
        exact ⟨Int.le_refl _, hreported.mono hgrows⟩
    · intro row hrow
      split at hput
      · rcases mem_put hput hrow with hrow | ⟨hsha256, hresponse, hfetched⟩
        · exact List.mem_append_left _ (h.ledger.cached row hrow)
        · rw [hsha256, hresponse, hfetched]
          exact List.mem_append_right _ (List.mem_singleton_self _)
      · cases hput
  · exact h.setPhase_same ht (hanswered s (.refl s) _) (by simp)

/-! ### Runs -/

/-- A step of the environment that no task notices. -/
lemma Invariant.of_tasks (h : Invariant cfg s) (hgrows : Grows s s') (hledger : Ledger cfg s')
    (htasks : s'.tasks = s.tasks) (hsent : s'.sent = s.sent) : Invariant cfg s' := by
  have hheld (user_id : Option String) : s'.held user_id = s.held user_id := by
    rw [held, htasks, held]
  refine ⟨hledger, ?_, ?_, ?_, ?_⟩
  · intro task htask
    rw [htasks] at htask
    exact (h.tasks task htask).mono hgrows
  · intro user_id
    rw [hheld]
    exact h.held_nodup user_id
  · intro user_id r hr
    rw [hheld] at hr
    exact Nat.lt_of_lt_of_le (h.held_lt user_id r hr) (hgrows.limiters user_id).length
  · rw [hsent, htasks]
    exact h.sent_by

lemma Invariant.arrive (h : Invariant cfg s) (req : GatewayRequest) :
    Invariant cfg { s with tasks := s.tasks ++ [⟨req, none, none, .received⟩] } := by
  have hnone (user_id : Option String) :
      (Task.mk req none none .received).tokenAt user_id = none := by
    cases user_id with
    | none => rfl
    | some uid =>
      simp only [Task.tokenAt]
      split <;> rfl
  have hheld (user_id : Option String) :
      held { s with tasks := s.tasks ++ [⟨req, none, none, .received⟩] } user_id =
        s.held user_id := by
    simp [held, hnone]
  have hgrows : Grows s { s with tasks := s.tasks ++ [⟨req, none, none, .received⟩] } :=
    ⟨List.Subset.refl _, List.Subset.refl _, List.Subset.refl _, fun _ => .refl _⟩
  refine ⟨⟨h.ledger.counted, h.ledger.untracked, h.ledger.sent_nodup, h.ledger.sent_granted,
    h.ledger.replied, h.ledger.stored, h.ledger.cached⟩, ?_, ?_, ?_, ?_⟩
  · intro task htask
    rcases List.mem_append.mp htask with htask | htask
    · exact (h.tasks task htask).mono hgrows
    · obtain rfl := List.mem_singleton.mp htask
      exact ⟨rfl, rfl⟩
  · intro user_id
    rw [hheld]
    exact h.held_nodup user_id
  · intro user_id
    rw [hheld]
    exact h.held_lt user_id
  · intro x hx
    obtain ⟨task, htask, hrest⟩ := h.sent_by x hx
    exact ⟨task, List.mem_append_left _ htask, hrest⟩

lemma Invariant.limiter (h : Invariant cfg s) {user_id : Option String} {act : Act}
    (hact : ∀ timeout, act ≠ .acquire timeout) {l : Limiter}
    (hl : (s.limiters user_id).step (cfg.rpm user_id) act = some l) :
    Invariant cfg (s.setLimiter user_id l) := by
  have hgrows := Limiter.grows_step hl
  refine h.of_tasks (grows_setLimiter hgrows) (h.ledger.setLimiter hgrows
    ((h.ledger.counted user_id).step hl) ?_) rfl rfl
  rintro uid rfl huid
  have hempty := h.ledger.untracked uid huid
  cases act with
  | clock passed =>
    cases hl
    exact hempty
  | acquire timeout => exact absurd rfl (hact timeout)
  | poll r passed passed' => simp [Limiter.step, hempty] at hl

lemma Invariant.step (h : Invariant cfg s) {e : GatewayEvent} (hstep : s.step cfg e = some s') :
    Invariant cfg s' := by
  cases e with
  | clock passed =>
    cases hstep
    have hgrows : Grows s { s with now := s.now + passed } :=
      ⟨List.Subset.refl _, List.Subset.refl _, List.Subset.refl _, fun _ => .refl _⟩
    refine h.of_tasks hgrows ⟨h.ledger.counted, h.ledger.untracked, h.ledger.sent_nodup,
      h.ledger.sent_granted, h.ledger.replied, ?_, h.ledger.cached⟩ rfl rfl
    intro x hx
    obtain ⟨hle, hreported⟩ := h.ledger.stored x hx
    exact ⟨Int.le_trans hle (Int.le_add_of_nonneg_right (Int.natCast_nonneg passed)),
      hreported.mono hgrows⟩
  | arrive req =>
    cases hstep
    exact h.arrive req
  | limiter user_id act =>
    cases act with
    | acquire timeout => cases hstep
    | clock _ | poll _ _ _ =>
      simp only [VtGateway.step, GatewayEvent.task, Option.map_eq_some_iff] at hstep
      obtain ⟨l, hl, rfl⟩ := hstep
      refine h.limiter ?_ hl
      rintro _ ⟨⟩
  | evict =>
    cases hstep
    refine h.of_tasks ⟨List.Subset.refl _, List.Subset.refl _, List.Subset.refl _,
      fun _ => .refl _⟩ ⟨h.ledger.counted, h.ledger.untracked, h.ledger.sent_nodup,
      h.ledger.sent_granted, h.ledger.replied, h.ledger.stored, ?_⟩ rfl rfl
    exact fun row hrow => h.ledger.cached row (List.mem_of_mem_filter hrow)
  | check t =>
    obtain ⟨task, ht, hstep⟩ := Option.bind_eq_some_iff.mp hstep
    simp only [stepTask] at hstep
    split at hstep <;> cases hstep
    next hphase => exact h.check ht hphase
  | track t now =>
    obtain ⟨task, ht, hstep⟩ := Option.bind_eq_some_iff.mp hstep
    simp only [stepTask] at hstep
    split at hstep
    · next uid hphase => exact h.track ht hphase hstep
    · cases hstep
  | admittedUser t =>
    obtain ⟨task, ht, hstep⟩ := Option.bind_eq_some_iff.mp hstep
    exact h.admittedUser ht hstep
  | lookup t failed =>
    obtain ⟨task, ht, hstep⟩ := Option.bind_eq_some_iff.mp hstep
    simp only [stepTask] at hstep
    split at hstep <;> cases hstep
    next hphase => exact h.lookupCache ht hphase failed
  | acquire t =>
    obtain ⟨task, ht, hstep⟩ := Option.bind_eq_some_iff.mp hstep
    exact h.acquire ht hstep
  | call t =>
    obtain ⟨task, ht, hstep⟩ := Option.bind_eq_some_iff.mp hstep
    exact h.call ht hstep
  | reply t result =>
    obtain ⟨task, ht, hstep⟩ := Option.bind_eq_some_iff.mp hstep
    simp only [stepTask] at hstep
    split at hstep <;> cases hstep
    next hphase => exact h.receive ht hphase result
  | store t stored =>
    obtain ⟨task, ht, hstep⟩ := Option.bind_eq_some_iff.mp hstep
    simp only [stepTask] at hstep
    split at hstep <;> cases hstep
    next summary hphase => exact h.store ht hphase stored

lemma invariant_new (now : ℤ) (limiter_now : ℕ) : Invariant cfg (.new cfg now limiter_now) := by
  refine ⟨⟨fun _ => rfl, fun _ _ => rfl, List.nodup_nil, ?_, ?_, ?_, ?_⟩, ?_,
    fun _ => List.nodup_nil, ?_, ?_⟩
  all_goals
    intros
    simp_all [VtGateway.new, Table.empty, held]

end VtGateway

/-! ### What is promised -/

section

variable {resp : GatewayResponse}

@[simp] lemma at_ok_toJson : (at' resp.toJson "ok").asBool.getD false = resp.ok := by
  rcases resp with ⟨ok, _ | data, _ | cached, _ | error, _ | message⟩ <;> rfl

@[simp] lemma get_data_toJson : resp.toJson.get "data" = resp.data := by
  rcases resp with ⟨ok, _ | data, _ | cached, _ | error, _ | message⟩ <;> rfl

@[simp] lemma at_cached_toJson :
    (at' resp.toJson "cached").asBool.getD false = resp.cached.getD false := by
  rcases resp with ⟨ok, _ | data, _ | cached, _ | error, _ | message⟩ <;> rfl

lemma ne_null_of_summary {libs : VtLibs} {sha256 : String} {body v : Json}
    (h : extractVtSummary libs sha256 body = some v) : v ≠ .null := by
  simp only [extractVtSummary, Option.bind_eq_bind, Option.bind_eq_some_iff] at h
  obtain ⟨positives, -, total, -, h⟩ := h
  cases h
  rintro ⟨⟩

end

/-- The task has been answered for the user. -/
def Task.servedTo (task : Task) (uid : String) : Bool :=
  task.request.user_id = some uid &&
    match task.phase with
    | .answered resp _ => resp.ok
    | _ => false

structure Served (cfg : VtConfig) (s : VtGateway) : Prop where
  /-- What the tool reports about a hash is what VirusTotal has answered about it; from the cache
  only if it has been stored a short time ago. -/
  reports : ∀ task ∈ s.tasks, ∀ resp now, task.phase = .answered resp now →
    ∀ out, fileReport task.sha256 resp.toJson = .ok out →
      (out.get "found" = some (.bool false) ∧ (task.sha256, .notFound) ∈ s.replies) ∨
      ∃ v cached, out = .obj [("found", .bool true), ("cached", .bool cached), ("report", v)] ∧
        s.Reported cfg task.sha256 v ∧ (cached = true → ∃ stored,
          (task.sha256, v, stored) ∈ s.stores ∧ now - cfg.cache_ttl < stored ∧ stored ≤ now)
  replies : ∀ x ∈ s.replies, ∃ r, (r, x.1) ∈ s.sent
  /-- Every call to VirusTotal has a token of its own. -/
  calls : s.sent.length ≤ (s.limiters none).granted.length
  /-- Every answer to a user has a token of the user. -/
  answers : ∀ uid, s.tasks.countP (·.servedTo uid) ≤ (s.limiters (some uid)).granted.length

namespace VtGateway

variable {cfg : VtConfig} {s : VtGateway}

lemma Invariant.reports (h : Invariant cfg s) {task : Task} (htask : task ∈ s.tasks)
    {resp : GatewayResponse} {now : ℤ} (hphase : task.phase = .answered resp now) {out : Json}
    (hout : fileReport task.sha256 resp.toJson = .ok out) :
    (out.get "found" = some (.bool false) ∧ (task.sha256, .notFound) ∈ s.replies) ∨
    ∃ v cached, out = .obj [("found", .bool true), ("cached", .bool cached), ("report", v)] ∧
      s.Reported cfg task.sha256 v ∧ (cached = true → ∃ stored,
        (task.sha256, v, stored) ∈ s.stores ∧ now - cfg.cache_ttl < stored ∧ stored ≤ now) := by
  have hanswered := h.tasks task htask
  rw [TaskInv, hphase] at hanswered
  simp only [fileReport, at_ok_toJson, get_data_toJson, at_cached_toJson] at hout
  split at hout
  · next hok =>
    cases hdata : resp.data with
    | none =>
      left
      rw [hdata, Option.getD_none, if_pos rfl] at hout
      cases hout
      exact ⟨rfl, hanswered.missing hok hdata⟩
    | some v =>
      right
      obtain ⟨-, hsource⟩ := hanswered.report v hdata
      have hreported : Reported cfg s task.sha256 v := by
        rcases hsource with ⟨-, stored, hstored, -⟩ | ⟨-, hreported⟩
        · exact (h.ledger.stored _ hstored).2
        · exact hreported
      have hne : v ≠ .null := by
        obtain ⟨body, -, hsummary⟩ := hreported
        exact ne_null_of_summary hsummary
      rw [hdata, Option.getD_some, if_neg hne] at hout
      cases hout
      refine ⟨v, resp.cached.getD false, rfl, hreported, fun hcached => ?_⟩
      rcases hsource with ⟨-, hstored⟩ | ⟨hnot, -⟩
      · exact hstored
      · rw [hnot] at hcached
        cases hcached
  · cases hout

lemma Invariant.answers (h : Invariant cfg s) (uid : String) :
    s.tasks.countP (·.servedTo uid) ≤ (s.limiters (some uid)).granted.length := by
  rw [h.ledger.counted (some uid), List.countP_eq_length_filter]
  have hpaid : ∀ task ∈ s.tasks.filter (·.servedTo uid), ∃ r,
      task.tokenAt (some uid) = some r ∧
        (s.limiters (some uid)).requests[r]? = some Phase.granted := by
    intro task htask
    obtain ⟨htask, hserved⟩ := List.mem_filter.mp htask
    simp only [Task.servedTo, Bool.and_eq_true, decide_eq_true_eq] at hserved
    obtain ⟨huser, hok⟩ := hserved
    split at hok
    · next resp now hphase =>
      have hanswered := h.tasks task htask
      rw [TaskInv, hphase] at hanswered
      obtain ⟨r, htoken, hgranted⟩ := hanswered.paid hok uid huser
      refine ⟨r, ?_, hgranted⟩
      simp only [Task.tokenAt, if_pos huser, htoken]
    · cases hok
  have hlength : (s.tasks.filter (·.servedTo uid)).length =
      ((s.tasks.filter (·.servedTo uid)).filterMap (·.tokenAt (some uid))).length := by
    rw [List.length_filterMap_eq_countP, eq_comm, List.countP_eq_length]
    intro task htask
    obtain ⟨r, hr, -⟩ := hpaid task htask
    rw [hr]
    rfl
  rw [hlength]
  refine length_le_count ((h.held_nodup (some uid)).sublist
    (List.filter_sublist.filterMap _)) ?_
  intro r hr
  obtain ⟨task, htask, hr⟩ := List.mem_filterMap.mp hr
  obtain ⟨r', hr', hgranted⟩ := hpaid task htask
  obtain rfl := Option.some.inj (hr.symm.trans hr')
  exact hgranted

lemma Invariant.calls (h : Invariant cfg s) :
    s.sent.length ≤ (s.limiters none).granted.length := by
  rw [h.ledger.counted none, ← List.length_map (f := Prod.fst)]
  refine length_le_count h.ledger.sent_nodup ?_
  intro r hr
  obtain ⟨x, hx, rfl⟩ := List.mem_map.mp hr
  exact h.ledger.sent_granted x hx

end VtGateway

/-- Whatever connections there are and however they interleave, with whatever VirusTotal, the
database and the clocks do. -/
theorem gateway_served (cfg : VtConfig) (now : ℤ) (limiter_now : ℕ) (es : List GatewayEvent) :
    Always (VtGateway.step cfg) (Served cfg) (.new cfg now limiter_now) es := by
  have hinv : ∀ s e s', VtGateway.Invariant cfg s → True → VtGateway.step cfg s e = some s' →
      VtGateway.Invariant cfg s' := fun s e s' hs _ hstep => hs.step hstep
  refine (always_of_along hinv (VtGateway.invariant_new now limiter_now)
    (.of_forall (fun _ _ => trivial) _ es)).mono ?_
  intro s hs
  exact ⟨fun task htask resp now hphase out hout => hs.reports htask hphase hout,
    hs.ledger.replied, hs.calls, hs.answers⟩

end Arbeiterfarm.Tools.Vt
