import Arbeiterfarm.Foundation.Exec
import Arbeiterfarm.Tools.SandboxGateway

/-!
# Samples do not see each other

All samples are run in the same virtual machine, one after the other, and a task that gives up
leaves its sample running. A trace is nevertheless that of the own sample in a machine in which
nothing else has run since the snapshot.
-/

namespace Arbeiterfarm.Tools.Sandbox

open Foundation

variable {G : Type} {libs : SandboxLibs} {guest : Guest G}

/-! ### A clean machine -/

/-- The machine has not done anything since the snapshot but by itself. -/
def Guest.Clean (guest : Guest G) (g : G) : Prop :=
  ∃ choices : List ℕ, g = choices.foldl guest.idle guest.snapshot

lemma Guest.clean_snapshot : guest.Clean guest.snapshot := ⟨[], rfl⟩

lemma Guest.Clean.idle {g : G} (h : guest.Clean g) (choice : ℕ) :
    guest.Clean (guest.idle g choice) := by
  obtain ⟨choices, rfl⟩ := h
  exact ⟨choices ++ [choice], by rw [List.foldl_append]; rfl⟩

variable (libs guest) in
/-- The agent's answer to the request in a clean machine. -/
def Genuine (req : AgentRequest) (reply : Json) : Prop :=
  ∃ g choice, guest.Clean g ∧ reply = (handleClient libs guest g req choice).1

/-! ### What is kept -/

def TaskPhase.agentRequest : TaskPhase → Option AgentRequest
  | .waiting req | .locked req | .restored req | .sent req => some req
  | .received | .dumping | .dumped | .answered _ => none

/-- The phases between the lock and the answer. -/
def TaskPhase.holds : TaskPhase → Bool
  | .locked _ | .restored _ | .sent _ => true
  | .received | .waiting _ | .dumping | .dumped | .answered _ => false

variable (libs) in
/-- The task has prepared the request. -/
def Requested (s : SandboxGateway G) (t : ℕ) (req : AgentRequest) : Prop :=
  ∃ task, s.tasks[t]? = some task ∧ processRequest libs task.request = .ok (some req)

/-- Nothing is running in the machine, and nothing is about to. -/
def Vm.Quiet (vm : Vm G) : Prop := vm.agent = .listening ∧ vm.queue = []

variable (libs guest) in
structure TaskInv (s : SandboxGateway G) (t : ℕ) (task : Task) : Prop where
  holder : task.phase.holds = true → s.vm_lock = some t
  requested : ∀ req, task.phase.agentRequest = some req →
    processRequest libs task.request = .ok (some req)
  restored : ∀ req, task.phase = .restored req → guest.Clean s.vm.state ∧ s.vm.Quiet
  dumps : task.phase = .dumping ∨ task.phase = .dumped → processRequest libs task.request = .ok none
  answered : ∀ resp, task.phase = .answered resp → resp.ok = true →
    processRequest libs task.request = .ok none ∨
    ∃ req reply, processRequest libs task.request = .ok (some req) ∧ Genuine libs guest req reply ∧
      resp = respond task.request.action (parseAgentResponse reply)

variable (libs guest) in
structure Invariant (s : SandboxGateway G) : Prop where
  tasks : ∀ t task, s.tasks[t]? = some task → TaskInv libs guest s t task
  /-- What is running or about to, is the request of one task, in a clean machine. -/
  pending : s.vm.Quiet ∨ guest.Clean s.vm.state ∧ ∃ t req, Requested libs s t req ∧
    (s.vm.agent = .listening ∧ s.vm.queue = [(t, req)] ∨
      s.vm.agent = .running t req ∧ s.vm.queue = [])
  replies : ∀ x ∈ s.vm.replies, ∃ req, Requested libs s x.1 req ∧ Genuine libs guest req x.2

/-! ### Steps -/

variable {s s' : SandboxGateway G} {t : ℕ} {task : Task}

lemma Requested.mono (htasks : ∀ (t : ℕ) (task : Task), s.tasks[t]? = some task →
      ∃ task', s'.tasks[t]? = some task' ∧ task'.request = task.request)
    {req : AgentRequest} (h : Requested libs s t req) : Requested libs s' t req := by
  obtain ⟨task, ht, hreq⟩ := h
  obtain ⟨task', ht', hsame⟩ := htasks t task ht
  exact ⟨task', ht', by rw [hsame]; exact hreq⟩

lemma requests_set (ht : s.tasks[t]? = some task) {phase : TaskPhase}
    (htasks : s'.tasks = s.tasks.set t { task with phase }) (t' : ℕ) (task' : Task)
    (ht' : s.tasks[t']? = some task') :
    ∃ task'', s'.tasks[t']? = some task'' ∧ task''.request = task'.request := by
  rw [htasks]
  by_cases heq : t = t'
  · subst heq
    obtain rfl := Option.some.inj (ht.symm.trans ht')
    obtain ⟨hlt, -⟩ := List.getElem?_eq_some_iff.mp ht
    exact ⟨_, List.getElem?_set_self hlt, rfl⟩
  · exact ⟨task', by rw [List.getElem?_set_ne heq]; exact ht', rfl⟩

/-- A step of a task: the others keep what they have, because only the holder of the lock changes
the machine or gives the lock away. -/
lemma Invariant.setPhase (h : Invariant libs guest s) (ht : s.tasks[t]? = some task)
    {phase : TaskPhase} (htasks : s'.tasks = s.tasks.set t { task with phase })
    (htask : TaskInv libs guest s' t { task with phase })
    (hlock : s'.vm_lock = s.vm_lock ∧ s'.vm = s.vm ∨ s.vm_lock = none ∨ task.phase.holds = true)
    (hpending : s'.vm.Quiet ∨ guest.Clean s'.vm.state ∧ ∃ t req, Requested libs s' t req ∧
      (s'.vm.agent = .listening ∧ s'.vm.queue = [(t, req)] ∨
        s'.vm.agent = .running t req ∧ s'.vm.queue = []))
    (hreplies : s'.vm.replies = s.vm.replies) : Invariant libs guest s' := by
  refine ⟨?_, hpending, ?_⟩
  · intro t' task' ht'
    by_cases heq : t = t'
    · subst heq
      rw [htasks, List.getElem?_set_self (List.getElem?_eq_some_iff.mp ht).1] at ht'
      obtain rfl := Option.some.inj ht'
      exact htask
    · rw [htasks, List.getElem?_set_ne heq] at ht'
      have hinv := h.tasks t' task' ht'
      have hnot (hholds : task'.phase.holds = true) :
          s'.vm_lock = s.vm_lock ∧ s'.vm = s.vm := by
        rcases hlock with hsame | hfree | hholder
        · exact hsame
        · rw [hinv.holder hholds] at hfree
          cases hfree
        · have hother := (h.tasks t task ht).holder hholder
          rw [hinv.holder hholds] at hother
          exact absurd (Option.some.inj hother).symm heq
      refine ⟨fun hholds => (hnot hholds).1.trans (hinv.holder hholds), hinv.requested, ?_,
        hinv.dumps, hinv.answered⟩
      intro req hphase
      have hholds : task'.phase.holds = true := by rw [hphase]; rfl
      rw [(hnot hholds).2]
      exact hinv.restored req hphase
  · intro x hx
    rw [hreplies] at hx
    obtain ⟨req, hreq, hgenuine⟩ := h.replies x hx
    exact ⟨req, hreq.mono (requests_set ht htasks), hgenuine⟩

/-- What is pending stays so when a task only changes its phase. -/
lemma Invariant.pending_same (h : Invariant libs guest s) (ht : s.tasks[t]? = some task)
    {phase : TaskPhase} (htasks : s'.tasks = s.tasks.set t { task with phase })
    (hvm : s'.vm = s.vm) :
    s'.vm.Quiet ∨ guest.Clean s'.vm.state ∧ ∃ t req, Requested libs s' t req ∧
      (s'.vm.agent = .listening ∧ s'.vm.queue = [(t, req)] ∨
        s'.vm.agent = .running t req ∧ s'.vm.queue = []) := by
  rw [hvm]
  refine h.pending.imp_right ?_
  rintro ⟨hclean, t', req, hreq, hpending⟩
  exact ⟨hclean, t', req, hreq.mono (requests_set ht htasks), hpending⟩

/-- A step that changes neither the machine nor the lock. -/
lemma Invariant.setPhase_same (h : Invariant libs guest s) (ht : s.tasks[t]? = some task)
    {phase : TaskPhase} (htasks : s'.tasks = s.tasks.set t { task with phase })
    (hvm : s'.vm = s.vm) (hlock : s'.vm_lock = s.vm_lock)
    (htask : TaskInv libs guest s' t { task with phase }) : Invariant libs guest s' :=
  h.setPhase ht htasks htask (.inl ⟨hlock, hvm⟩) (h.pending_same ht htasks hvm) (by rw [hvm])

/-! ### The phases of a task -/

lemma TaskInv.of_answered {resp : GatewayResponse}
    (h : resp.ok = true → processRequest libs task.request = .ok none ∨
      ∃ req reply, processRequest libs task.request = .ok (some req) ∧
        Genuine libs guest req reply ∧
          resp = respond task.request.action (parseAgentResponse reply)) :
    TaskInv libs guest s t { task with phase := .answered resp } where
  holder hholds := by cases hholds
  requested _ hreq := by cases hreq
  restored _ hphase := by cases hphase
  dumps hphase := by rcases hphase with hphase | hphase <;> cases hphase
  answered := by
    rintro _ ⟨⟩ hok
    exact h hok

lemma TaskInv.of_error {resp : GatewayResponse} (hresp : resp.ok = false) :
    TaskInv libs guest s t { task with phase := .answered resp } := by
  apply TaskInv.of_answered
  intro hok
  rw [hresp] at hok
  cases hok

lemma TaskInv.of_dumps {phase : TaskPhase} (hphase : phase = .dumping ∨ phase = .dumped)
    (h : processRequest libs task.request = .ok none) :
    TaskInv libs guest s t { task with phase } := by
  rcases hphase with rfl | rfl <;>
    exact ⟨(by rintro ⟨⟩), (by rintro _ ⟨⟩),
      (by rintro _ ⟨⟩), (fun _ => h), (by rintro _ ⟨⟩)⟩

lemma TaskInv.of_request {phase : TaskPhase} {req : AgentRequest}
    (hphase : phase.agentRequest = some req)
    (h : processRequest libs task.request = .ok (some req))
    (hholder : phase.holds = true → s.vm_lock = some t)
    (hrestored : phase = .restored req → guest.Clean s.vm.state ∧ s.vm.Quiet) :
    TaskInv libs guest s t { task with phase } := by
  refine ⟨hholder, ?_, ?_, ?_, ?_⟩
  · intro req' hreq'
    obtain rfl := Option.some.inj (hphase.symm.trans hreq')
    exact h
  · rintro req' rfl
    obtain rfl := Option.some.inj hphase
    exact hrestored rfl
  · rintro (rfl | rfl) <;> cases hphase
  · rintro resp rfl
    cases hphase

/-- The holder of the lock is answered, and gives it away. -/
lemma Invariant.release (h : Invariant libs guest s) (ht : s.tasks[t]? = some task)
    (hholds : task.phase.holds = true) {resp : GatewayResponse}
    (hanswered : resp.ok = true → ∃ req reply,
      processRequest libs task.request = .ok (some req) ∧ Genuine libs guest req reply ∧
        resp = respond task.request.action (parseAgentResponse reply)) :
    Invariant libs guest (s.release t task resp) :=
  h.setPhase ht rfl (.of_answered fun hok => .inr (hanswered hok)) (.inr (.inr hholds))
    (h.pending_same ht rfl rfl) rfl

lemma Invariant.release_error (h : Invariant libs guest s) (ht : s.tasks[t]? = some task)
    (hholds : task.phase.holds = true) {resp : GatewayResponse} (hresp : resp.ok = false) :
    Invariant libs guest (s.release t task resp) := by
  apply h.release ht hholds
  intro hok
  rw [hresp] at hok
  cases hok

lemma prepare_error {request : GatewayRequest} {resp : GatewayResponse}
    (h : prepare libs request = .error resp) : resp.ok = false := by
  unfold prepare at h
  dsimp only at h
  generalize (if request.action = "hook" then request.hook_script.getD ""
    else libs.default_hook_script) = hook_script at h
  split at h
  · cases h
    rfl
  · split at h
    · cases h
      rfl
    · split at h <;> cases h
      rfl

lemma processRequest_error {request : GatewayRequest} {resp : GatewayResponse}
    (h : processRequest libs request = .error resp) : resp.ok = false := by
  unfold processRequest at h
  split at h
  · cases hprepare : prepare libs request with
    | error resp' =>
      rw [hprepare] at h
      cases h
      exact prepare_error hprepare
    | ok req =>
      rw [hprepare] at h
      cases h
  · split at h <;> cases h
    rfl

/-- What the monitor acknowledges it has done. -/
def Acknowledged (_ : SandboxGateway G) : SandboxEvent → Prop
  | .restore _ loaded reply => (reply.map checkHmpResponse).getD false = true → loaded = true
  | _ => True

instance (s : SandboxGateway G) : (e : SandboxEvent) → Decidable (Acknowledged s e)
  | .restore _ loaded reply =>
    inferInstanceAs (Decidable ((reply.map checkHmpResponse).getD false = true → loaded = true))
  | .arrive _ | .check _ | .lock _ | .send _ _ | .receive _ _ | .timeout _ | .screendump _ _
  | .readScreen _ | .idle _ | .accept | .finish _ => isTrue trivial

/-- The holder of the lock restores the snapshot. -/
lemma Invariant.restore (h : Invariant libs guest s) (ht : s.tasks[t]? = some task)
    {req : AgentRequest} (hphase : task.phase = .locked req) {loaded : Bool} {reply : Option Json}
    (hack : Acknowledged s (.restore t loaded reply))
    (hstep : s.stepTask libs guest t task (.restore t loaded reply) = some s') :
    Invariant libs guest s' := by
  have htask := h.tasks t task ht
  have hholds : task.phase.holds = true := by rw [hphase]; rfl
  have hreq : processRequest libs task.request = .ok (some req) :=
    htask.requested req (by rw [hphase]; rfl)
  simp only [SandboxGateway.stepTask, hphase] at hstep
  cases hstep
  cases loaded with
  | true =>
    have hquiet : (s.load guest).vm.Quiet := ⟨rfl, rfl⟩
    split
    · exact h.setPhase ht rfl (.of_request rfl hreq (fun _ => htask.holder hholds)
        fun _ => ⟨guest.clean_snapshot, hquiet⟩) (.inr (.inr hholds)) (.inl hquiet) rfl
    · exact h.setPhase ht rfl (.of_error rfl) (.inr (.inr hholds)) (.inl hquiet) rfl
  | false =>
    split
    · next hreply => cases hack hreply
    · exact h.release_error ht hholds rfl

lemma Invariant.stepTask (h : Invariant libs guest s) (ht : s.tasks[t]? = some task)
    {e : SandboxEvent} (he : e.task = some t) (hack : Acknowledged s e)
    (hstep : s.stepTask libs guest t task e = some s') : Invariant libs guest s' := by
  have htask := h.tasks t task ht
  cases e with
  | arrive _ | idle _ | accept | finish _ => cases hstep
  | check _ =>
    simp only [SandboxGateway.stepTask] at hstep
    split at hstep <;> cases hstep
    split
    · next resp hprocess =>
      exact h.setPhase_same ht rfl rfl rfl (.of_error (processRequest_error hprocess))
    · next req hprocess =>
      exact h.setPhase_same ht rfl rfl rfl (.of_request rfl hprocess
        (by rintro ⟨⟩) (by rintro ⟨⟩))
    · next hprocess => exact h.setPhase_same ht rfl rfl rfl (.of_dumps (.inl rfl) hprocess)
  | lock _ =>
    simp only [SandboxGateway.stepTask] at hstep
    split at hstep
    · next req hphase hfree =>
      cases hstep
      exact h.setPhase ht rfl (.of_request rfl (htask.requested req (by rw [hphase]; rfl))
        (fun _ => rfl) (by rintro ⟨⟩)) (.inr (.inl hfree))
        (h.pending_same ht rfl rfl) rfl
    · cases hstep
  | restore _ loaded reply =>
    cases hphase : task.phase with
    | locked req =>
      cases he
      exact h.restore ht hphase hack hstep
    | _ =>
      simp only [SandboxGateway.stepTask, hphase] at hstep
      cases hstep
  | send _ connected =>
    simp only [SandboxGateway.stepTask] at hstep
    split at hstep
    · next req hphase =>
      have hholds : task.phase.holds = true := by rw [hphase]; rfl
      obtain ⟨hclean, hlistening, hqueue⟩ := htask.restored req hphase
      have hreq := htask.requested req (by rw [hphase]; rfl)
      cases connected with
      | false =>
        cases hstep
        exact h.release_error ht hholds rfl
      | true =>
        cases hstep
        refine h.setPhase ht rfl (.of_request rfl hreq (fun _ => htask.holder hholds)
          (by rintro ⟨⟩)) (.inr (.inr hholds)) ?_ rfl
        refine .inr ⟨hclean, t, req, ?_, .inl ⟨hlistening, ?_⟩⟩
        · exact Requested.mono (requests_set ht rfl) ⟨task, ht, hreq⟩
        · show s.vm.queue ++ [(t, req)] = [(t, req)]
          rw [hqueue, List.nil_append]
    · cases hstep
  | receive _ garbled =>
    simp only [SandboxGateway.stepTask] at hstep
    split at hstep
    · next req reply hphase hreply =>
      cases hstep
      have hholds : task.phase.holds = true := by rw [hphase]; rfl
      cases garbled with
      | true => exact h.release_error ht hholds rfl
      | false =>
        refine h.release ht hholds fun _ => ?_
        obtain ⟨l₁, l₂, hmem, -⟩ := List.lookup_eq_some_iff.mp hreply
        obtain ⟨req', ⟨task', ht', hreq'⟩, hgenuine⟩ :=
          h.replies (t, reply) (hmem ▸ List.mem_append_right l₁ List.mem_cons_self)
        obtain rfl := Option.some.inj (ht.symm.trans ht')
        exact ⟨req', reply, hreq', hgenuine, rfl⟩
    · cases hstep
  | timeout _ =>
    simp only [SandboxGateway.stepTask] at hstep
    split at hstep
    · next req hphase =>
      cases hstep
      exact h.release_error ht (by rw [hphase]; rfl) rfl
    · cases hstep
  | screendump _ written =>
    simp only [SandboxGateway.stepTask] at hstep
    split at hstep
    · next hphase =>
      cases written with
      | false =>
        cases hstep
        exact h.setPhase_same ht rfl rfl rfl (.of_error rfl)
      | true =>
        cases hstep
        exact h.setPhase_same ht rfl rfl rfl (.of_dumps (.inr rfl) (htask.dumps (.inl hphase)))
    · cases hstep
  | readScreen _ =>
    simp only [SandboxGateway.stepTask] at hstep
    split at hstep
    · next hphase =>
      cases hstep
      split
      · exact h.setPhase_same ht rfl rfl rfl (.of_error rfl)
      · exact h.setPhase_same ht rfl rfl rfl
          (.of_answered fun _ => .inl (htask.dumps (.inr hphase)))
    · cases hstep

lemma Invariant.tasks_moved (h : Invariant libs guest s) {vm : Vm G}
    (hrestored : guest.Clean s.vm.state ∧ s.vm.Quiet → guest.Clean vm.state ∧ vm.Quiet) (t : ℕ)
    (task : Task) (ht : s.tasks[t]? = some task) : TaskInv libs guest { s with vm } t task := by
  have htask := h.tasks t task ht
  exact ⟨htask.holder, htask.requested, fun req hphase => hrestored (htask.restored req hphase),
    htask.dumps, htask.answered⟩

/-- The machine takes a step: what it answers is genuine, because nothing else has run in it. -/
lemma Invariant.stepVm (h : Invariant libs guest s) {e : SandboxEvent} {vm : Vm G}
    (hstep : SandboxGateway.stepVm libs guest s.vm e = some vm) :
    Invariant libs guest { s with vm } := by
  cases e with
  | idle choice =>
    cases hstep
    refine ⟨h.tasks_moved ?_, ?_, h.replies⟩
    · rintro ⟨hclean, hquiet⟩
      exact ⟨hclean.idle choice, hquiet⟩
    · refine h.pending.imp_right ?_
      rintro ⟨hclean, hpending⟩
      exact ⟨hclean.idle choice, hpending⟩
  | accept =>
    simp only [SandboxGateway.stepVm] at hstep
    split at hstep
    · next t req queue hagent hqueue =>
      cases hstep
      have hno : ¬ s.vm.Quiet := by
        rintro ⟨-, hempty⟩
        rw [hqueue] at hempty
        cases hempty
      refine ⟨h.tasks_moved fun hquiet => absurd hquiet.2 hno, ?_, h.replies⟩
      obtain ⟨hclean, t', req', hreq, hpending | hpending⟩ := h.pending.resolve_left hno
      · rw [hqueue] at hpending
        obtain ⟨-, heq⟩ := hpending
        cases heq
        exact .inr ⟨hclean, t, req, hreq, .inr ⟨rfl, rfl⟩⟩
      · rw [hagent] at hpending
        cases hpending.1
    · cases hstep
  | finish choice =>
    simp only [SandboxGateway.stepVm] at hstep
    split at hstep
    · next t req hagent =>
      cases hstep
      have hno : ¬ s.vm.Quiet := by
        rintro ⟨hlistening, -⟩
        rw [hagent] at hlistening
        cases hlistening
      obtain ⟨hclean, t', req', hreq, hpending | hpending⟩ := h.pending.resolve_left hno
      · rw [hagent] at hpending
        cases hpending.1
      · obtain ⟨heq, hqueue⟩ := hpending
        rw [hagent] at heq
        cases heq
        refine ⟨h.tasks_moved fun hquiet => absurd hquiet.2 hno,
          .inl ⟨rfl, hqueue⟩, ?_⟩
        intro x hx
        rcases List.mem_append.mp hx with hx | hx
        · exact h.replies x hx
        · obtain rfl := List.mem_singleton.mp hx
          exact ⟨req, hreq, s.vm.state, choice, hclean, rfl⟩
    · cases hstep
  | _ => cases hstep

lemma Invariant.arrive (h : Invariant libs guest s) (request : GatewayRequest) :
    Invariant libs guest { s with tasks := s.tasks ++ [⟨request, .received⟩] } := by
  have hkept (t : ℕ) (task : Task) (ht : s.tasks[t]? = some task) :
      (s.tasks ++ [⟨request, .received⟩])[t]? = some task := by
    rw [List.getElem?_append_left (List.getElem?_eq_some_iff.mp ht).1]
    exact ht
  have hmono {t : ℕ} {req : AgentRequest} (hreq : Requested libs s t req) :
      Requested libs { s with tasks := s.tasks ++ [⟨request, .received⟩] } t req :=
    hreq.mono fun t task ht => ⟨task, hkept t task ht, rfl⟩
  refine ⟨?_, ?_, ?_⟩
  · intro t task ht
    by_cases hlt : t < s.tasks.length
    · rw [List.getElem?_append_left hlt] at ht
      have htask := h.tasks t task ht
      exact ⟨htask.holder, htask.requested, htask.restored, htask.dumps, htask.answered⟩
    · rw [List.getElem?_append_right (by omega)] at ht
      obtain rfl := List.mem_singleton.mp (List.mem_of_getElem? ht)
      refine ⟨(by rintro ⟨⟩), (by rintro _ ⟨⟩),
        (by rintro _ ⟨⟩), ?_, (by rintro _ ⟨⟩)⟩
      rintro (hphase | hphase) <;> cases hphase
  · refine h.pending.imp_right ?_
    rintro ⟨hclean, t, req, hreq, hpending⟩
    exact ⟨hclean, t, req, hmono hreq, hpending⟩
  · intro x hx
    obtain ⟨req, hreq, hgenuine⟩ := h.replies x hx
    exact ⟨req, hmono hreq, hgenuine⟩

lemma Invariant.step (s : SandboxGateway G) (e : SandboxEvent) (s' : SandboxGateway G)
    (h : Invariant libs guest s) (hack : Acknowledged s e)
    (hstep : s.step libs guest e = some s') : Invariant libs guest s' := by
  unfold SandboxGateway.step at hstep
  split at hstep
  · next t he =>
    obtain ⟨task, ht, hstep⟩ := Option.bind_eq_some_iff.mp hstep
    exact h.stepTask ht he hack hstep
  · split at hstep
    · next request _ =>
      cases hstep
      exact h.arrive request
    · obtain ⟨vm, hvm, rfl⟩ := Option.map_eq_some_iff.mp hstep
      exact h.stepVm hvm

lemma invariant_new : Invariant libs guest (.new guest) := by
  refine ⟨?_, .inl ⟨rfl, rfl⟩, ?_⟩
  · intro t task ht
    cases ht
  · intro x hx
    cases hx

/-! ### What the tools store -/

lemma processRequest_run {request : GatewayRequest} {sample_bytes : List UInt8}
    (haction : request.action = "trace" ∨ request.action = "hook")
    (hsample : request.sample_b64 = some (encodeBase64 sample_bytes)) {req : Option AgentRequest}
    (h : processRequest libs request = .ok req) :
    encodeBase64 sample_bytes ≠ "" ∧ req = some ⟨request.action, encodeBase64 sample_bytes,
      if request.action = "hook" then request.hook_script.getD "" else libs.default_hook_script,
      min (request.timeout_secs.getD 30) 120, request.args⟩ := by
  unfold processRequest at h
  rw [if_pos haction] at h
  unfold prepare at h
  dsimp only at h
  generalize (if request.action = "hook" then request.hook_script.getD ""
    else libs.default_hook_script) = hook_script at h ⊢
  have hdecode : Base64.decode (encodeBase64 sample_bytes).toList = some sample_bytes := by
    rw [encodeBase64, String.toList_ofList, Base64.decode_encode]
  simp only [hsample, Option.getD_some, hdecode] at h
  by_cases hempty : encodeBase64 sample_bytes = ""
  · rw [if_pos hempty] at h
    cases h
  · rw [if_neg hempty] at h
    split at h <;> cases h
    exact ⟨hempty, rfl⟩

/-- A run of the sample in a machine that has done nothing else since the snapshot. -/
def Observed (guest : Guest G) (input : RunInput) (run : Run) : Prop :=
  ∃ g choice g', guest.Clean g ∧ guest.run g input choice = (.ok run, g')

lemma parse_agentError (msg : String) :
    parseAgentResponse (agentError msg) = some ⟨"error", [], [], [msg], .null⟩ := rfl

lemma parse_run (status : String) (run : Run) :
    parseAgentResponse (.obj [("status", .str status), ("trace", run.trace),
        ("process_tree", .arr run.process_tree), ("errors", .arr (run.errors.map .str))]) =
      run.trace.asArray.map fun trace =>
        ⟨status, trace, run.process_tree, run.errors, .null⟩ := by
  have herrors : Json.readList Json.asStr (.arr (run.errors.map .str)) = some run.errors :=
    Json.readList_map fun _ _ => rfl
  show (run.trace.asArray.bind fun trace =>
    (Json.readList Json.asStr (.arr (run.errors.map .str))).bind fun errors =>
      some (⟨status, trace, run.process_tree, errors, .null⟩ : AgentResponse)) = _
  rw [herrors]
  cases run.trace.asArray <;> rfl

lemma handleClient_ok {g : G} {req : AgentRequest} {choice : ℕ} {sample : List UInt8}
    {resp : AgentResponse} (hcmd : req.cmd = "trace" ∨ req.cmd = "hook")
    (hempty : req.sample_b64 ≠ "") (hsample : libs.b64decode req.sample_b64 = .ok sample)
    (h : parseAgentResponse (handleClient libs guest g req choice).1 = some resp)
    (hok : resp.status = "ok") :
    ∃ run g', guest.run g ⟨sample, req.hook_script, min req.timeout 120, req.args⟩ choice =
      (.ok run, g') ∧ run.errors = [] ∧ run.trace = .arr resp.trace ∧
        run.process_tree = resp.process_tree ∧ resp.errors = [] ∧ resp.data = .null := by
  unfold handleClient at h
  rw [if_pos hcmd] at h
  unfold handleTrace at h
  rw [if_neg hempty] at h
  simp only [hsample] at h
  rcases hrun : guest.run g ⟨sample, req.hook_script, min req.timeout 120, req.args⟩ choice with
    ⟨result, g'⟩
  rw [hrun] at h
  cases result with
  | error e =>
    rw [parse_agentError] at h
    cases h
    simp at hok
  | ok run =>
    dsimp only at h
    rw [parse_run] at h
    obtain ⟨trace, htrace, rfl⟩ := Option.map_eq_some_iff.mp h
    have herrors : run.errors = [] := by
      by_contra hne
      dsimp only at hok
      rw [if_neg hne] at hok
      simp at hok
    exact ⟨run, g', rfl, herrors, Json.asArray_eq_some htrace, rfl, herrors, rfl⟩

lemma respond_ok {action : String} {reply : Option AgentResponse} {data : Json}
    (h : gatewayCall (respond action reply) = .ok data) :
    ∃ resp, reply = some resp ∧ resp.status = "ok" ∧
      data = .obj ([("trace", .arr resp.trace), ("process_tree", .arr resp.process_tree),
        ("errors", .arr (resp.errors.map .str))] ++
          if action = "hook" then [("data", resp.data)] else []) := by
  cases reply with
  | none => cases h
  | some resp =>
    unfold respond at h
    dsimp only at h
    by_cases hstatus : resp.status = "ok"
    · rw [if_neg (not_not.mpr hstatus)] at h
      cases h
      exact ⟨resp, rfl, hstatus, rfl⟩
    · rw [if_pos hstatus] at h
      cases h

/-- What a task is answered with, is from the run of its own sample in a clean machine. -/
lemma TaskInv.observed {request : GatewayRequest} {resp : GatewayResponse}
    (h : TaskInv libs guest s t ⟨request, .answered resp⟩)
    (hstrict : ∀ bytes, libs.b64decode (encodeBase64 bytes) = .ok bytes)
    (haction : request.action = "trace" ∨ request.action = "hook") {sample : List UInt8}
    (hsample : request.sample_b64 = some (encodeBase64 sample)) {data : Json}
    (hdata : gatewayCall resp = .ok data) :
    ∃ run, Observed guest ⟨sample,
        if request.action = "hook" then request.hook_script.getD "" else libs.default_hook_script,
        min (request.timeout_secs.getD 30) 120, request.args⟩ run ∧ run.errors = [] ∧
      data = .obj ([("trace", run.trace), ("process_tree", .arr run.process_tree),
        ("errors", .arr [])] ++ if request.action = "hook" then [("data", .null)] else []) := by
  have hok : resp.ok = true := by
    by_contra hok
    unfold gatewayCall at hdata
    rw [if_neg hok] at hdata
    cases hdata
  rcases h.answered resp rfl hok with hnone | ⟨req, reply, hreq, ⟨g, choice, hclean, rfl⟩, hresp⟩
  · cases (processRequest_run haction hsample hnone).2
  · obtain ⟨hempty, heq⟩ := processRequest_run haction hsample hreq
    obtain rfl := Option.some.inj heq
    rw [hresp] at hdata
    obtain ⟨answer, hanswer, hstatus, rfl⟩ := respond_ok hdata
    obtain ⟨run, g', hrun, hnone, htrace, htree, herrors, hnull⟩ :=
      handleClient_ok haction hempty (hstrict sample) hanswer hstatus
    refine ⟨run, ⟨g, choice, g', hclean, ?_⟩, hnone, ?_⟩
    · rw [← hrun]
      simp
    · rw [htrace, htree, herrors, hnull]
      rfl

/-- Whatever is sent by whom and when, and whatever is given up or lost, what a tool stores is from
a run of its sample in a machine that has run nothing else. -/
theorem samples_isolated (hstrict : ∀ bytes, libs.b64decode (encodeBase64 bytes) = .ok bytes)
    {events : List SandboxEvent}
    (hack : Along (SandboxGateway.step libs guest) Acknowledged (.new guest) events)
    (h : exec (SandboxGateway.step libs guest) (.new guest) events = some s)
    {request : GatewayRequest} {resp : GatewayResponse}
    (ht : s.tasks[t]? = some ⟨request, .answered resp⟩) {data : Json}
    (hdata : gatewayCall resp = .ok data) (sample : List UInt8) (input : Json) :
    (request = traceRequest sample input → ∃ run,
      Observed guest ⟨sample, libs.default_hook_script, min (timeoutSecs input) 120, argsOf input⟩
        run ∧ run.errors = [] ∧
      traceResult data = .obj [("trace", run.trace), ("process_tree", .arr run.process_tree),
        ("errors", .arr [])]) ∧
    ∀ hook_script, request = hookRequest sample hook_script input → ∃ run,
      Observed guest ⟨sample, hook_script, min (timeoutSecs input) 120, argsOf input⟩ run ∧
      run.errors = [] ∧
      hookResult data = .obj [("trace", run.trace), ("process_tree", .arr run.process_tree),
        ("errors", .arr []), ("data", .null)] := by
  have hinv : Invariant libs guest s := exec_invariant Invariant.step invariant_new hack h
  have htask := hinv.tasks t _ ht
  constructor
  · rintro rfl
    obtain ⟨run, hrun, herrors, rfl⟩ := htask.observed hstrict (.inl rfl) rfl hdata
    exact ⟨run, hrun, herrors, rfl⟩
  · rintro hook_script rfl
    obtain ⟨run, hrun, herrors, rfl⟩ := htask.observed hstrict (.inr rfl) rfl hdata
    exact ⟨run, hrun, herrors, rfl⟩

/-- A guest that writes down how many samples it has run. -/
def countingGuest : Guest ℕ where
  snapshot := 0
  idle g _ := g
  run g _ _ := (.ok ⟨.arr [.num (.int g)], [], []⟩, g + 1)
  screen _ := []

def countingLibs : SandboxLibs where
  b64decode s := match Base64.decode s.toList with
    | some bytes => .ok bytes
    | none => .error "Incorrect padding"
  default_hook_script := "rpc"

/-- A sample runs longer than its task waits, and another one comes in. -/
def overrun : List SandboxEvent :=
  [.arrive (traceRequest [77] .null), .arrive (traceRequest [90] .null), .check 0, .check 1,
    .lock 0, .restore 0 true (some (.obj [("return", .str "")])), .send 0 true, .accept,
    .timeout 0, .lock 1, .restore 1 true (some (.obj [("return", .str "")])), .send 1 true,
    .accept, .finish 0, .receive 1 false]

theorem samples_isolated_overrun :
    ∃ run, Observed countingGuest ⟨[90], "rpc", 30, none⟩ run ∧ run.errors = [] ∧
      traceResult (.obj [("trace", .arr [.num (.int 0)]), ("process_tree", .arr []),
        ("errors", .arr [])]) =
        .obj [("trace", run.trace), ("process_tree", .arr run.process_tree),
          ("errors", .arr [])] := by
  have hstrict (bytes : List UInt8) :
      countingLibs.b64decode (encodeBase64 bytes) = .ok bytes := by
    simp only [countingLibs, encodeBase64, String.toList_ofList, Base64.decode_encode]
  have hack : Along (SandboxGateway.step countingLibs countingGuest) Acknowledged
      (.new countingGuest) overrun := by
    decide +kernel
  have hrun : (exec (SandboxGateway.step countingLibs countingGuest) (.new countingGuest)
      overrun).map SandboxGateway.tasks =
        some [⟨traceRequest [77] .null, .answered (respond "trace" none)⟩,
          ⟨traceRequest [90] .null, .answered ⟨true, some (.obj [("trace", .arr [.num (.int 0)]),
            ("process_tree", .arr []), ("errors", .arr [])]), none, none⟩⟩] := by
    decide +kernel
  obtain ⟨s, hs, htasks⟩ := Option.map_eq_some_iff.mp hrun
  exact (samples_isolated hstrict hack hs (t := 1) (by rw [htasks]; rfl) rfl [90] .null).1 rfl

end Arbeiterfarm.Tools.Sandbox
