import Mathlib.Logic.Basic

/-!
# Statements and sessions of a database

A statement that a client sends to a database is executed and answered, executed without its
answer arriving, or not executed at all. The client proceeds only in the first case, while the
tables change in the first two.

A session has settings, and at most one transaction. What is set in a transaction is kept when it
commits, and what is set locally is not; nothing is kept when it is rolled back. A statement that
fails aborts the transaction: the settings are those of its start at once, and every further
statement fails until the transaction ends.
-/

namespace Foundation

inductive Execution where
  | answered
  | lost
  | failed
  deriving DecidableEq, Repr

namespace Execution

variable {τ : Type*}

/-- What is left of `t` by a statement that would leave `t'`. -/
def apply (e : Execution) (t t' : τ) : τ :=
  match e with
  | .failed => t
  | _ => t'

def executed (e : Execution) : Bool := e ≠ .failed

@[simp] lemma apply_answered (t t' : τ) : apply .answered t t' = t' := rfl

@[simp] lemma apply_lost (t t' : τ) : apply .lost t t' = t' := rfl

@[simp] lemma apply_failed (t t' : τ) : apply .failed t t' = t := rfl

@[simp] lemma apply_self (e : Execution) (t : τ) : e.apply t t = t := by cases e <;> rfl

lemma apply_eq (e : Execution) (t t' : τ) :
    e.executed = true ∧ e.apply t t' = t' ∨ e.executed = false ∧ e.apply t t' = t := by
  cases e with
  | answered => exact .inl ⟨rfl, rfl⟩
  | lost => exact .inl ⟨rfl, rfl⟩
  | failed => exact .inr ⟨rfl, rfl⟩

/-- What holds before a statement and after it holds whatever becomes of the statement. -/
lemma apply_preserves {P : τ → Prop} (e : Execution) {t t' : τ} (h : P t) (h' : P t') :
    P (e.apply t t') := by
  cases e with
  | answered => exact h'
  | lost => exact h'
  | failed => exact h

end Execution

/-! ### Sessions -/

inductive Session (σ : Type*) where
  | idle (current : σ)
  /-- `start` is what a rollback restores, `pending` what a commit leaves. -/
  | active (start pending current : σ)
  | aborted (start : σ)

/-- The commands that begin or end a transaction. -/
inductive TxCommand where
  | begin | commit | rollback
  deriving DecidableEq, Repr

namespace Session

variable {σ : Type*}

/-- The settings in effect. -/
def current : Session σ → σ
  | .idle s       => s
  | .active _ _ s => s
  | .aborted s    => s

def exec : TxCommand → Session σ → Session σ
  | .begin, .idle s             => .active s s s
  | .begin, s                   => s
  | .commit, .active _ pending _ => .idle pending
  | .rollback, .active start _ _ => .idle start
  | _, .aborted start           => .idle start
  | _, .idle s                  => .idle s

def execAll (commands : List TxCommand) (t : Session σ) : Session σ :=
  commands.foldl (fun t cmd => exec cmd t) t

/-- `SET` and `RESET`. -/
def set (f : σ → σ) : Session σ → Session σ
  | .idle s                   => .idle (f s)
  | .active start pending cur => .active start (f pending) (f cur)
  | .aborted start            => .aborted start

/-- `SET LOCAL` has no effect outside a transaction. -/
def setLocal (f : σ → σ) : Session σ → Session σ
  | .active start pending cur => .active start pending (f cur)
  | s                         => s

/-- What an error leaves. -/
def fail : Session σ → Session σ
  | .active start _ _ => .aborted start
  | s                 => s

def inFailedTransaction : String :=
  "current transaction is aborted, commands ignored until end of transaction block"

/-- A statement that is not the end of a transaction; `error` is the error that it raises unless
the transaction is aborted already. -/
def statement (error : Option String) (effect : Session σ → Session σ) (s : Session σ) :
    Session σ × Option String :=
  match s, error with
  | .aborted start, _ => (.aborted start, some inFailedTransaction)
  | s, some msg       => (s.fail, some msg)
  | s, none           => (effect s, none)

/-! ### What is left in the end -/

/-- A transaction is open that was begun with the settings `s`. -/
inductive OpenedAt (s : σ) : Session σ → Prop
  | active (pending current : σ) : OpenedAt s (.active s pending current)
  | aborted : OpenedAt s (.aborted s)

/-- Whatever was set in it, a transaction that is rolled back leaves the settings of its start. -/
lemma OpenedAt.rollback {s : σ} {t : Session σ} (h : OpenedAt s t) :
    t.exec .rollback = .idle s := by
  cases h <;> rfl

/-- The settings that the end of a transaction may leave. -/
def Kept (P : σ → Prop) : Session σ → Prop
  | .idle s                 => P s
  | .active start pending _ => P start ∧ P pending
  | .aborted start          => P start

lemma Kept.exec {P : σ → Prop} {t : Session σ} (h : Kept P t) (cmd : TxCommand) :
    Kept P (t.exec cmd) := by
  cases t with
  | idle s =>
    cases cmd with
    | begin => exact ⟨h, h⟩
    | commit | rollback => exact h
  | active start pending cur =>
    cases cmd with
    | begin => exact h
    | commit => exact h.2
    | rollback => exact h.1
  | aborted start => cases cmd <;> exact h

lemma Kept.execAll {P : σ → Prop} {t : Session σ} (h : Kept P t) (commands : List TxCommand) :
    Kept P (t.execAll commands) := by
  induction commands generalizing t with
  | nil => exact h
  | cons cmd commands ih => exact ih (h.exec cmd)

/-- After the end of a transaction none is open. -/
lemma exists_exec_eq_idle {cmd : TxCommand} (h : cmd ≠ .begin) (t : Session σ) :
    ∃ s, t.exec cmd = .idle s := by
  cases cmd with
  | begin => exact absurd rfl h
  | commit | rollback => cases t <;> exact ⟨_, rfl⟩

/-- In a transaction no other one begins. -/
lemma execAll_active {commands : List TxCommand} (h : ∀ cmd ∈ commands, cmd = .begin)
    (start pending cur : σ) :
    execAll commands (.active start pending cur) = .active start pending cur := by
  induction commands with
  | nil => rfl
  | cons cmd commands ih =>
    obtain rfl := h cmd List.mem_cons_self
    exact ih fun cmd hcmd => h cmd (List.mem_cons_of_mem _ hcmd)

lemma exists_execAll_eq_idle {commands : List TxCommand} {cmd : TxCommand} (h : cmd ≠ .begin)
    (t : Session σ) : ∃ s, t.execAll (commands ++ [cmd]) = .idle s := by
  rw [execAll, List.foldl_append]
  exact exists_exec_eq_idle h _

end Session

end Foundation
