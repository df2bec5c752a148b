import Mathlib.Data.List.Basic

/-!
# Computations that may fail

When a sequence of checks in `Except` succeeds, each of them has succeeded; the lemmas take such a
sequence apart without unfolding it. So does a computation for each element of a list.
-/

namespace Foundation.Fallible

universe u

variable {ε : Type*} {α β : Type u}

lemma bind_eq_ok {x : Except ε α} {f : α → Except ε β} {b : β} :
    (x >>= f) = .ok b ↔ ∃ a, x = .ok a ∧ f a = .ok b := by
  cases x with
  | error e => simp [bind, Except.bind]
  | ok a => simp [bind, Except.bind]

lemma pure_eq_ok {a b : α} : (pure a : Except ε α) = .ok b ↔ a = b := by
  simp [pure, Except.pure]

lemma map_eq_ok {x : Except ε α} {f : α → β} {b : β} :
    x.map f = .ok b ↔ ∃ a, x = .ok a ∧ f a = b := by
  cases x with
  | error e => simp [Except.map]
  | ok a => simp [Except.map]

lemma mapError_eq_ok {ε' : Type*} {x : Except ε α} {f : ε → ε'} {a : α} :
    x.mapError f = .ok a ↔ x = .ok a := by
  constructor
  · intro h
    cases x with
    | error e => cases h
    | ok b =>
      cases h
      rfl
  · rintro rfl
    rfl

/-- A check that throws when it fails, and what follows it. -/
lemma guard_eq_ok {c : Prop} [Decidable c] {e : ε} {f : α → Except ε β} {x : Except ε β}
    {b : β} : (if c then throw e >>= f else x) = .ok b ↔ ¬ c ∧ x = .ok b := by
  by_cases hc : c
  · simp [hc, throw, throwThe, MonadExceptOf.throw, bind, Except.bind]
  · simp [hc]

/-! ### Lists -/

lemma mapM_eq_some_iff {α β : Type*} {f : α → Option β} {l : List α} {out : List β} :
    l.mapM f = some out ↔ l.map f = out.map some := by
  induction l generalizing out with
  | nil => cases out <;> simp
  | cons a l ih =>
    rw [List.mapM_cons]
    cases ha : f a with
    | none => cases out <;> simp [ha]
    | some b =>
      cases hl : l.mapM f with
      | none =>
        cases out with
        | nil => simp
        | cons c out => simp [ha, ← ih, hl]
      | some bs =>
        cases out with
        | nil => simp
        | cons c out => simp [ha, ← ih, hl]

lemma exists_mapM_eq_some {α β : Type*} {f : α → Option β} {l : List α}
    (h : ∀ a ∈ l, ∃ b, f a = some b) : ∃ out, l.mapM f = some out := by
  induction l with
  | nil => exact ⟨[], rfl⟩
  | cons a l ih =>
    obtain ⟨b, hb⟩ := h a List.mem_cons_self
    obtain ⟨out, hout⟩ := ih fun c hc => h c (List.mem_cons_of_mem _ hc)
    exact ⟨b :: out, by simp [hb, hout]⟩

lemma forM_eq_ok_iff {f : α → Except ε PUnit} {l : List α} :
    l.forM f = .ok ⟨⟩ ↔ ∀ a ∈ l, f a = .ok ⟨⟩ := by
  induction l with
  | nil => exact iff_of_true rfl (List.forall_mem_nil _)
  | cons a l ih =>
    have hcons : (a :: l).forM f = (f a).bind fun _ => l.forM f := rfl
    rw [hcons, List.forall_mem_cons, ← ih]
    cases f a <;> simp [Except.bind]

/-! ### Loops -/

/-- A loop over consecutive numbers runs to its end, if every turn does and keeps an invariant. -/
lemma exists_foldlM_range' {σ : Type*} {f : σ → ℕ → Option σ} {P : ℕ → σ → Prop} {a n : ℕ}
    (hstep : ∀ k < n, ∀ s, P k s → ∃ s', f s (a + k) = some s' ∧ P (k + 1) s') {s : σ}
    (hs : P 0 s) : ∃ s', (List.range' a n).foldlM f s = some s' ∧ P n s' := by
  induction n with
  | zero => exact ⟨s, rfl, hs⟩
  | succ n ih =>
    obtain ⟨s₁, hrun, hs₁⟩ := ih fun k hk => hstep k (Nat.lt_succ_of_lt hk)
    obtain ⟨s₂, hturn, hs₂⟩ := hstep n (Nat.lt_succ_self n) s₁ hs₁
    refine ⟨s₂, ?_, hs₂⟩
    rw [List.range'_1_concat, List.foldlM_append, hrun]
    simp [hturn]

/-- How a loop goes on after a turn. -/
inductive Turn (σ : Type*) where
  | next (s : σ)
  | stop (s : σ)

def Turn.state {σ : Type*} : Turn σ → σ
  | .next s => s
  | .stop s => s

/-- A loop with `continue` and `break`, whose turns may fail. -/
def runTurns {σ γ ε : Type*} (turn : σ → γ → Except ε (Turn σ)) : σ → List γ → Except ε σ
  | s, [] => .ok s
  | s, a :: l =>
    match turn s a with
    | .error e => .error e
    | .ok (.stop s) => .ok s
    | .ok (.next s) => runTurns turn s l

/-- What every turn keeps holds in the end, for the elements that have been seen. -/
lemma exists_of_runTurns {σ γ ε : Type*} {turn : σ → γ → Except ε (Turn σ)}
    {P : σ → List γ → Prop} (hturn : ∀ s seen a t, P s seen → turn s a = .ok t →
      P t.state (seen ++ [a])) {s s' : σ} {l : List γ} (hs : P s [])
    (h : runTurns turn s l = .ok s') : ∃ all, all <+: l ∧ P s' all := by
  have hrun : ∀ (l : List γ) (s : σ) (seen : List γ), P s seen → runTurns turn s l = .ok s' →
      ∃ all, all <+: seen ++ l ∧ P s' all := by
    intro l
    induction l with
    | nil =>
      intro s seen hs h
      obtain rfl := Except.ok.inj h
      exact ⟨seen, List.prefix_append seen [], hs⟩
    | cons a l ih =>
      intro s seen hs h
      rw [runTurns] at h
      cases hta : turn s a with
      | error e => simp [hta] at h
      | ok t =>
        have ht := hturn s seen a t hs hta
        cases t with
        | stop u =>
          simp only [hta] at h
          obtain rfl := Except.ok.inj h
          exact ⟨seen ++ [a], by simp, ht⟩
        | next u =>
          simp only [hta] at h
          obtain ⟨all, hall, hP⟩ := ih u (seen ++ [a]) ht h
          exact ⟨all, by simpa using hall, hP⟩
  exact hrun l s [] hs h

end Foundation.Fallible
