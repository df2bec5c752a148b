import Mathlib.Data.List.Basic
import Mathlib.Data.Option.Basic
import Mathlib.Logic.Basic

/-!
# Runs of a partial step function

A system is a state type `σ`, a type `α` of actions and a step function that returns `none`
when an action is not enabled. Interleavings of several parties are lists of actions: any order
is a run as long as each action is enabled when it is taken.

`exec_invariant` and `exec_related` are the two induction rules of the development. Both take a
condition `C` on the actions of the run (`Along`), so that a property which only holds while
some branch is avoided is stated over whole runs as well; `exec_iff_along` is for a condition that
is exact, and `exec_simulates` for runs of two systems. `always_of_along` and `always_iff_along` are
the same rules for what holds in every state of a run (`Always`).

Some of the actions may be hidden. When a hidden action does not change what the others can see, the
observations of a run are those of the run without its hidden actions (`observe_purge`), also of a
machine that does not take every action (`exec_purge`).
-/

namespace Foundation

variable {σ α : Type*} (step : σ → α → Option σ)

/-- Take the actions in order; `none` as soon as one of them is not enabled. -/
def exec : σ → List α → Option σ
  | s, []      => some s
  | s, a :: as => (step s a).bind fun t => exec t as

/-- Every action of the run meets `C` in the state in which it is taken. -/
def Along (C : σ → α → Prop) : σ → List α → Prop
  | _, []      => True
  | s, a :: as => C s a ∧ ∀ t, step s a = some t → Along C t as

/-- `P` holds in every state that the run reaches. -/
def Always (P : σ → Prop) : σ → List α → Prop
  | s, []      => P s
  | s, a :: as => P s ∧ ∀ t, step s a = some t → Always P t as

@[simp] lemma exec_nil (s : σ) : exec step s [] = some s := rfl

@[simp] lemma exec_cons (s : σ) (a : α) (as : List α) :
    exec step s (a :: as) = (step s a).bind fun t => exec step t as := rfl

@[simp] lemma always_cons (P : σ → Prop) (s : σ) (a : α) (as : List α) :
    Always step P s (a :: as) ↔ P s ∧ ∀ t, step s a = some t → Always step P t as := Iff.rfl

@[simp] lemma along_cons (C : σ → α → Prop) (s : σ) (a : α) (as : List α) :
    Along step C s (a :: as) ↔ C s a ∧ ∀ t, step s a = some t → Along step C t as := Iff.rfl

lemma exec_append (s : σ) (as bs : List α) :
    exec step s (as ++ bs) = (exec step s as).bind fun t => exec step t bs := by
  induction as generalizing s with
  | nil => simp
  | cons a as ih =>
    simp only [List.cons_append, exec_cons, Option.bind_assoc]
    cases step s a with
    | none => rfl
    | some t => simp [ih t]

/-- A condition on the actions of a concrete run can be evaluated. -/
def decidableAlong (C : σ → α → Prop) [∀ s a, Decidable (C s a)] :
    (s : σ) → (as : List α) → Decidable (Along step C s as)
  | _, [] => isTrue trivial
  | s, a :: as =>
    match h : step s a with
    | none => decidable_of_iff (C s a) (by simp [h])
    | some t =>
      have := decidableAlong C t as
      decidable_of_iff (C s a ∧ Along step C t as) (by simp [h])

instance (C : σ → α → Prop) [∀ s a, Decidable (C s a)] (s : σ) (as : List α) :
    Decidable (Along step C s as) := decidableAlong step C s as

variable {step}

lemma exec_trans {s t u : σ} {as bs : List α} (h : exec step s as = some t)
    (h' : exec step t bs = some u) : exec step s (as ++ bs) = some u := by
  rw [exec_append, h]
  exact h'

lemma exec_split {s u : σ} {as bs : List α} (h : exec step s (as ++ bs) = some u) :
    ∃ t, exec step s as = some t ∧ exec step t bs = some u := by
  rw [exec_append] at h
  exact Option.bind_eq_some_iff.mp h

lemma Along.append_left {C : σ → α → Prop} {s : σ} {as bs : List α}
    (h : Along step C s (as ++ bs)) : Along step C s as := by
  induction as generalizing s with
  | nil => trivial
  | cons a as ih => exact ⟨h.1, fun t ht => ih (h.2 t ht)⟩

lemma Along.append_right {C : σ → α → Prop} {s t : σ} {as bs : List α}
    (h : Along step C s (as ++ bs)) (hs : exec step s as = some t) : Along step C t bs := by
  induction as generalizing s with
  | nil =>
    cases hs
    exact h
  | cons a as ih =>
    obtain ⟨u, hu, hut⟩ := Option.bind_eq_some_iff.mp hs
    exact ih (h.2 u hu) hut

lemma Along.append {C : σ → α → Prop} {s t : σ} {as bs : List α} (h : Along step C s as)
    (hs : exec step s as = some t) (ht : Along step C t bs) : Along step C s (as ++ bs) := by
  induction as generalizing s with
  | nil =>
    cases hs
    exact ht
  | cons a as ih =>
    obtain ⟨u, hu, hut⟩ := Option.bind_eq_some_iff.mp hs
    refine ⟨h.1, ?_⟩
    intro u' hu'
    obtain rfl := Option.some.inj (hu.symm.trans hu')
    exact ih (h.2 u hu) hut

/-- A condition that the actions of a run meet in every state holds along it. -/
lemma Along.of_mem {C : σ → α → Prop} {as : List α} (hC : ∀ a ∈ as, ∀ s, C s a) (s : σ) :
    Along step C s as := by
  induction as generalizing s with
  | nil => trivial
  | cons a as ih =>
    refine ⟨hC a List.mem_cons_self s, ?_⟩
    intro t _
    exact ih (fun b hb => hC b (List.mem_cons_of_mem a hb)) t

/-- A condition that every action meets holds along every run. -/
lemma Along.of_forall {C : σ → α → Prop} (hC : ∀ s a, C s a) (s : σ) (as : List α) :
    Along step C s as :=
  Along.of_mem (fun a _ s => hC s a) s

lemma Along.cons {C : σ → α → Prop} {s t : σ} {a : α} {as : List α} (h : step s a = some t)
    (hC : C s a) (hrest : Along step C t as) : Along step C s (a :: as) := by
  refine ⟨hC, ?_⟩
  intro t' ht'
  obtain rfl := Option.some.inj (h.symm.trans ht')
  exact hrest

lemma Always.head {P : σ → Prop} {s : σ} {as : List α} (h : Always step P s as) : P s := by
  cases as with
  | nil => exact h
  | cons a as => exact h.1

lemma Always.of_exec {P : σ → Prop} {s t : σ} {as : List α} (h : Always step P s as)
    (hs : exec step s as = some t) : P t := by
  induction as generalizing s with
  | nil =>
    cases hs
    exact h
  | cons a as ih =>
    obtain ⟨u, hu, hut⟩ := Option.bind_eq_some_iff.mp hs
    exact ih (h.2 u hu) hut

lemma Always.mono {P Q : σ → Prop} (hPQ : ∀ s, P s → Q s) {s : σ} {as : List α}
    (h : Always step P s as) : Always step Q s as := by
  induction as generalizing s with
  | nil => exact hPQ s h
  | cons a as ih => exact ⟨hPQ s h.1, fun t ht => ih (h.2 t ht)⟩

/-- The invariant rule: what each step that meets `C` preserves holds at the end of the run. -/
theorem exec_invariant {C : σ → α → Prop} {I : σ → Prop}
    (hstep : ∀ s a t, I s → C s a → step s a = some t → I t)
    {s u : σ} {as : List α} (hs : I s) (hC : Along step C s as)
    (h : exec step s as = some u) : I u := by
  induction as generalizing s with
  | nil =>
    cases h
    exact hs
  | cons a as ih =>
    obtain ⟨t, ht, htu⟩ := Option.bind_eq_some_iff.mp h
    exact ih (hstep s a t hs hC.1 ht) (hC.2 t ht) htu

/-- An invariant of all steps holds at the end of every run. -/
theorem exec_preserves {I : σ → Prop} (hstep : ∀ s a t, I s → step s a = some t → I t)
    {s u : σ} {as : List α} (hs : I s) (h : exec step s as = some u) : I u := by
  apply exec_invariant (C := fun _ _ => True) _ hs (Along.of_forall (fun _ _ => trivial) s as) h
  intro s a t hs _ ht
  exact hstep s a t hs ht

/-- The exact rule: a property that a step keeps exactly when it meets `C` is kept by a run exactly
when `C` is met along it. -/
theorem exec_iff_along {C : σ → α → Prop} {I P : σ → Prop}
    (hinv : ∀ s a t, I s → step s a = some t → I t)
    (hstep : ∀ s a t, I s → step s a = some t → (P t ↔ P s ∧ C s a))
    {s u : σ} {as : List α} (hs : I s) (h : exec step s as = some u) :
    P u ↔ P s ∧ Along step C s as := by
  induction as generalizing s with
  | nil =>
    cases h
    exact (and_iff_left trivial).symm
  | cons a as ih =>
    obtain ⟨t, ht, htu⟩ := Option.bind_eq_some_iff.mp h
    rw [ih (hinv s a t hs ht) htu, hstep s a t hs ht, and_assoc, along_cons]
    refine and_congr_right fun _ => and_congr_right fun _ => ?_
    constructor
    · intro hrest t' ht'
      obtain rfl := Option.some.inj (ht.symm.trans ht')
      exact hrest
    · intro hrest
      exact hrest t ht

/-- The invariant rule for every state of the run. -/
theorem always_of_along {C : σ → α → Prop} {I : σ → Prop}
    (hstep : ∀ s a t, I s → C s a → step s a = some t → I t)
    {s : σ} {as : List α} (hs : I s) (hC : Along step C s as) : Always step I s as := by
  induction as generalizing s with
  | nil => exact hs
  | cons a as ih => exact ⟨hs, fun t ht => ih (hstep s a t hs hC.1 ht) (hC.2 t ht)⟩

/-- What holds of each action in the states that meet an invariant holds along the run. -/
theorem along_of_invariant {C D : σ → α → Prop} {I : σ → Prop}
    (hstep : ∀ s a t, I s → C s a → step s a = some t → I t) (hD : ∀ s a, I s → C s a → D s a)
    {s : σ} {as : List α} (hs : I s) (hC : Along step C s as) : Along step D s as := by
  induction as generalizing s with
  | nil => trivial
  | cons a as ih => exact ⟨hD s a hs hC.1, fun t ht => ih (hstep s a t hs hC.1 ht) (hC.2 t ht)⟩

/-- The exact rule for every state of the run: `P` holds throughout exactly when each step meets the
condition under which it keeps `P`. -/
theorem always_iff_along {C : σ → α → Prop} {I P : σ → Prop}
    (hinv : ∀ s a t, I s → step s a = some t → I t)
    (hstep : ∀ s a t, I s → P s → step s a = some t → (P t ↔ C s a))
    {s u : σ} {as : List α} (hs : I s) (hP : P s) (h : exec step s as = some u) :
    Always step P s as ↔ Along step C s as := by
  induction as generalizing s with
  | nil => exact iff_of_true hP trivial
  | cons a as ih =>
    obtain ⟨t, ht, htu⟩ := Option.bind_eq_some_iff.mp h
    have hPt : P t ↔ C s a := hstep s a t hs hP ht
    constructor
    · rintro ⟨-, hrest⟩
      have hP' : P t := (hrest t ht).head
      exact .cons ht (hPt.mp hP') ((ih (hinv s a t hs ht) hP' htu).mp (hrest t ht))
    · rintro ⟨hC, hrest⟩
      refine ⟨hP, ?_⟩
      intro t' ht'
      obtain rfl := Option.some.inj (ht.symm.trans ht')
      exact (ih (hinv s a t hs ht) (hPt.mpr hC) htu).mpr (hrest t ht)

/-- The two-state rule: a preorder that each step respects, from states that meet the invariant,
relates the first state of a run to its last one. -/
theorem exec_related {C : σ → α → Prop} {I : σ → Prop} {R : σ → σ → Prop}
    (hrefl : ∀ s, R s s) (htrans : ∀ {s t u}, R s t → R t u → R s u)
    (hinv : ∀ s a t, I s → C s a → step s a = some t → I t)
    (hstep : ∀ s a t, I s → C s a → step s a = some t → R s t)
    {s u : σ} {as : List α} (hs : I s) (hC : Along step C s as)
    (h : exec step s as = some u) : R s u := by
  induction as generalizing s with
  | nil =>
    cases h
    exact hrefl _
  | cons a as ih =>
    obtain ⟨t, ht, htu⟩ := Option.bind_eq_some_iff.mp h
    exact htrans (hstep s a t hs hC.1 ht) (ih (hinv s a t hs hC.1 ht) (hC.2 t ht) htu)

/-- The simulation rule: when each step of one system can be answered by steps of another, so can
each run. -/
theorem exec_simulates {τ β : Type*} {step' : τ → β → Option τ} {R : σ → τ → Prop}
    (hstep : ∀ s a t s', R s s' → step s a = some t → ∃ bs t', exec step' s' bs = some t' ∧ R t t')
    {s u : σ} {s' : τ} {as : List α} (hs : R s s') (h : exec step s as = some u) :
    ∃ bs u', exec step' s' bs = some u' ∧ R u u' := by
  induction as generalizing s s' with
  | nil =>
    cases h
    exact ⟨[], s', rfl, hs⟩
  | cons a as ih =>
    obtain ⟨t, ht, htu⟩ := Option.bind_eq_some_iff.mp h
    obtain ⟨bs, t', hbs, ht'⟩ := hstep s a t s' hs ht
    obtain ⟨bs', u', hbs', hu'⟩ := ih ht' htu
    exact ⟨bs ++ bs', u', exec_trans hbs hbs', hu'⟩

end Foundation

namespace Foundation

/-! ### Noninterference -/

variable {σ α ο : Type*} (step : σ → α → σ × ο) (hidden : α → Bool)

/-- The state after the actions. -/
def final : σ → List α → σ
  | s, [] => s
  | s, a :: as => final (step s a).1 as

/-- The answers to the actions that are not hidden. -/
def observe : σ → List α → List ο
  | _, [] => []
  | s, a :: as =>
    if hidden a then observe (step s a).1 as
    else (step s a).2 :: observe (step s a).1 as

/-- `P` holds in every state before an action. -/
def Throughout (P : σ → Prop) : σ → List α → Prop
  | s, [] => P s
  | s, a :: as => P s ∧ Throughout P (step s a).1 as

/-- Hidden actions can be left out, when they lead to states that look the same and the others do
the same to states that do. -/
theorem observe_purge {P : σ → Prop} {R : σ → σ → Prop}
    (hhidden : ∀ s t a, P s → R s t → hidden a = true → P (step s a).1 → R (step s a).1 t)
    (hstep : ∀ s t a, P s → R s t → hidden a = false → P (step s a).1 →
      R (step s a).1 (step t a).1 ∧ (step s a).2 = (step t a).2)
    {s t : σ} {as : List α} (hs : Throughout step P s as) (h : R s t) :
    observe step hidden s as = observe step hidden t (as.filter fun a => !hidden a) ∧
      R (final step s as) (final step t (as.filter fun a => !hidden a)) := by
  induction as generalizing s t with
  | nil => exact ⟨rfl, h⟩
  | cons a as ih =>
    obtain ⟨hP, hrest⟩ := hs
    have hP' : P (step s a).1 := by
      cases as with
      | nil => exact hrest
      | cons b bs => exact hrest.1
    cases ha : hidden a with
    | true =>
      rw [List.filter_cons_of_neg (by simp [ha]), observe, if_pos ha]
      exact ih hrest (hhidden s t a hP h ha hP')
    | false =>
      obtain ⟨hR, hanswer⟩ := hstep s t a hP h ha hP'
      obtain ⟨hobserve, hfinal⟩ := ih hrest hR
      rw [List.filter_cons_of_pos (by simp [ha])]
      simp only [observe, ha, Bool.false_eq_true, if_false]
      exact ⟨by rw [hanswer, hobserve], hfinal⟩

/-- Hidden actions can be left out of a run, when the others can be taken without them. -/
theorem exec_purge {step : σ → α → Option σ} {hidden : α → Bool} {R : σ → σ → Prop}
    (hhidden : ∀ s t a s', R s t → hidden a = true → step s a = some s' → R s' t)
    (hstep : ∀ s t a s', R s t → hidden a = false → step s a = some s' →
      ∃ t', step t a = some t' ∧ R s' t')
    {s t s' : σ} {as : List α} (h : R s t) (hrun : exec step s as = some s') :
    ∃ t', exec step t (as.filter fun a => !hidden a) = some t' ∧ R s' t' := by
  induction as generalizing s t with
  | nil =>
    cases hrun
    exact ⟨t, rfl, h⟩
  | cons a as ih =>
    obtain ⟨s₁, hs₁, hrest⟩ := Option.bind_eq_some_iff.mp hrun
    cases ha : hidden a with
    | true =>
      rw [List.filter_cons_of_neg (by simp [ha])]
      exact ih (hhidden s t a s₁ h ha hs₁) hrest
    | false =>
      obtain ⟨t₁, ht₁, h₁⟩ := hstep s t a s₁ h ha hs₁
      obtain ⟨t', ht', hR⟩ := ih h₁ hrest
      rw [List.filter_cons_of_pos (by simp [ha])]
      exact ⟨t', by rw [exec_cons, ht₁]; exact ht', hR⟩

end Foundation
