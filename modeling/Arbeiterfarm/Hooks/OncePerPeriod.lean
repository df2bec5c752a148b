import Arbeiterfarm.Hooks.TickHooks

/-!
# Tick hooks fire at most once per period

A claim succeeds only with the generation of the row, and every claim advances it. So a copy that
was listed before a claim is of no use after it, and a copy that was listed after it was due with
regard to it.
-/

namespace Arbeiterfarm.Hooks

open Foundation

variable {s t : Ticker} {a : TickAction} {h : Uuid}

/-! ### Copies are not ahead of their hooks -/

structure CopiesInv (s : Ticker) : Prop where
  used : ∀ id q, get id s.hooks = some q → id ∈ s.used
  generation : ∀ k, ∀ r ∈ s.runners k, ∀ q, get r.id s.hooks = some q →
    r.tick_generation ≤ q.tick_generation
  copied : ∀ k, ∀ r ∈ s.runners k, r.id ∈ s.used

lemma copiesInv_init : CopiesInv .init := by
  refine ⟨?_, ?_, ?_⟩
  · intro id q hq
    cases hq
  · intro k r hr
    cases hr
  · intro k r hr
    cases hr

/-- The generation of a hook only grows. -/
lemma generation_step (hstep : s.step a = some t) {q q' : ProjectHookRow}
    (hq : get h s.hooks = some q) (hq' : get h t.hooks = some q') :
    q.tick_generation ≤ q'.tick_generation := by
  have hchange := hook_step hstep hq
  rw [hq'] at hchange
  cases hchange with
  | same => exact le_refl _
  | set => exact le_refl _
  | ticked => exact Nat.le_succ _

lemma CopiesInv.step (hs : CopiesInv s) (hstep : s.step a = some t) : CopiesInv t := by
  have hused (id : Uuid) (q : ProjectHookRow) (hq : get id t.hooks = some q) : id ∈ t.used := by
    cases hold : get id s.hooks with
    | some q₀ => exact (clock_step hstep).2 id (hs.used id q₀ hold)
    | none => exact (used_of_new hstep hold hq).2
  refine ⟨hused, ?_, ?_⟩
  · intro k r hr q hq
    rcases copy_step hstep hr with hold | ⟨-, -, hhooks, hmem, -⟩
    · cases hq₀ : get r.id s.hooks with
      | some q₀ => exact (hs.generation k r hold q₀ hq₀).trans (generation_step hstep hq₀ hq)
      | none => exact absurd (hs.copied k r hold) (used_of_new hstep hq₀ hq).1
    · rw [hhooks, get, Table.lookup_of_mem hmem, Option.some.injEq] at hq
      rw [hq]
  · intro k r hr
    rcases copy_step hstep hr with hold | ⟨-, -, hhooks, hmem, -⟩
    · exact (clock_step hstep).2 _ (hs.copied k r hold)
    · exact hused r.id r (by rw [hhooks]; exact Table.lookup_of_mem hmem)

/-! ### After a claim -/

/-- The hook `h` has been claimed in the generation `g`. -/
structure Claimed (h : Uuid) (g : ℕ) (s : Ticker) : Prop where
  used : h ∈ s.used
  generation : ∀ q, get h s.hooks = some q → g < q.tick_generation

/-- A claim leaves a hook whose generation is past that of all copies. -/
lemma Claimed.of_fired (hs : CopiesInv s) (hfired : s.fired a = some h)
    (hstep : s.step a = some t) : ∃ g, Claimed h g t ∧
      (∀ q, get h t.hooks = some q → q.last_tick_at = some s.now) ∧
      ∀ k, ∀ r ∈ t.runners k, r.id = h → r.tick_generation ≤ g := by
  obtain ⟨k, e, r, due, q, rfl, hk, rfl, he, hq, hgen⟩ := fired_eq_some hfired
  have hticked : get r.id t.hooks = some (markTicked s.now q) := by
    simp only [Ticker.step, claimNext, hk] at hstep
    obtain rfl := Option.some.inj hstep
    show get r.id (e.apply s.hooks _) = _
    rcases e.apply_eq s.hooks (claimTick s.now r.id r.tick_generation s.hooks).2 with
      ⟨-, happly⟩ | ⟨hfailed, -⟩
    · have hat : atGeneration r.id r.tick_generation q = true :=
        decide_eq_true ⟨id_of_get hq, hgen⟩
      rw [happly, get_claimTick, hq, Option.map_some, if_pos hat]
    · rw [hfailed] at he
      cases he
  refine ⟨q.tick_generation, ⟨?_, ?_⟩, ?_, ?_⟩
  · exact (clock_step hstep).2 r.id (hs.used r.id q hq)
  · intro q' hq'
    rw [hticked, Option.some.injEq] at hq'
    subst hq'
    exact Nat.lt_succ_self _
  · intro q' hq'
    rw [hticked, Option.some.injEq] at hq'
    subst hq'
    rfl
  · intro k' r' hr' hid
    rcases copy_step hstep hr' with hold | ⟨ha, -⟩
    · exact hs.generation k' r' hold q (by rw [hid]; exact hq)
    · cases ha

lemma Claimed.step {g : ℕ} (hs : Claimed h g s) (hstep : s.step a = some t) : Claimed h g t := by
  refine ⟨(clock_step hstep).2 h hs.used, ?_⟩
  intro q' hq'
  cases hq : get h s.hooks with
  | some q => exact (hs.generation q hq).trans_le (generation_step hstep hq hq')
  | none => exact absurd hs.used (used_of_new hstep hq hq').1

/-- A hook that is there later was there all the time: its id is not given to another one. -/
lemma Claimed.get_of_exec {g : ℕ} {as : List TickAction} (hs : Claimed h g s)
    (ht : exec Ticker.step s as = some t) {q : ProjectHookRow} (hq : get h t.hooks = some q) :
    ∃ q₀, get h s.hooks = some q₀ := by
  by_contra hnone
  rw [not_exists] at hnone
  have hgone : h ∈ t.used ∧ get h t.hooks = none := by
    refine exec_preserves (I := fun s => h ∈ s.used ∧ get h s.hooks = none) ?_
      ⟨hs.used, Option.eq_none_iff_forall_ne_some.mpr hnone⟩ ht
    rintro s a t ⟨hused, hnone⟩ hstep
    refine ⟨(clock_step hstep).2 h hused, ?_⟩
    rw [Option.eq_none_iff_forall_ne_some]
    intro q hq
    exact (used_of_new hstep hnone hq).1 hused
  rw [hgone.2] at hq
  cases hq

/-! ### Stale copies -/

/-- The copies of the hook `h` that the runner `k` has are of the generation `g` at most. -/
def StaleCopies (h : Uuid) (g : ℕ) (k : RunnerId) (s : Ticker) : Prop :=
  Claimed h g s ∧ ∀ r ∈ s.runners k, r.id = h → r.tick_generation ≤ g

lemma StaleCopies.step {g : ℕ} {k : RunnerId} (hs : StaleCopies h g k s) (ha : a ≠ .list k)
    (hstep : s.step a = some t) : StaleCopies h g k t := by
  refine ⟨hs.1.step hstep, ?_⟩
  intro r hr hid
  rcases copy_step hstep hr with hold | ⟨hlist, -⟩
  · exact hs.2 r hold hid
  · exact absurd hlist ha

/-- A stale copy claims nothing. -/
lemma StaleCopies.not_fired {g : ℕ} {k : RunnerId} (hs : StaleCopies h g k s) (e : Execution) :
    s.fired (.claim k e) ≠ some h := by
  intro hfired
  obtain ⟨k', e', r, due, q, ha, hk, rfl, -, hq, hgen⟩ := fired_eq_some hfired
  cases ha
  have hle := hs.2 r (by rw [hk]; exact List.mem_cons_self) rfl
  rw [← hgen] at hle
  exact absurd (hs.1.generation q hq) (not_lt.mpr hle)

/-! ### Fresh copies -/

/-- An action that does not change the interval of the hook `h`. -/
def KeepsInterval (h : Uuid) (s : Ticker) : TickAction → Prop
  | .update id req => id = h → ∀ q, get h s.hooks = some q →
      (setHook s.now req q).tick_interval_minutes = q.tick_interval_minutes
  | _ => True

/-- Since `first` the hook `h` has been claimed, and a copy of a later generation was due with
regard to a claim at `first` or later. -/
structure FreshCopies (h : Uuid) (g : ℕ) (first : ℤ) (interval : Option ℤ) (s : Ticker) :
    Prop where
  claimed : Claimed h g s
  first_le : first ≤ s.now
  hook : ∀ q, get h s.hooks = some q → q.tick_interval_minutes = interval ∧
    ∃ last, q.last_tick_at = some last ∧ first ≤ last
  copies : ∀ k, ∀ r ∈ s.runners k, r.id = h → g < r.tick_generation →
    ∃ last, first ≤ last ∧ intervalOver s.now last interval = true

lemma intervalOver_mono {now now' last : ℤ} {interval : Option ℤ} (hnow : now ≤ now')
    (hover : intervalOver now last interval = true) : intervalOver now' last interval = true := by
  cases interval with
  | none => exact hover
  | some m =>
    simp only [intervalOver, Option.any_some, decide_eq_true_eq] at hover ⊢
    exact hover.trans hnow

lemma FreshCopies.step {g : ℕ} {first : ℤ} {interval : Option ℤ}
    (hs : FreshCopies h g first interval s) (ha : KeepsInterval h s a)
    (hstep : s.step a = some t) : FreshCopies h g first interval t := by
  have hnow := (clock_step hstep).1
  refine ⟨hs.claimed.step hstep, hs.first_le.trans hnow, ?_, ?_⟩
  · intro q' hq'
    cases hq : get h s.hooks with
    | none => exact absurd hs.claimed.used (used_of_new hstep hq hq').1
    | some q =>
      obtain ⟨hinterval, last, hlast, hfirst⟩ := hs.hook q hq
      have hchange := hook_step hstep hq
      rw [hq'] at hchange
      cases hchange with
      | same => exact ⟨hinterval, last, hlast, hfirst⟩
      | set req hreq =>
        subst hreq
        exact ⟨(ha (id_of_get hq) q hq).trans hinterval, last, hlast, hfirst⟩
      | ticked => exact ⟨hinterval, s.now, rfl, hs.first_le⟩
  · intro k r hr hid hgen
    rcases copy_step hstep hr with hold | ⟨-, -, -, hmem, hdue⟩
    · obtain ⟨last, hfirst, hover⟩ := hs.copies k r hold hid hgen
      exact ⟨last, hfirst, intervalOver_mono hnow hover⟩
    · have hget : get h s.hooks = some r := by
        rw [← hid]
        exact Table.lookup_of_mem hmem
      obtain ⟨hinterval, last, hlast, hfirst⟩ := hs.hook r hget
      simp only [isDue, hlast, Bool.and_eq_true, hinterval] at hdue
      exact ⟨last, hfirst, intervalOver_mono hnow hdue.2⟩

/-! ### At most once per period -/

lemma copiesInv_of_exec {as : List TickAction} (h : exec Ticker.step .init as = some s) :
    CopiesInv s :=
  exec_preserves (fun _ _ _ hs hstep => CopiesInv.step hs hstep) copiesInv_init h

/-- Whatever the runners do: when a hook is claimed again after a claim, its interval is over if it
has not been changed in between, and the runner has listed the hook since. -/
theorem ticks_once {as bs : List TickAction} {b : TickAction} {u : Ticker}
    (hs : exec Ticker.step .init as = some s) (hfired : s.fired a = some h)
    (hstep : s.step a = some t) (hu : exec Ticker.step t bs = some u)
    (hfired' : u.fired b = some h) :
    (Along Ticker.step (KeepsInterval h) t bs → ∀ q m, get h u.hooks = some q →
      q.tick_interval_minutes = some m → s.now + minutes m ≤ u.now) ∧
    ∀ k e, b = .claim k e → .list k ∈ bs := by
  obtain ⟨g, hclaimed, hlast, hcopies⟩ := Claimed.of_fired (copiesInv_of_exec hs) hfired hstep
  constructor
  · intro hkeeps q m hq hm
    obtain ⟨k, e, r, due, q', rfl, hk, hid, -, hq', hgen⟩ := fired_eq_some hfired'
    rw [hq, Option.some.injEq] at hq'
    subst hq'
    obtain ⟨q₀, hq₀⟩ := hclaimed.get_of_exec hu hq
    have hfresh : FreshCopies h g s.now q₀.tick_interval_minutes u := by
      refine exec_invariant (I := FreshCopies h g s.now q₀.tick_interval_minutes) ?_ ?_ hkeeps hu
      · intro s a t hs ha hstep
        exact hs.step ha hstep
      · refine ⟨hclaimed, (clock_step hstep).1, ?_, ?_⟩
        · intro q' hq'
          rw [hq₀, Option.some.injEq] at hq'
          subst hq'
          exact ⟨rfl, s.now, hlast _ hq₀, le_refl _⟩
        · intro k r hr hid hgen
          exact absurd (hcopies k r hr hid) (not_le.mpr hgen)
    obtain ⟨last, hfirst, hover⟩ := hfresh.copies k r (by rw [hk]; exact List.mem_cons_self) hid
      (by rw [← hgen]; exact hfresh.claimed.generation q hq)
    rw [← (hfresh.hook q hq).1, hm] at hover
    simp only [intervalOver, Option.any_some, decide_eq_true_eq] at hover
    exact (Int.add_le_add_right hfirst _).trans hover
  · rintro k e rfl
    by_contra hlist
    have hstale : StaleCopies h g k u := by
      have hnolist : Along Ticker.step (fun _ a => a ≠ .list k) t bs := by
        apply Along.of_mem
        rintro _ ha _ rfl
        exact hlist ha
      exact exec_invariant (I := StaleCopies h g k) (fun s a t hs ha hstep => hs.step ha hstep)
        ⟨hclaimed, hcopies k⟩ hnolist hu
    exact hstale.not_fired e hfired'

/-! ### Two runners -/

def hourly : CreateHook where
  project_id := 1
  name := "digest"
  event_type := .tick
  workflow_name := none
  agent_name := some "reporter"
  prompt_template := "Summarize what is new."
  route_override := none
  tick_interval_minutes := some 60

/-- Both runners list the new hook. Runner 0 claims it, and the copy of runner 1 is stale. -/
def firstPeriod : List TickAction :=
  [.create 7 hourly, .list 0, .list 1]

/-- An hour later runner 1 has listed the hook again. -/
def nextPeriod : List TickAction :=
  [.claim 1 .answered, .clock 3600000000, .list 1]

theorem ticks_once_hourly : ∃ s t u, exec Ticker.step .init firstPeriod = some s ∧
    s.fired (.claim 0 .answered) = some 7 ∧ s.step (.claim 0 .answered) = some t ∧
    t.fired (.claim 1 .answered) = none ∧ exec Ticker.step t nextPeriod = some u ∧
    u.fired (.claim 1 .answered) = some 7 ∧ s.now + minutes 60 ≤ u.now := by
  refine ⟨_, _, _, rfl, rfl, rfl, rfl, rfl, rfl, ?_⟩
  have honce := @ticks_once _ _ (.claim 0 .answered) 7 firstPeriod nextPeriod (.claim 1 .answered) _
    rfl rfl rfl rfl rfl
  refine honce.1 ?_ _ 60 rfl rfl
  exact Along.cons rfl trivial (Along.cons rfl trivial (Along.cons rfl trivial trivial))

end Arbeiterfarm.Hooks
