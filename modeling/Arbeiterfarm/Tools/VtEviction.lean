import Arbeiterfarm.Foundation.Exec
import Arbeiterfarm.Tools.VtGateway

/-!
# Eviction from the VirusTotal cache

An eviction takes rows away that are not looked at any more. Every run of the gateway with evictions
is also one without: the same answers, and the same calls to VirusTotal.
-/

namespace Arbeiterfarm.Tools.Vt

open Foundation

/-! ### Caches -/

variable {ttl now : ℤ} {cache cache' : VtCache}

/-- The second cache has the rows of the first one, and some that are too old. -/
structure VtCache.Evicted (ttl now : ℤ) (cache cache' : VtCache) : Prop where
  lookup : ∀ sha256 row, cache.lookup sha256 = some row → cache'.lookup sha256 = some row
  old : ∀ sha256 row, cache'.lookup sha256 = some row →
    cache.lookup sha256 = some row ∨ row.fetched_at ≤ now - ttl

namespace VtCache

lemma Evicted.refl (cache : VtCache) : Evicted ttl now cache cache :=
  ⟨fun _ _ h => h, fun _ _ h => .inl h⟩

lemma Evicted.later (h : Evicted ttl now cache cache') (passed : ℕ) :
    Evicted ttl (now + passed) cache cache' := by
  refine ⟨h.lookup, fun sha256 row hrow => (h.old sha256 row hrow).imp_right fun hold => ?_⟩
  omega

lemma Evicted.get_eq (h : Evicted ttl now cache cache') (sha256 : String) :
    cache.get ttl now sha256 = cache'.get ttl now sha256 := by
  rw [VtCache.get, VtCache.get]
  cases hrow' : cache'.lookup sha256 with
  | none =>
    cases hrow : cache.lookup sha256 with
    | none => rfl
    | some row =>
      rw [h.lookup sha256 row hrow] at hrow'
      cases hrow'
  | some row =>
    rcases h.old sha256 row hrow' with hrow | hold
    · rw [hrow]
    · cases hrow : cache.lookup sha256 with
      | none => simpa using hold
      | some row' =>
        obtain rfl := Option.some.inj ((h.lookup sha256 row' hrow).symm.trans hrow')
        rfl

lemma Evicted.evict (h : Evicted ttl now cache cache') :
    Evicted ttl now (cache.evictExpired ttl now) cache' := by
  have hlookup (sha256 : String) : (cache.evictExpired ttl now).lookup sha256 =
      (cache.lookup sha256).filter fun row => !decide (row.fetched_at ≤ now - ttl) :=
    Table.lookup_delete ..
  refine ⟨?_, ?_⟩
  · intro sha256 row hrow
    rw [hlookup, Option.filter_eq_some_iff] at hrow
    exact h.lookup sha256 row hrow.1
  · intro sha256 row hrow
    rw [hlookup, Option.filter_eq_some_iff]
    by_cases hold : row.fetched_at ≤ now - ttl
    · exact .inr hold
    · exact (h.old sha256 row hrow).imp_left fun hrow => ⟨hrow, by simp [hold]⟩

/-- What is stored does not depend on what was there. -/
lemma lookup_put {sha256 : String} {response : Json} {positives total : Option ℤ}
    (hput : cache.put now sha256 response positives total = some cache') (key : String) :
    cache'.lookup key =
      if key = sha256 then some ⟨sha256, response, positives, total, now⟩
      else cache.lookup key := by
  rw [VtCache.put] at hput
  split at hput <;> cases hput
  rw [Table.lookup_upsert]
  by_cases hkey : key = sha256
  · subst hkey
    rw [if_pos rfl, if_pos rfl]
    cases hrow : cache.lookup key with
    | none => rfl
    | some row =>
      have hsha256 : row.sha256 = key := Table.key_of_lookup hrow
      rw [Option.elim_some, hsha256]
  · rw [if_neg hkey, if_neg (Ne.symm hkey)]

lemma isSome_put {sha256 : String} {response : Json} {positives total : Option ℤ} :
    (cache.put now sha256 response positives total).isSome =
      (fitsI32 positives && fitsI32 total) := by
  rw [VtCache.put]
  split
  · next hfits => exact hfits.symm
  · next hnot => exact (Bool.eq_false_iff.mpr hnot).symm

/-- A report is stored in both caches or in none. -/
lemma Evicted.put (h : Evicted ttl now cache cache') (sha256 : String) (response : Json)
    (positives total : Option ℤ) :
    (cache.put now sha256 response positives total = none ∧
      cache'.put now sha256 response positives total = none) ∨
    ∃ cache₁ cache₁', cache.put now sha256 response positives total = some cache₁ ∧
      cache'.put now sha256 response positives total = some cache₁' ∧
      Evicted ttl now cache₁ cache₁' := by
  have hsome : (cache'.put now sha256 response positives total).isSome =
      (cache.put now sha256 response positives total).isSome := by
    rw [isSome_put, isSome_put]
  cases hput : cache.put now sha256 response positives total with
  | none =>
    rw [hput, Option.isSome_none, Option.isSome_eq_false_iff, Option.isNone_iff_eq_none] at hsome
    exact .inl ⟨rfl, hsome⟩
  | some cache₁ =>
    rw [hput, Option.isSome_some] at hsome
    obtain ⟨cache₁', hput'⟩ := Option.isSome_iff_exists.mp hsome
    refine .inr ⟨cache₁, cache₁', rfl, hput', ?_, ?_⟩
    · intro key row
      rw [lookup_put hput, lookup_put hput']
      split
      · exact id
      · exact h.lookup key row
    · intro key row
      rw [lookup_put hput, lookup_put hput']
      split
      · exact .inl
      · exact h.old key row

end VtCache

/-! ### Runs -/

namespace VtGateway

variable {cfg : VtConfig} {s s' s₁ : VtGateway} {t : ℕ} {task : Task}

/-- Without evictions, the gateway has another cache and nothing else is different. -/
structure Evicted (cfg : VtConfig) (s s' : VtGateway) : Prop where
  same : s' = { s with cache := s'.cache }
  cache : s.cache.Evicted cfg.cache_ttl s.now s'.cache

lemma Evicted.of_cache {cache : VtCache} (h : s.cache.Evicted cfg.cache_ttl s.now cache) :
    Evicted cfg s { s with cache } := ⟨rfl, h⟩

/-- Steps that do not look into the cache. -/
lemma stepTask_withCache {e : GatewayEvent} (he : ∀ t failed, e ≠ .lookup t failed)
    (he' : ∀ t stored, e ≠ .store t stored) (cache : VtCache) :
    stepTask cfg { s with cache } t task e =
      (s.stepTask cfg t task e).map fun s' => { s' with cache } := by
  cases e with
  | lookup t failed => exact absurd rfl (he t failed)
  | store t stored => exact absurd rfl (he' t stored)
  | clock _ | arrive _ | limiter _ _ | evict => rfl
  | check _ =>
    simp only [stepTask, check]
    split_ifs
    all_goals first | rfl | (split <;> first | rfl | (split_ifs <;> rfl))
  | track _ _ =>
    simp only [stepTask]
    split
    · simp only [track, Option.map_map]
      rfl
    · rfl
  | admittedUser _ =>
    simp only [stepTask]
    split
    · unfold acquired
      split <;> rfl
    · rfl
  | acquire _ =>
    simp only [stepTask]
    split
    · rw [Option.map_map]
      rfl
    · rfl
  | call _ =>
    simp only [stepTask]
    split
    · unfold acquired
      split <;> rfl
    · rfl
  | reply _ result =>
    simp only [stepTask]
    split
    · unfold receive
      cases result with
      | body body =>
        dsimp only
        split <;> rfl
      | _ => rfl
    · rfl

lemma now_acquired {granted : VtGateway} {phase : Option Phase} (hgranted : granted.now = s.now)
    (h : s.acquired t task granted phase = some s₁) : s₁.now = s.now := by
  unfold acquired at h
  split at h <;> cases h
  · exact hgranted
  · rfl
  · rfl

/-- Tasks do not move the clock. -/
lemma now_stepTask {e : GatewayEvent} (h : s.stepTask cfg t task e = some s₁) :
    s₁.now = s.now := by
  cases e with
  | clock _ | arrive _ | limiter _ _ | evict => cases h
  | check _ =>
    simp only [stepTask] at h
    split at h <;> cases h
    simp only [check]
    split_ifs
    all_goals first | rfl | (split <;> first | rfl | (split_ifs <;> rfl))
  | track _ _ =>
    simp only [stepTask] at h
    split at h
    · rw [track] at h
      obtain ⟨limiter, -, rfl⟩ := Option.map_eq_some_iff.mp h
      rfl
    · cases h
  | admittedUser _ | call _ =>
    simp only [stepTask] at h
    split at h
    · refine now_acquired ?_ h
      rfl
    · cases h
  | lookup _ failed =>
    simp only [stepTask] at h
    split at h <;> cases h
    unfold lookupCache
    split <;> rfl
  | acquire _ =>
    simp only [stepTask] at h
    split at h
    · obtain ⟨limiter, -, rfl⟩ := Option.map_eq_some_iff.mp h
      rfl
    · cases h
  | reply _ result =>
    simp only [stepTask] at h
    split at h <;> cases h
    unfold receive
    cases result with
    | body body =>
      dsimp only
      split <;> rfl
    | _ => rfl
  | store _ stored =>
    simp only [stepTask] at h
    split at h <;> cases h
    simp only [store]
    split <;> rfl

lemma Evicted.lookupCache (h : Evicted cfg s s') (failed : Bool) :
    Evicted cfg (s.lookupCache cfg t task failed) (s'.lookupCache cfg t task failed) := by
  have hget : (if failed then none else s'.cache.get cfg.cache_ttl s.now task.sha256) =
      if failed then none else s.cache.get cfg.cache_ttl s.now task.sha256 := by
    rw [h.cache.get_eq]
  rw [h.same, VtGateway.lookupCache, VtGateway.lookupCache, hget]
  split
  · exact .of_cache h.cache
  · exact .of_cache h.cache

lemma Evicted.store (h : Evicted cfg s s') (summary : Json) (stored : Bool) :
    Evicted cfg (s.store t task summary stored) (s'.store t task summary stored) := by
  rw [h.same, VtGateway.store, VtGateway.store]
  cases stored with
  | false => exact .of_cache h.cache
  | true =>
    simp only [if_true]
    rcases h.cache.put task.sha256 summary ((at' summary "positives").asI64)
      ((at' summary "total").asI64) with ⟨hput, hput'⟩ | ⟨cache, cache', hput, hput', hevicted⟩
    · rw [hput, hput']
      exact .of_cache h.cache
    · rw [hput, hput']
      exact .of_cache hevicted

/-- What a task does without the evictions. -/
lemma Evicted.stepTask (h : Evicted cfg s s') {e : GatewayEvent}
    (hstep : s.stepTask cfg t task e = some s₁) :
    ∃ s₁', s'.stepTask cfg t task e = some s₁' ∧ Evicted cfg s₁ s₁' := by
  by_cases hlookup : ∃ t failed, e = .lookup t failed
  · obtain ⟨_, failed, rfl⟩ := hlookup
    simp only [VtGateway.stepTask] at hstep ⊢
    split at hstep <;> cases hstep
    next hphase => exact ⟨_, if_pos hphase, h.lookupCache failed⟩
  · by_cases hstore : ∃ t stored, e = .store t stored
    · obtain ⟨_, stored, rfl⟩ := hstore
      simp only [VtGateway.stepTask] at hstep ⊢
      split at hstep <;> cases hstep
      exact ⟨_, rfl, h.store _ stored⟩
    · have hcommutes (cache : VtCache) : VtGateway.stepTask cfg { s with cache } t task e =
          (s.stepTask cfg t task e).map fun s' => { s' with cache } :=
        stepTask_withCache (fun t failed heq => hlookup ⟨t, failed, heq⟩)
          (fun t stored heq => hstore ⟨t, stored, heq⟩) cache
      have hcache : s₁.cache = s.cache := by
        have hsame := hcommutes s.cache
        rw [hstep, Option.map_some] at hsame
        rw [Option.some.inj hsame]
      refine ⟨{ s₁ with cache := s'.cache }, ?_, .of_cache ?_⟩
      · rw [h.same, hcommutes, hstep]
        rfl
      · rw [hcache, now_stepTask hstep]
        exact h.cache

lemma Evicted.step (h : Evicted cfg s s') {e : GatewayEvent} (he : e ≠ .evict)
    (hstep : s.step cfg e = some s₁) :
    ∃ s₁', s'.step cfg e = some s₁' ∧ Evicted cfg s₁ s₁' := by
  have htasks : s'.tasks = s.tasks := by rw [h.same]
  cases htask : e.task with
  | some t =>
    simp only [VtGateway.step, htask] at hstep ⊢
    obtain ⟨task, ht, hstep⟩ := Option.bind_eq_some_iff.mp hstep
    obtain ⟨s₁', hstep', hevicted⟩ := h.stepTask hstep
    rw [htasks, ht]
    exact ⟨s₁', hstep', hevicted⟩
  | none =>
    rw [h.same]
    cases e with
    | check _ | track _ _ | admittedUser _ | lookup _ _ | acquire _ | call _ | reply _ _
    | store _ _ => cases htask
    | evict => exact absurd rfl he
    | clock passed =>
      cases hstep
      exact ⟨_, rfl, .of_cache (h.cache.later passed)⟩
    | arrive req =>
      cases hstep
      exact ⟨_, rfl, .of_cache h.cache⟩
    | limiter user_id act =>
      cases act with
      | acquire _ => cases hstep
      | clock _ | poll _ _ _ =>
        simp only [VtGateway.step, GatewayEvent.task, Option.map_eq_some_iff] at hstep ⊢
        obtain ⟨limiter, hlimiter, rfl⟩ := hstep
        exact ⟨_, ⟨limiter, hlimiter, rfl⟩, .of_cache h.cache⟩

lemma Evicted.evict (h : Evicted cfg s s') :
    Evicted cfg { s with cache := s.cache.evictExpired cfg.cache_ttl s.now } s' :=
  ⟨h.same, h.cache.evict⟩

end VtGateway

def isEvict : GatewayEvent → Bool
  | .evict => true
  | _ => false

/-- Every run is one without its evictions: the tasks get the same answers at the same times, and
VirusTotal the same calls; only the cache has rows that are too old to be read. -/
theorem eviction_unnoticed {cfg : VtConfig} {s s' : VtGateway} {es : List GatewayEvent}
    (h : exec (VtGateway.step cfg) s es = some s') :
    ∃ cache, exec (VtGateway.step cfg) s (es.filter fun e => !isEvict e) =
        some { s' with cache } ∧
      s'.cache.Evicted cfg.cache_ttl s'.now cache := by
  have hpurge : ∃ t', exec (VtGateway.step cfg) s (es.filter fun e => !isEvict e) = some t' ∧
      VtGateway.Evicted cfg s' t' := by
    refine exec_purge ?_ ?_ ⟨rfl, .refl s.cache⟩ h
    · intro s t e s₁ hevicted he hstep
      cases e with
      | evict =>
        cases hstep
        exact hevicted.evict
      | _ => cases he
    · intro s t e s₁ hevicted he hstep
      refine hevicted.step ?_ hstep
      rintro rfl
      cases he
  obtain ⟨t', hrun, hevicted⟩ := hpurge
  refine ⟨t'.cache, ?_, hevicted.cache⟩
  rw [hrun]
  exact congrArg some hevicted.same

/-- An hour after the report of a hash has been stored. -/
def evictingEvents : List GatewayEvent :=
  [.arrive (fileReportRequest "aa" none), .check 0, .lookup 0 false, .acquire 0,
    .limiter none (.poll 0 0 0), .call 0, .reply 0 (.body .null), .store 0 true, .clock 3600,
    .evict, .arrive (fileReportRequest "aa" none), .check 1, .lookup 1 false]

def hourConfig : VtConfig := ⟨⟨false, fun _ => true, fun _ => none⟩, 4, 3600, 10⟩

theorem eviction_unnoticed_hour : ∃ s' cache,
    exec (VtGateway.step hourConfig) (.new hourConfig 0 0) evictingEvents = some s' ∧
    s'.cache.rows = [] ∧
    exec (VtGateway.step hourConfig) (.new hourConfig 0 0)
      (evictingEvents.filter fun e => !isEvict e) = some { s' with cache } := by
  obtain ⟨s', hs'⟩ : ∃ s', exec (VtGateway.step hourConfig) (.new hourConfig 0 0)
      evictingEvents = some s' := ⟨_, rfl⟩
  obtain ⟨cache, hrun, -⟩ := eviction_unnoticed hs'
  refine ⟨s', cache, hs', ?_, hrun⟩
  cases hs'
  rfl

end Arbeiterfarm.Tools.Vt
