import Arbeiterfarm.Core.Json
import Arbeiterfarm.Foundation.Exec
import Mathlib.Data.List.Basic
import Mathlib.Logic.Function.Basic

/-!
# Streams of a user

A user may have a number of streams open at the same time. A counter for each user is read and
incremented under a lock; when a stream is closed the counter is decremented without the lock,
also between the reading and the increment.
-/

namespace Arbeiterfarm.Api

open Foundation

/-! ### The tracker -/

/-- What the task that has the lock has done. -/
inductive AcquirePhase where
  | locked
  /-- The counter has been read. -/
  | loaded (current : ℕ)
  deriving DecidableEq, Repr

structure StreamTracker where
  counts : Uuid → Option ℕ
  /-- The task that has the lock, for the user that it acquires a slot for. -/
  lock : Option (Uuid × AcquirePhase)
  /-- The users of the guards that have not been dropped. -/
  guards : List Uuid

inductive StreamEvent where
  /-- `acquire` gets the lock. -/
  | lock (user_id : Uuid)
  | load
  /-- The end of `acquire`: an error, or the counter is incremented and a guard is returned. -/
  | finish
  /-- A guard is dropped. -/
  | drop (user_id : Uuid)
  deriving DecidableEq, Repr

/-- The counters are 32-bit numbers. -/
def u32Size : ℕ := 4294967296

def fetchAdd (n : ℕ) : ℕ := (n + 1) % u32Size

def fetchSub (n : ℕ) : ℕ := (n + u32Size - 1) % u32Size

def StreamTracker.new : StreamTracker := ⟨fun _ => none, none, []⟩

def streamStep (max_per_user : ℕ) (s : StreamTracker) : StreamEvent → Option StreamTracker
  | .lock user_id =>
    match s.lock with
    | none => some { s with lock := some (user_id, .locked) }
    | some _ => none
  | .load =>
    match s.lock with
    | some (user_id, .locked) =>
      let current := (s.counts user_id).getD 0
      some { s with
        counts := Function.update s.counts user_id (some current)
        lock := some (user_id, .loaded current) }
    | _ => none
  | .finish =>
    match s.lock with
    | some (user_id, .loaded current) =>
      if current ≥ max_per_user then some { s with lock := none }
      else
        some
          { counts := Function.update s.counts user_id ((s.counts user_id).map fetchAdd)
            lock := none
            guards := user_id :: s.guards }
    | _ => none
  | .drop user_id =>
    if user_id ∈ s.guards then
      some { s with
        counts := Function.update s.counts user_id ((s.counts user_id).map fetchSub)
        guards := s.guards.erase user_id }
    else none

/-! ### What is counted -/

/-- The number of open streams of the user. -/
def StreamTracker.live (s : StreamTracker) (user_id : Uuid) : ℕ := s.guards.count user_id

/-- The counters are those of the guards, there are not too many, and what has been read of a
counter is not less than what it is. -/
structure SlotsInv (max_per_user : ℕ) (s : StreamTracker) : Prop where
  counts : ∀ u, (s.counts u).getD 0 = s.live u
  le : ∀ u, s.live u ≤ max_per_user
  loaded : ∀ u current, s.lock = some (u, .loaded current) →
    (s.counts u).isSome = true ∧ s.live u ≤ current ∧ current ≤ max_per_user

variable {max_per_user : ℕ} {s s' : StreamTracker}

lemma slotsInv_new : SlotsInv max_per_user .new where
  counts _ := rfl
  le _ := Nat.zero_le _
  loaded _ _ h := nomatch h

lemma fetchAdd_of_lt {n : ℕ} (h : n + 1 < u32Size) : fetchAdd n = n + 1 := Nat.mod_eq_of_lt h

lemma fetchSub_succ {n : ℕ} (h : n < u32Size) : fetchSub (n + 1) = n := by
  rw [fetchSub]
  simp only [u32Size] at h ⊢
  omega

lemma SlotsInv.step (h : SlotsInv max_per_user s) (hmax : max_per_user < u32Size)
    {e : StreamEvent} (hstep : streamStep max_per_user s e = some s') :
    SlotsInv max_per_user s' := by
  cases e with
  | lock user_id =>
    simp only [streamStep] at hstep
    split at hstep <;> cases hstep
    exact ⟨h.counts, h.le, fun u current hlock => nomatch hlock⟩
  | load =>
    simp only [streamStep] at hstep
    split at hstep <;> cases hstep
    next user_id hlock =>
    have hcounts (u : Uuid) :
        (Function.update s.counts user_id (some ((s.counts user_id).getD 0)) u).getD 0 =
          s.live u := by
      rw [Function.update_apply]
      split
      · next hu => rw [hu, Option.getD_some, h.counts]
      · exact h.counts u
    refine ⟨hcounts, h.le, ?_⟩
    rintro u current ⟨⟩
    refine ⟨by simp, ?_, ?_⟩
    · rw [h.counts]
      exact Nat.le_refl _
    · rw [h.counts]
      exact h.le user_id
  | finish =>
    simp only [streamStep] at hstep
    split at hstep
    · next user_id current hlock =>
      obtain ⟨hsome, hle, -⟩ := h.loaded user_id current hlock
      split at hstep <;> cases hstep
      · exact ⟨h.counts, h.le, fun u current hlock => nomatch hlock⟩
      · next hfree =>
        have hlive (u : Uuid) : (user_id :: s.guards).count u =
            s.live u + if u = user_id then 1 else 0 := by
          rw [List.count_cons, StreamTracker.live]
          by_cases hu : u = user_id
          · simp [hu]
          · simp [hu, Ne.symm hu]
        refine ⟨?_, ?_, fun u current hlock => nomatch hlock⟩
        · intro u
          simp only [StreamTracker.live] at hlive ⊢
          rw [hlive, Function.update_apply]
          by_cases hu : u = user_id
          · obtain ⟨n, hn⟩ := Option.isSome_iff_exists.mp hsome
            have hcount := h.counts user_id
            rw [hn, Option.getD_some, StreamTracker.live] at hcount
            rw [if_pos hu, if_pos hu, hn, Option.map_some, Option.getD_some, hu, ← hcount,
              fetchAdd_of_lt]
            rw [StreamTracker.live] at hle
            omega
          · rw [if_neg hu, if_neg hu, Nat.add_zero]
            exact h.counts u
        · intro u
          rw [StreamTracker.live, hlive]
          by_cases hu : u = user_id
          · rw [if_pos hu, hu]
            omega
          · rw [if_neg hu, Nat.add_zero]
            exact h.le u
    · cases hstep
  | drop user_id =>
    simp only [streamStep] at hstep
    split at hstep <;> cases hstep
    next hmem =>
    have hpos : 0 < s.guards.count user_id := List.count_pos_iff.mpr hmem
    have hlive (u : Uuid) : (s.guards.erase user_id).count u =
        s.live u - if u = user_id then 1 else 0 := by
      rw [List.count_erase, StreamTracker.live]
      by_cases hu : u = user_id
      · simp [hu]
      · simp [hu, Ne.symm hu]
    refine ⟨?_, ?_, ?_⟩
    · intro u
      simp only [StreamTracker.live] at hlive ⊢
      rw [hlive, Function.update_apply]
      by_cases hu : u = user_id
      · have hcount := h.counts user_id
        have hle := h.le user_id
        rw [StreamTracker.live] at hcount hle
        rw [if_pos hu, if_pos hu, hu]
        obtain ⟨k, hk⟩ := Nat.exists_eq_succ_of_ne_zero (Nat.pos_iff_ne_zero.mp hpos)
        cases hn : s.counts user_id with
        | none =>
          rw [hn, Option.getD_none] at hcount
          omega
        | some n =>
          rw [hn, Option.getD_some] at hcount
          rw [Option.map_some, Option.getD_some, hcount, hk, Nat.succ_eq_add_one, fetchSub_succ,
            Nat.add_sub_cancel]
          omega
      · rw [if_neg hu, if_neg hu, Nat.sub_zero]
        exact h.counts u
    · intro u
      rw [StreamTracker.live, hlive]
      exact Nat.le_trans (Nat.sub_le _ _) (h.le u)
    · intro u current hlock
      obtain ⟨hsome, hle, hmaxle⟩ := h.loaded u current hlock
      refine ⟨?_, ?_, hmaxle⟩
      · simp only [Function.update_apply]
        split
        · next hu =>
          rw [Option.isSome_map, ← hu]
          exact hsome
        · exact hsome
      · rw [StreamTracker.live, hlive]
        exact Nat.le_trans (Nat.sub_le _ _) hle

/-- Slots are neither lost nor given twice: whatever the order in which streams are opened and
closed, the counter of a user is the number of its open streams, there are never more of them than
allowed, and a request that is refused has read as many as are allowed. -/
theorem slots_counted (hmax : max_per_user < u32Size) (es : List StreamEvent) :
    Always (streamStep max_per_user) (fun s =>
      (∀ u, (s.counts u).getD 0 = s.live u ∧ s.live u ≤ max_per_user) ∧
      ∀ u current, s.lock = some (u, .loaded current) → max_per_user ≤ current →
        current = max_per_user) .new es := by
  have hinv : ∀ s e s', SlotsInv max_per_user s → True →
      streamStep max_per_user s e = some s' → SlotsInv max_per_user s' :=
    fun s e s' hs _ hstep => hs.step hmax hstep
  refine (always_of_along hinv slotsInv_new (.of_forall (fun _ _ => trivial) _ es)).mono ?_
  intro s hs
  refine ⟨fun u => ⟨hs.counts u, hs.le u⟩, ?_⟩
  intro u current hlock hfull
  exact Nat.le_antisymm (hs.loaded u current hlock).2.2 hfull

/-- The stream of the first request is closed while the second one has read the counter. -/
theorem slots_counted_closed :
    Always (streamStep 1) (fun s =>
      (∀ u, (s.counts u).getD 0 = s.live u ∧ s.live u ≤ 1) ∧
      ∀ u current, s.lock = some (u, .loaded current) → 1 ≤ current → current = 1) .new
      [.lock 7, .load, .finish, .lock 7, .load, .drop 7, .finish] :=
  slots_counted (by decide) _

end Arbeiterfarm.Api
