import Arbeiterfarm.Foundation.Table
import Mathlib.Data.List.Pairwise
import Mathlib.Order.Lattice

/-!
# Requests per minute

All servers count the requests of a key in one table, a row for each minute; a request is let
through while the count is not over the limit. Rows of past minutes are deleted in between.
-/

namespace Arbeiterfarm.Api

open Foundation

/-! ### The table -/

structure RateRow where
  key : String
  /-- The minute that the row counts for. -/
  window : ℤ
  count : ℕ
  deriving DecidableEq, Repr

/-- The columns of the primary key. -/
def RateRow.id (r : RateRow) : String × ℤ := (r.key, r.window)

abbrev RateTable := Table RateRow.id

/-- The largest number of the column. -/
def i32Max : ℕ := 2147483647

/-- `date_trunc('minute', now())`, where times are milliseconds. -/
def minuteOf (now : ℤ) : ℤ := now / 60000

def incremented (r : RateRow) : RateRow := { r with count := r.count + 1 }

lemma id_incremented (r : RateRow) : (incremented r).id = r.id := rfl

/-- `INSERT … ON CONFLICT (key, window) DO UPDATE SET count = count + 1 RETURNING count`; there is
no next number after the largest one. -/
def countRequest (key : String) (now : ℤ) (t : RateTable) : Option (ℕ × RateTable) :=
  match t.lookup (key, minuteOf now) with
  | some r =>
    if r.count + 1 ≤ i32Max then
      some (r.count + 1, t.upsert ⟨key, minuteOf now, 1⟩ incremented id_incremented)
    else none
  | none => some (1, t.upsert ⟨key, minuteOf now, 1⟩ incremented id_incremented)

/-- `check`: the seconds to wait, if the request is not let through. -/
def check (max_per_minute : ℕ) (key : String) (now server_now : ℤ) (t : RateTable) :
    RateTable × Except ℤ Unit :=
  match countRequest key now t with
  | none => (t, .error 1)
  | some (count, t) =>
    if count > max_per_minute then (t, .error (60 - server_now / 1000 % 60)) else (t, .ok ())

/-- `DELETE FROM api_rate_limits WHERE window < now() - interval '5 minutes'` -/
def cleanupStaleWindows (now : ℤ) (t : RateTable) : RateTable :=
  t.delete fun r => r.window * 60000 < now - 300000

/-! ### Servers -/

inductive RateEvent where
  /-- A request at one of the servers, by the time of the database and that of the server. -/
  | check (key : String) (now server_now : ℤ)
  /-- A request whose statement fails. -/
  | failed (key : String) (now : ℤ)
  /-- A request that is counted, whose answer from the database is lost. -/
  | lost (key : String) (now : ℤ)
  | cleanup (now : ℤ)
  deriving DecidableEq, Repr

def rateStep (max_per_minute : ℕ) (t : RateTable) : RateEvent → RateTable × Except ℤ Unit
  | .check key now server_now => check max_per_minute key now server_now t
  | .failed _ _ => (t, .error 1)
  | .lost key now => (((countRequest key now t).map Prod.snd).getD t, .error 1)
  | .cleanup now => (cleanupStaleWindows now t, .ok ())

def isAllowed : Except ℤ Unit → Bool
  | .ok _ => true
  | .error _ => false

/-- The times of the requests of the key that are let through. -/
def allowed (max_per_minute : ℕ) (key : String) : RateTable → List RateEvent → List ℤ
  | _, [] => []
  | t, e :: es =>
    let rest := allowed max_per_minute key (rateStep max_per_minute t e).1 es
    match e with
    | .check key' now _ =>
      if key' = key && isAllowed (rateStep max_per_minute t e).2 then now :: rest else rest
    | .failed _ _ | .lost _ _ | .cleanup _ => rest

/-- A request of the key whose statement is executed in the minute. -/
def countedIn (key : String) (window : ℤ) : RateEvent → Bool
  | .check key' now _ | .lost key' now => key' = key && minuteOf now = window
  | .failed _ _ | .cleanup _ => false

/-- The time of a request whose statement is executed. -/
def countedAt : RateEvent → Option ℤ
  | .check _ now _ | .lost _ now => some now
  | .failed _ _ | .cleanup _ => none

/-- The time of a request that the server has the count of. -/
def answeredAt : RateEvent → Option ℤ
  | .check _ now _ => some now
  | .failed _ _ | .lost _ _ | .cleanup _ => none

/-- No request comes with a time that is more than four minutes before that of a cleanup. -/
def Punctual (es : List RateEvent) : Prop :=
  es.Pairwise fun e e' => ∀ now, e = .cleanup now → ∀ t, countedAt e' = some t → now ≤ t + 240000

lemma countedAt_of_countedIn {key : String} {window : ℤ} {e : RateEvent}
    (h : countedIn key window e = true) :
    ∃ now, countedAt e = some now ∧ minuteOf now = window := by
  cases e with
  | check key' now server_now | lost key' now =>
    simp only [countedIn, Bool.and_eq_true, decide_eq_true_eq] at h
    exact ⟨now, rfl, h.2⟩
  | failed _ _ | cleanup _ => cases h

/-! ### What is counted -/

variable {max_per_minute : ℕ} {key : String} {window : ℤ} {t : RateTable}

/-- What the table says of a minute. -/
def countOf (t : RateTable) (key : String) (window : ℤ) : ℕ :=
  ((t.lookup (key, window)).map (·.count)).getD 0

lemma countRequest_eq {now : ℤ} : countRequest key now t =
    if countOf t key (minuteOf now) + 1 ≤ i32Max then
      some (countOf t key (minuteOf now) + 1,
        t.upsert ⟨key, minuteOf now, 1⟩ incremented id_incremented)
    else none := by
  rw [countRequest, countOf]
  cases t.lookup (key, minuteOf now) with
  | none => simp [i32Max]
  | some r => rfl

lemma countOf_upsert {now : ℤ} {key' : String} :
    countOf (t.upsert ⟨key, minuteOf now, 1⟩ incremented id_incremented) key' window =
      countOf t key' window + if key = key' ∧ minuteOf now = window then 1 else 0 := by
  rw [countOf, Table.lookup_upsert]
  by_cases hsame : key = key' ∧ minuteOf now = window
  · obtain ⟨rfl, rfl⟩ := hsame
    have hid : (RateRow.mk key (minuteOf now) 1).id = (key, minuteOf now) := rfl
    rw [if_pos hid, if_pos ⟨rfl, rfl⟩, countOf]
    cases t.lookup (key, minuteOf now) <;> rfl
  · rw [if_neg hsame, if_neg, countOf, Nat.add_zero]
    simpa [RateRow.id] using hsame

/-- A request is let through when it is counted and not over the limit. -/
lemma check_cases (max_per_minute : ℕ) (key : String) (now server_now : ℤ) (t : RateTable) :
    let counted := t.upsert ⟨key, minuteOf now, 1⟩ incremented id_incremented
    let count := countOf t key (minuteOf now) + 1
    (count ≤ i32Max ∧ count ≤ max_per_minute ∧
      check max_per_minute key now server_now t = (counted, .ok ())) ∨
    (count ≤ i32Max ∧ max_per_minute < count ∧
      ∃ wait, check max_per_minute key now server_now t = (counted, .error wait)) ∨
    (i32Max < count ∧ check max_per_minute key now server_now t = (t, .error 1)) := by
  simp only [check, countRequest_eq]
  by_cases hfits : countOf t key (minuteOf now) + 1 ≤ i32Max
  · by_cases hlimit : countOf t key (minuteOf now) + 1 > max_per_minute
    · simp only [if_pos hfits, if_pos hlimit]
      exact .inr (.inl ⟨hfits, hlimit, _, rfl⟩)
    · simp only [if_pos hfits, if_neg hlimit]
      exact .inl ⟨hfits, Nat.le_of_not_lt hlimit, trivial⟩
  · simp only [if_neg hfits]
    exact .inr (.inr ⟨Nat.lt_of_not_le hfits, trivial⟩)

/-- The table after a request, whatever is answered. -/
lemma fst_check (max_per_minute : ℕ) (key : String) (now server_now : ℤ) (t : RateTable) :
    (check max_per_minute key now server_now t).1 =
      ((countRequest key now t).map Prod.snd).getD t := by
  simp only [check]
  cases countRequest key now t with
  | none => rfl
  | some counted =>
    simp only [Option.map_some, Option.getD_some]
    split <;> rfl

/-- A request is counted for its own key and minute. -/
lemma countOf_check {key' : String} {now server_now : ℤ}
    (h : ¬ (key' = key ∧ minuteOf now = window)) :
    countOf (check max_per_minute key' now server_now t).1 key window = countOf t key window := by
  rcases check_cases max_per_minute key' now server_now t with
    ⟨-, -, hcheck⟩ | ⟨-, -, wait, hcheck⟩ | ⟨-, hcheck⟩
  · rw [hcheck, countOf_upsert, if_neg h, Nat.add_zero]
  · rw [hcheck, countOf_upsert, if_neg h, Nat.add_zero]
  · rw [hcheck]

/-- How many more requests of the minute are let through. -/
def left (max_per_minute : ℕ) (key : String) (window : ℤ) (t : RateTable) : ℕ :=
  min max_per_minute i32Max - countOf t key window

lemma left_check {server_now now : ℤ} :
    left max_per_minute key (minuteOf now) (check max_per_minute key now server_now t).1 =
      left max_per_minute key (minuteOf now) t - 1 := by
  simp only [left]
  rcases check_cases max_per_minute key now server_now t with
    ⟨-, -, hcheck⟩ | ⟨-, -, wait, hcheck⟩ | ⟨hfull, hcheck⟩
  · rw [hcheck, countOf_upsert, if_pos ⟨rfl, rfl⟩, Nat.sub_add_eq]
  · rw [hcheck, countOf_upsert, if_pos ⟨rfl, rfl⟩, Nat.sub_add_eq]
  · have hzero : min max_per_minute i32Max - countOf t key (minuteOf now) = 0 := by
      apply Nat.sub_eq_zero_of_le
      exact (Nat.min_le_right _ _).trans (Nat.le_of_lt_succ hfull)
    simp only [hcheck, hzero]

/-- A request is let through as long as one is left. -/
lemma isAllowed_check {server_now now : ℤ} :
    isAllowed (check max_per_minute key now server_now t).2 = true ↔
      0 < left max_per_minute key (minuteOf now) t := by
  rw [left, Nat.sub_pos_iff_lt, Nat.lt_min]
  rcases check_cases max_per_minute key now server_now t with
    ⟨hfits, hlimit, hcheck⟩ | ⟨-, hlimit, wait, hcheck⟩ | ⟨hfull, hcheck⟩
  · rw [hcheck]
    exact iff_of_true rfl ⟨hlimit, hfits⟩
  · rw [hcheck]
    exact iff_of_false Bool.false_ne_true fun h => Nat.not_lt.mpr h.1 hlimit
  · rw [hcheck]
    exact iff_of_false Bool.false_ne_true fun h => Nat.not_lt.mpr h.2 hfull

/-- A cleanup leaves a minute alone in which a request may still come. -/
lemma countOf_cleanup {now now' : ℤ} (h : now ≤ now' + 240000) :
    countOf (cleanupStaleWindows now t) key (minuteOf now') = countOf t key (minuteOf now') := by
  have hkept : ¬ minuteOf now' * 60000 < now - 300000 := by
    rw [minuteOf]
    omega
  rw [countOf, cleanupStaleWindows, Table.lookup_delete, countOf]
  cases hrow : t.lookup (key, minuteOf now') with
  | none => rfl
  | some r =>
    have hid : r.id = (key, minuteOf now') := Table.key_of_lookup hrow
    have hwindow : r.window = minuteOf now' := congrArg Prod.snd hid
    have hfilter : decide (r.window * 60000 < now - 300000) = false := by
      rw [hwindow, decide_eq_false_iff_not]
      exact hkept
    simp [Option.filter_some, hfilter]

/-! ### What is let through -/

lemma allowed_check {key' : String} {now server_now : ℤ} {es : List RateEvent} :
    allowed max_per_minute key t (.check key' now server_now :: es) =
      if key' = key && isAllowed (check max_per_minute key' now server_now t).2 then
        now :: allowed max_per_minute key (check max_per_minute key' now server_now t).1 es
      else allowed max_per_minute key (check max_per_minute key' now server_now t).1 es := rfl

/-- A request of another key or minute does not take anything from the minute. -/
lemma left_other {key' : String} {now server_now : ℤ}
    (h : ¬ countedIn key window (.check key' now server_now) = true) :
    left max_per_minute key window (check max_per_minute key' now server_now t).1 =
      left max_per_minute key window t := by
  rw [left, countOf_check, left]
  simpa [countedIn] using h

/-- A request of the minute is let through as long as one is left. -/
lemma filter_allowed_check {now server_now : ℤ} {es : List RateEvent} :
    ((allowed max_per_minute key t (.check key now server_now :: es)).filter
        fun now' => minuteOf now' = minuteOf now) =
      (if 0 < left max_per_minute key (minuteOf now) t then [now] else []) ++
        (allowed max_per_minute key (check max_per_minute key now server_now t).1 es).filter
          fun now' => minuteOf now' = minuteOf now := by
  rw [allowed_check]
  by_cases hleft : 0 < left max_per_minute key (minuteOf now) t
  · simp [hleft, isAllowed_check.mpr hleft]
  · simp [hleft, isAllowed_check.not.mpr hleft]

lemma filter_allowed_other {key' : String} {now server_now : ℤ} {es : List RateEvent}
    (h : ¬ countedIn key window (.check key' now server_now) = true) :
    ((allowed max_per_minute key t (.check key' now server_now :: es)).filter
        fun now' => minuteOf now' = window) =
      (allowed max_per_minute key (check max_per_minute key' now server_now t).1 es).filter
        fun now' => minuteOf now' = window := by
  rw [allowed_check]
  split
  · next hkey =>
    rw [List.filter_cons_of_neg]
    intro hwindow
    simp only [Bool.and_eq_true, decide_eq_true_eq] at hkey hwindow
    exact h (by simp [countedIn, hkey.1, hwindow])
  · rfl

lemma take_cons_eq_append {α : Type*} (x : α) (l : List α) (n : ℕ) :
    (x :: l).take n = (if 0 < n then [x] else []) ++ l.take (n - 1) := by
  cases n <;> simp

/-- Of the requests in a minute, the first ones are let through, up to the limit, unless their
answer is lost. -/
lemma allowed_eq {es : List RateEvent} (hpunctual : Punctual es) :
    ((allowed max_per_minute key t es).filter fun now => minuteOf now = window) =
      ((es.filter (countedIn key window)).take (left max_per_minute key window t)).filterMap
        answeredAt := by
  induction es generalizing t with
  | nil => simp [allowed]
  | cons e es ih =>
    rw [Punctual, List.pairwise_cons] at hpunctual
    obtain ⟨hfirst, hrest⟩ := hpunctual
    cases e with
    | check key' now server_now =>
      by_cases hcounted : countedIn key window (.check key' now server_now) = true
      · obtain ⟨rfl, rfl⟩ : key' = key ∧ minuteOf now = window := by
          simpa [countedIn] using hcounted
        rw [filter_allowed_check, ih hrest, left_check, List.filter_cons_of_pos hcounted,
          take_cons_eq_append, List.filterMap_append]
        split_ifs <;> rfl
      · rw [filter_allowed_other hcounted, ih hrest, left_other hcounted,
          List.filter_cons_of_neg hcounted]
    | failed key' now =>
      rw [List.filter_cons_of_neg (by simp [countedIn])]
      exact ih hrest
    | lost key' now =>
      simp only [allowed, rateStep]
      rw [← fst_check max_per_minute key' now 0 t, ih hrest]
      by_cases hcounted : countedIn key window (.lost key' now) = true
      · obtain ⟨rfl, rfl⟩ : key' = key ∧ minuteOf now = window := by
          simpa [countedIn] using hcounted
        rw [left_check, List.filter_cons_of_pos hcounted, take_cons_eq_append,
          List.filterMap_append]
        split_ifs <;> rfl
      · rw [left_other hcounted, List.filter_cons_of_neg hcounted]
    | cleanup now =>
      rw [List.filter_cons_of_neg (by simp [countedIn])]
      simp only [allowed, rateStep]
      rw [ih hrest]
      by_cases hlater : ∃ e' ∈ es, countedIn key window e' = true
      · obtain ⟨e', he', hcounted⟩ := hlater
        obtain ⟨now', hat, rfl⟩ := countedAt_of_countedIn hcounted
        rw [left, countOf_cleanup (hfirst _ he' now rfl now' hat), left]
      · have hnone : es.filter (countedIn key window) = [] := by
          rw [List.filter_eq_nil_iff]
          exact fun e' he' hcounted => hlater ⟨e', he', hcounted⟩
        simp [hnone]

lemma length_filter_le_add {α : Type*} {p q q' : α → Bool}
    (h : ∀ x, p x = true → q x = true ∨ q' x = true) {l : List α} :
    (l.filter p).length ≤ (l.filter q).length + (l.filter q').length := by
  simp only [← List.countP_eq_length_filter]
  induction l with
  | nil => rfl
  | cons x l ih =>
    simp only [List.countP_cons]
    by_cases hp : p x = true
    · rcases h x hp with hq | hq
      · simp only [hp, hq, if_true]
        omega
      · simp only [hp, hq, if_true]
        omega
    · simp only [hp, Bool.false_eq_true, if_false]
      omega

/-- The first requests that the table counts for a minute are let through up to the limit,
whichever server they come to, whatever is cleaned up in between, unless their answer is lost; and
so there are no more than twice as many in a minute that does not begin with one of the clock. -/
theorem requests_per_minute (window : ℤ) {es : List RateEvent} (hpunctual : Punctual es) :
    ((allowed max_per_minute key (Table.empty _) es).filter fun now => minuteOf now = window) =
      ((es.filter (countedIn key window)).take (min max_per_minute i32Max)).filterMap answeredAt ∧
    ∀ start, ((allowed max_per_minute key (Table.empty _) es).filter fun now =>
      start ≤ now ∧ now < start + 60000).length ≤ 2 * max_per_minute := by
  have hwindow (window : ℤ) :
      ((allowed max_per_minute key (Table.empty _) es).filter fun now => minuteOf now = window) =
        ((es.filter (countedIn key window)).take (min max_per_minute i32Max)).filterMap
          answeredAt := by
    rw [allowed_eq hpunctual]
    rfl
  refine ⟨hwindow window, ?_⟩
  intro start
  have hle (window : ℤ) : ((allowed max_per_minute key (Table.empty _) es).filter fun now =>
      minuteOf now = window).length ≤ max_per_minute := by
    rw [hwindow]
    calc _ ≤ ((es.filter (countedIn key window)).take (min max_per_minute i32Max)).length :=
          List.length_filterMap_le _ _
      _ ≤ min max_per_minute i32Max := List.length_take_le _ _
      _ ≤ max_per_minute := Nat.min_le_left _ _
  have htwo : ((allowed max_per_minute key (Table.empty _) es).filter fun now =>
      start ≤ now ∧ now < start + 60000).length ≤
        ((allowed max_per_minute key (Table.empty _) es).filter fun now =>
          minuteOf now = minuteOf start).length +
        ((allowed max_per_minute key (Table.empty _) es).filter fun now =>
          minuteOf now = minuteOf start + 1).length := by
    refine length_filter_le_add fun now hin => ?_
    simp only [decide_eq_true_eq] at hin ⊢
    simp only [minuteOf]
    omega
  have h₁ := hle (minuteOf start)
  have h₂ := hle (minuteOf start + 1)
  omega

def minuteEvents : List RateEvent :=
  [.lost "k" 1000, .check "k" 59000 59000, .cleanup 59500, .check "k" 59900 59900,
    .check "k" 60100 60100]

/-- Where the limit is two: of three requests in a minute the first one is not answered and the last
one is refused, and the next one comes a minute of the clock later. -/
theorem requests_per_minute_two :
    ((allowed 2 "k" (Table.empty _) minuteEvents).filter fun now => minuteOf now = 0) = [59000] ∧
    ∀ start, ((allowed 2 "k" (Table.empty _) minuteEvents).filter fun now =>
      start ≤ now ∧ now < start + 60000).length ≤ 2 * 2 := by
  have hpunctual : Punctual minuteEvents := by
    simp [Punctual, minuteEvents, countedAt]
  refine ⟨?_, (requests_per_minute 0 hpunctual).2⟩
  exact (requests_per_minute 0 hpunctual).1.trans (by decide)

end Arbeiterfarm.Api
