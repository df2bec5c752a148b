import Arbeiterfarm.Tools.FileGrep

/-!
# What a search reports

The plain meaning of a search is a list of matching lines, each with the lines at most
`context_lines` away from it. The report is that list exactly if the file is not too large and
either nothing matches, or the lines behind the last reported match are not cut off.
-/

namespace Arbeiterfarm.Tools

open Foundation Foundation.Ranges

variable (is_match : String → Bool) (context_lines max_matches : UInt64)

/-! ### The plain meaning -/

/-- The matching lines with their numbers, counted from `start`. -/
def hitsFrom (start : ℕ) (lines : List String) : List (String × ℕ) :=
  (lines.zipIdx start).filter fun p => is_match p.1

/-- The lines at most `width` away from the line `i`. -/
def linesAround (lines : List String) (width i : ℕ) : List ContextLine :=
  (lines.zipIdx.filter fun p => i ≤ p.2 + width ∧ p.2 ≤ i + width).map fun p =>
    ⟨p.2 + 1, p.1, p.2 = i⟩

def reference (lines : List String) : List GrepMatch :=
  ((hitsFrom is_match 0 lines).take max_matches.toNat).map fun p =>
    ⟨p.2 + 1, p.1, linesAround lines context_lines.toNat p.2⟩

/-- The limit on the lines is reached before the last match to be reported. -/
def TooLarge (lines : List String) : Prop :=
  maxScanLines ≤ lines.length ∧
    ((lines.take maxScanLines).filter is_match).length < max max_matches.toNat 1

instance (lines : List String) : Decidable (TooLarge is_match max_matches lines) :=
  inferInstanceAs (Decidable (_ ∧ _))

/-! ### The first pass -/

/-- How many lines have been counted when `need` matches are found. -/
def stopAt (start : ℕ) (lines : List String) (need : ℕ) : ℕ :=
  match (hitsFrom is_match start lines)[need - 1]? with
  | some p => p.2 + 1
  | none => start + lines.length

variable {is_match max_matches}

lemma hitsFrom_cons_of_match (start : ℕ) {line : String} (lines : List String)
    (h : is_match line) :
    hitsFrom is_match start (line :: lines) =
      (line, start) :: hitsFrom is_match (start + 1) lines := by
  simp [hitsFrom, h]

lemma hitsFrom_cons_of_not_match (start : ℕ) {line : String} (lines : List String)
    (h : ¬ is_match line) :
    hitsFrom is_match start (line :: lines) = hitsFrom is_match (start + 1) lines := by
  simp [hitsFrom, h]

/-- The first pass with `need` matches to be found. -/
lemma scanLines_eq (lines : List String) {total : ℕ} {found : List (String × ℕ)} {need : ℕ}
    (htotal : total < maxScanLines) (hpos : 0 < need)
    (hneed : found.length + need = max max_matches.toNat 1) :
    scanLines is_match max_matches lines total found =
      if maxScanLines ≤ total + lines.length ∧
          ((lines.take (maxScanLines - total)).filter is_match).length < need then
        .error fileTooLarge
      else .ok (found ++ (hitsFrom is_match total lines).take need,
        stopAt is_match total lines need) := by
  induction lines generalizing total found need with
  | nil =>
    rw [scanLines, if_neg (by simp; omega)]
    simp [hitsFrom, stopAt]
  | cons line lines ih =>
    obtain ⟨rest, hrest⟩ : ∃ rest, maxScanLines - total = rest + 1 :=
      ⟨maxScanLines - total - 1, by omega⟩
    have hrest' : maxScanLines - (total + 1) = rest := by omega
    have hlength : total + (line :: lines).length = total + 1 + lines.length := by
      rw [List.length_cons]
      omega
    -- the lines after this one, if the pass goes on
    have hnext : ∀ {found' : List (String × ℕ)} {need' : ℕ}, 0 < need' →
        found'.length + need' = max max_matches.toNat 1 →
          (if total + 1 ≥ maxScanLines then .error fileTooLarge
            else scanLines is_match max_matches lines (total + 1) found') =
          if maxScanLines ≤ total + 1 + lines.length ∧
              ((lines.take rest).filter is_match).length < need' then .error fileTooLarge
          else .ok (found' ++ (hitsFrom is_match (total + 1) lines).take need',
            stopAt is_match (total + 1) lines need') := by
      intro found' need' hpos' hneed'
      by_cases hlimit : total + 1 ≥ maxScanLines
      · have hzero : rest = 0 := by omega
        rw [if_pos hlimit, if_pos ⟨by omega, by simpa [hzero] using hpos'⟩]
      · rw [if_neg hlimit, ih (Nat.lt_of_not_le hlimit) hpos' hneed', hrest']
    rw [scanLines, hrest, List.take_succ_cons, hlength]
    by_cases hmatch : is_match line
    · rw [if_pos hmatch, List.filter_cons_of_pos hmatch, List.length_cons, stopAt,
        hitsFrom_cons_of_match total lines hmatch]
      obtain ⟨m, rfl⟩ : ∃ m, need = m + 1 := ⟨need - 1, by omega⟩
      by_cases hlast : m = 0
      · subst hlast
        have hdone : (found ++ [(line, total)]).length ≥ max_matches.toNat := by
          rw [List.length_append, List.length_singleton]
          omega
        simp only [if_pos hdone]
        rw [if_neg (by omega)]
        rfl
      · have hmore : ¬ (found ++ [(line, total)]).length ≥ max_matches.toNat := by
          rw [List.length_append, List.length_singleton]
          omega
        simp only [if_neg hmore]
        rw [hnext (Nat.pos_of_ne_zero hlast)
          (by rw [List.length_append, List.length_singleton]; omega)]
        obtain ⟨k, rfl⟩ : ∃ k, m = k + 1 := ⟨m - 1, by omega⟩
        simp [stopAt, Nat.add_assoc, Nat.add_comm 1]
    · rw [if_neg hmatch, List.filter_cons_of_neg hmatch, stopAt,
        hitsFrom_cons_of_not_match total lines hmatch, hnext hpos hneed, stopAt]
      rw [hlength]

lemma scanLines_start (lines : List String) : scanLines is_match max_matches lines 0 [] =
    if TooLarge is_match max_matches lines then .error fileTooLarge
    else .ok ((hitsFrom is_match 0 lines).take (max max_matches.toNat 1),
      stopAt is_match 0 lines (max max_matches.toNat 1)) := by
  have hpos : 0 < max max_matches.toNat 1 := Nat.lt_of_lt_of_le Nat.one_pos (Nat.le_max_right _ _)
  rw [scanLines_eq lines (by decide) hpos (Nat.zero_add _), Nat.zero_add, Nat.sub_zero]
  rfl

lemma mem_hitsFrom {lines : List String} {p : String × ℕ} (h : p ∈ hitsFrom is_match 0 lines) :
    lines[p.2]? = some p.1 := by
  have hmem := (List.mem_filter.mp h).1
  rwa [List.mem_zipIdx_iff_getElem?] at hmem

variable (is_match) in
lemma pairwise_hitsFrom (lines : List String) :
    (hitsFrom is_match 0 lines).Pairwise fun p q => p.2 < q.2 := by
  refine List.Pairwise.filter _ (List.pairwise_map.mp ?_)
  rw [List.zipIdx_map_snd]
  exact List.pairwise_lt_range'

/-! ### Contexts -/

/-- The elements with positions from `s` up to `e`, in two forms. -/
lemma map_filter_zipIdx {α β : Type*} (l : List α) (f : α × ℕ → β) (g : ℕ → β) (k s e : ℕ)
    (h : ∀ j a, l[j]? = some a → s ≤ k + j → k + j < e → g (k + j) = f (a, k + j)) :
    ((l.zipIdx k).filter fun p => s ≤ p.2 ∧ p.2 < e).map f =
      (List.range' (max s k) (min e (k + l.length) - max s k)).map g := by
  induction l generalizing k with
  | nil =>
    rw [List.length_nil, show min e (k + 0) - max s k = 0 by omega]
    rfl
  | cons a l ih =>
    have hrest := ih (k + 1) fun j b hb hs he => by
      rw [Nat.add_assoc, Nat.add_comm 1] at hs he ⊢
      exact h (j + 1) b (by simpa using hb) hs he
    rw [Nat.add_assoc, Nat.add_comm 1] at hrest
    rw [List.zipIdx_cons, List.length_cons]
    by_cases hk : s ≤ k ∧ k < e
    · have hlength : min e (k + (l.length + 1)) - k = min e (k + (l.length + 1)) - (k + 1) + 1 := by
        omega
      rw [List.filter_cons_of_pos (by simpa using hk), List.map_cons, hrest, Nat.max_eq_right hk.1,
        Nat.max_eq_right (by omega), hlength, List.range'_succ, List.map_cons,
        show g k = f (a, k) from h 0 a rfl hk.1 hk.2]
    · rw [List.filter_cons_of_neg (by simpa using hk), hrest]
      by_cases hs : s ≤ k
      · have hzero : min e (k + (l.length + 1)) - max s k = 0 := by omega
        have hzero' : min e (k + (l.length + 1)) - max s (k + 1) = 0 := by omega
        rw [hzero, hzero', List.range'_zero, List.range'_zero]
      · rw [Nat.max_eq_left (by omega), Nat.max_eq_left (by omega)]

/-- The end of the lines around the line `i`. -/
def aroundEnd (lines : List String) (i : ℕ) : ℕ :=
  min (i + context_lines.toNat + 1) lines.length

variable {context_lines}

lemma linesAround_eq (lines : List String) (i : ℕ) (g : ℕ → ContextLine)
    (h : ∀ j a, lines[j]? = some a → i - context_lines.toNat ≤ j →
      j < aroundEnd context_lines lines i → g j = ⟨j + 1, a, j = i⟩) :
    linesAround lines context_lines.toNat i =
      (List.range' (i - context_lines.toNat)
        (aroundEnd context_lines lines i - (i - context_lines.toNat))).map g := by
  have hfilter : (fun p : String × ℕ => decide (i ≤ p.2 + context_lines.toNat ∧
      p.2 ≤ i + context_lines.toNat)) = fun p => decide (i - context_lines.toNat ≤ p.2 ∧
        p.2 < i + context_lines.toNat + 1) := by
    funext p
    exact decide_eq_decide.mpr (by omega)
  rw [linesAround, hfilter, map_filter_zipIdx lines _ g 0, Nat.zero_add, Nat.max_eq_left (by omega)]
  · rfl
  · intro j a ha hs he
    rw [Nat.zero_add] at hs he ⊢
    have hj := (List.getElem?_eq_some_iff.mp ha).1
    exact h j a ha hs (by rw [aroundEnd]; omega)

variable (context_lines) in
lemma sub_lt_aroundEnd {lines : List String} {i : ℕ} (hi : i < lines.length) :
    i - context_lines.toNat < aroundEnd context_lines lines i := by
  rw [aroundEnd]
  omega

/-- A context that is the lines around its match ends where they end. -/
lemma contextRange_snd_of_matchContext_eq {lines : List String} {line_cache : List (ℕ × String)}
    {total i : ℕ} (hi : i < lines.length)
    (h : matchContext context_lines line_cache total i =
      linesAround lines context_lines.toNat i) :
    (contextRange context_lines total i).2 = aroundEnd context_lines lines i := by
  have hpos := sub_lt_aroundEnd context_lines hi
  have hstart : (contextRange context_lines total i).1 = i - context_lines.toNat := rfl
  have hlength := congrArg List.length h
  rw [linesAround_eq lines i (fun j => ⟨j + 1, lines[j]?.getD "", j = i⟩)
    (fun j a ha _ _ => by simp [ha])] at hlength
  simp only [matchContext, List.length_map, List.length_range', hstart] at hlength
  omega

lemma matchContext_eq {lines : List String} {line_cache : List (ℕ × String)} {total i : ℕ}
    (h : (contextRange context_lines total i).2 = aroundEnd context_lines lines i)
    (hcache : ∀ j, (contextRange context_lines total i).Contains j →
      line_cache.lookup j = lines[j]?) :
    matchContext context_lines line_cache total i = linesAround lines context_lines.toNat i := by
  have hstart : (contextRange context_lines total i).1 = i - context_lines.toNat := rfl
  rw [linesAround_eq lines i
    (fun j => ⟨j + 1, (line_cache.lookup j).getD "<unavailable>", j = i⟩), matchContext, h, hstart]
  intro j a ha hs he
  rw [hcache j ⟨hs, by rw [h]; exact he⟩, ha]
  rfl

/-- The cache has the lines of all contexts that are not empty. -/
lemma lookup_lineCache (lines : List String) {total : ℕ} {found : List (String × ℕ)}
    (hne : ∀ p ∈ found, (contextRange context_lines total p.2).1 <
      (contextRange context_lines total p.2).2) {p : String × ℕ} (hp : p ∈ found) {j : ℕ}
    (hj : (contextRange context_lines total p.2).Contains j) :
    (lineCache context_lines lines total found).lookup j = lines[j]? := by
  have hsorted : ((found.map fun p => contextRange context_lines total p.2).insertionSort
      RangeLe).Pairwise StartLe := by
    have : Std.Total RangeLe := ⟨fun x y => by simp only [RangeLe]; omega⟩
    have : IsTrans Range RangeLe := ⟨fun x y z => by simp only [RangeLe]; omega⟩
    refine (List.pairwise_insertionSort RangeLe _).imp fun h => ?_
    simp only [RangeLe, StartLe] at h ⊢
    omega
  have hcovers : Covers (mergeRanges ((found.map fun p =>
      contextRange context_lines total p.2).insertionSort RangeLe)) j := by
    rw [covers_mergeRanges hsorted]
    exact ⟨_, (List.mem_insertionSort _).mpr (List.mem_map_of_mem hp), hj⟩
  have hsep := separated_mergeRanges hsorted fun r hr => by
    obtain ⟨q, hq, rfl⟩ := List.mem_map.mp ((List.mem_insertionSort _).mp hr)
    exact hne q hq
  exact lookup_pick hsep (fun r _ => Nat.zero_le _) lines (Nat.zero_le j) hcovers

/-! ### The report -/

/-- The report is the list of the matches exactly if every context ends where it should. -/
lemma map_matchContext_eq_iff {lines : List String} {total : ℕ} {found : List (String × ℕ)}
    (hfound : ∀ p ∈ found, p.2 < lines.length) :
    (found.map fun p => (⟨p.2 + 1, p.1, matchContext context_lines
        (lineCache context_lines lines total found) total p.2⟩ : GrepMatch)) =
      (found.map fun p => ⟨p.2 + 1, p.1, linesAround lines context_lines.toNat p.2⟩) ↔
    ∀ p ∈ found,
      (contextRange context_lines total p.2).2 = aroundEnd context_lines lines p.2 := by
  rw [List.map_inj_left]
  constructor
  · intro h p hp
    exact contextRange_snd_of_matchContext_eq (hfound p hp) (GrepMatch.mk.inj (h p hp)).2.2
  · intro h p hp
    have hne : ∀ q ∈ found, (contextRange context_lines total q.2).1 <
        (contextRange context_lines total q.2).2 := fun q hq => by
      rw [h q hq]
      exact sub_lt_aroundEnd context_lines (hfound q hq)
    rw [matchContext_eq (h p hp) fun j hj => lookup_lineCache lines hne hp hj]

variable (context_lines) in
/-- A context ends where it should if its end is a machine integer that was counted. -/
lemma contextRange_snd_iff {lines : List String} {total i : ℕ} (hi : i < total)
    (htotal : total ≤ lines.length) :
    (contextRange context_lines total i).2 = aroundEnd context_lines lines i ↔
      i + context_lines.toNat + 1 < 2 ^ 64 ∧
        (i + context_lines.toNat + 1 ≤ total ∨ total = lines.length) := by
  rw [contextRange, aroundEnd]
  by_cases hlt : i + context_lines.toNat + 1 < 2 ^ 64
  · rw [Nat.mod_eq_of_lt hlt]
    omega
  · have hwrapped : (i + context_lines.toNat + 1) % 2 ^ 64 ≤ i := by
      have := context_lines.toNat_lt
      rw [Nat.mod_eq_sub_mod (Nat.le_of_not_lt hlt)]
      exact Nat.le_trans (Nat.mod_le _ _) (by omega)
    omega

variable (is_match) in
/-- The lines counted with the last match to be reported. -/
lemma stopAt_eq (lines : List String) {n : ℕ} (hn : 0 < n) :
    (hitsFrom is_match 0 lines).length < n ∧ stopAt is_match 0 lines n = lines.length ∨
      ∃ p, (hitsFrom is_match 0 lines)[n - 1]? = some p ∧ stopAt is_match 0 lines n = p.2 + 1 ∧
        p ∈ (hitsFrom is_match 0 lines).take n ∧
        ∀ q ∈ (hitsFrom is_match 0 lines).take n, q.2 ≤ p.2 := by
  rw [stopAt]
  cases hlast : (hitsFrom is_match 0 lines)[n - 1]? with
  | none =>
    have hfew := List.getElem?_eq_none_iff.mp hlast
    exact .inl ⟨by omega, Nat.zero_add _⟩
  | some p =>
    obtain ⟨hlt, hp⟩ := List.getElem?_eq_some_iff.mp hlast
    have hsorted := List.pairwise_iff_getElem.mp (pairwise_hitsFrom is_match lines)
    refine .inr ⟨p, rfl, rfl, List.mem_take_iff_getElem.mpr ⟨n - 1, by omega, hp⟩, fun q hq => ?_⟩
    obtain ⟨k, hk, rfl⟩ := List.mem_take_iff_getElem.mp hq
    rcases Nat.eq_or_lt_of_le (show k ≤ n - 1 by omega) with rfl | hkn
    · rw [hp]
    · exact hp ▸ (hsorted k (n - 1) (by omega) hlt hkn).le

/-- The contexts of the first matches end where they should exactly if none of the ends exceeds the
machine integers, and the lines behind the last of the matches were counted. -/
lemma forall_contextRange_snd_iff (lines : List String) {n : ℕ} (hn : 0 < n) :
    (∀ p ∈ (hitsFrom is_match 0 lines).take n,
      (contextRange context_lines (stopAt is_match 0 lines n) p.2).2 =
        aroundEnd context_lines lines p.2) ↔
    (∀ p ∈ (hitsFrom is_match 0 lines).take n, p.2 + context_lines.toNat + 1 < 2 ^ 64) ∧
      ((hitsFrom is_match 0 lines).length < n ∨ context_lines = 0 ∨
        ∀ p ∈ (hitsFrom is_match 0 lines)[n - 1]?, p.2 + 1 = lines.length) := by
  have hlength : ∀ p ∈ (hitsFrom is_match 0 lines).take n, p.2 < lines.length := fun p hp =>
    (List.getElem?_eq_some_iff.mp (mem_hitsFrom (List.mem_of_mem_take hp))).1
  have hzero : context_lines = 0 ↔ context_lines.toNat = 0 := by
    rw [← UInt64.toNat_inj]
    rfl
  rcases stopAt_eq is_match lines hn with ⟨hfew, hstop⟩ | ⟨last, hlast, hstop, hmem, hle⟩
  · rw [hstop]
    refine ⟨fun h => ⟨fun p hp => ?_, .inl hfew⟩, fun h p hp => ?_⟩
    · exact ((contextRange_snd_iff context_lines (hlength p hp) (Nat.le_refl _)).mp (h p hp)).1
    · exact (contextRange_snd_iff context_lines (hlength p hp) (Nat.le_refl _)).mpr
        ⟨h.1 p hp, .inr rfl⟩
  · have hiff := fun p hp => contextRange_snd_iff context_lines
      (Nat.lt_succ_of_le (hle p hp)) (hlength last hmem)
    have hmany : ¬ (hitsFrom is_match 0 lines).length < n := fun h => by
      rw [List.getElem?_eq_none (by omega)] at hlast
      cases hlast
    rw [hstop, hlast, hzero]
    simp only [hmany, false_or, Option.mem_some_iff, forall_eq']
    constructor
    · intro h
      refine ⟨fun p hp => ((hiff p hp).mp (h p hp)).1, ?_⟩
      have := ((hiff last hmem).mp (h last hmem)).2
      omega
    · rintro ⟨hlt, hcond⟩ p hp
      refine (hiff p hp).mpr ⟨hlt p hp, ?_⟩
      have := hle p hp
      omega

variable (context_lines) in
lemma grepLines_of_tooLarge {lines : List String} (h : TooLarge is_match max_matches lines) :
    grepLines is_match context_lines max_matches lines = .error fileTooLarge := by
  rw [grepLines, scanLines_start, if_pos h]
  rfl

variable (context_lines) in
/-- The report has the matches of the first pass, with what the cache has around them. -/
lemma grepLines_of_not_tooLarge {lines : List String}
    (h : ¬ TooLarge is_match max_matches lines) :
    ∃ report, grepLines is_match context_lines max_matches lines = .ok report ∧
      report.found =
        ((hitsFrom is_match 0 lines).take (max max_matches.toNat 1)).map fun p =>
          ⟨p.2 + 1, p.1, matchContext context_lines
            (lineCache context_lines lines (stopAt is_match 0 lines (max max_matches.toNat 1))
              ((hitsFrom is_match 0 lines).take (max max_matches.toNat 1)))
            (stopAt is_match 0 lines (max max_matches.toNat 1)) p.2⟩ := by
  rw [grepLines, scanLines_start, if_neg h]
  generalize (hitsFrom is_match 0 lines).take (max max_matches.toNat 1) = found
  cases found with
  | nil => exact ⟨_, rfl, rfl⟩
  | cons p found => exact ⟨_, rfl, rfl⟩

/-- Matches are reported with all the lines around them exactly if the file is not too large and
either no line matches, or a match may be reported, no end of a context exceeds the machine
integers, and the first pass has not ended before lines that are around the last match. -/
theorem grepLines_eq_reference_iff (lines : List String) :
    (∃ report, grepLines is_match context_lines max_matches lines = .ok report ∧
      report.found = reference is_match context_lines max_matches lines) ↔
    ¬ TooLarge is_match max_matches lines ∧ (hitsFrom is_match 0 lines = [] ∨
      max_matches ≠ 0 ∧
      (∀ p ∈ (hitsFrom is_match 0 lines).take max_matches.toNat,
        p.2 + context_lines.toNat + 1 < 2 ^ 64) ∧
      ((hitsFrom is_match 0 lines).length < max_matches.toNat ∨ context_lines = 0 ∨
        ∀ p ∈ (hitsFrom is_match 0 lines)[max_matches.toNat - 1]?, p.2 + 1 = lines.length)) := by
  by_cases hlarge : TooLarge is_match max_matches lines
  · rw [grepLines_of_tooLarge context_lines hlarge]
    exact ⟨fun ⟨_, h, _⟩ => (nomatch h), fun h => absurd hlarge h.1⟩
  obtain ⟨report, hreport, hfound⟩ := grepLines_of_not_tooLarge context_lines hlarge
  simp only [hreport, Except.ok.injEq, exists_eq_left', hfound, hlarge, not_false_eq_true, true_and]
  by_cases hempty : hitsFrom is_match 0 lines = []
  · simp [hempty, reference]
  by_cases hzero : max_matches = 0
  · -- the first pass only ends after a match
    obtain ⟨p, found, hhits⟩ := List.exists_cons_of_ne_nil hempty
    simp [hzero, hhits, reference]
  have hpos : 0 < max_matches.toNat := Nat.pos_of_ne_zero fun h => hzero (UInt64.toNat_inj.mp h)
  rw [Nat.max_eq_left hpos, reference, map_matchContext_eq_iff fun p hp =>
    (List.getElem?_eq_some_iff.mp (mem_hitsFrom (List.mem_of_mem_take hp))).1,
    forall_contextRange_snd_iff lines hpos]
  simp [hempty, hzero]

/-- The first of two matches is reported without the line behind it. -/
theorem context_cut_off :
    grepLines (· = "x") 2 1 ["x", "y"] = .ok ⟨1, true, [⟨1, "x", [⟨1, "x", true⟩]⟩]⟩ ∧
      reference (· = "x") 2 1 ["x", "y"] =
        [⟨1, "x", [⟨1, "x", true⟩, ⟨2, "y", false⟩]⟩] := by
  refine ⟨?_, ?_⟩
  · decide +kernel
  · decide +kernel

end Arbeiterfarm.Tools
