import Arbeiterfarm.Core.Bytes
import Mathlib.Data.List.Dedup
import Mathlib.Data.List.Perm.Subperm

/-!
# Statistics of CSV columns

`transform.csv` counts the rows and the values of each column in one pass. It keeps at most a
thousand values of a column. When the table is full, the next value marks it as overflown, even if
the table has that value already. So the number of values is right unless there are a thousand of
them and another value comes after the last new one.
-/

namespace Arbeiterfarm.Tools.Csv

open Foundation.Offsets

def maxTrackedCols : ℕ := 10

def maxUniqueTracked : ℕ := 1000

def usizeMax : ℕ := 18446744073709551615

/-- A record has a field, and a field fits into memory. -/
structure Record where
  fields : List String
  nonempty : fields ≠ []
  fits : ∀ v ∈ fields, utf8Len v ≤ usizeMax

/-- `record.get(i).unwrap_or("")`. -/
def Record.get (r : Record) (i : ℕ) : String := r.fields[i]?.getD ""

/-! ### One pass -/

structure ColStats where
  count : ℕ := 0
  non_null : ℕ := 0
  min_len : ℕ := usizeMax
  max_len : ℕ := 0
  uniques : List (String × ℕ) := []
  unique_overflow : Bool := false

/-- `*uniques.entry(val).or_insert(0) += 1`. -/
def countValue (val : String) : List (String × ℕ) → List (String × ℕ)
  | [] => [(val, 1)]
  | (v, n) :: uniques =>
    if v = val then (v, n + 1) :: uniques else (v, n) :: countValue val uniques

/-- A value that is not empty. -/
def ColStats.addValue (stat : ColStats) (val : String) : ColStats :=
  let stat :=
    { stat with
      non_null := stat.non_null + 1
      min_len := min stat.min_len (utf8Len val)
      max_len := max stat.max_len (utf8Len val) }
  if stat.unique_overflow then stat
  else if stat.uniques.length < maxUniqueTracked then
    { stat with uniques := countValue val stat.uniques }
  else { stat with unique_overflow := true }

def ColStats.add (stat : ColStats) (val : String) : ColStats :=
  let stat := { stat with count := stat.count + 1 }
  if val = "" then stat else stat.addValue val

/-- The first record says how many columns there are. -/
def onRecord (stats : List ColStats) (record : Record) : List ColStats :=
  let stats :=
    if stats = [] then List.replicate (min record.fields.length maxTrackedCols) {} else stats
  stats.mapIdx fun i stat => stat.add (record.get i)

structure ColReport where
  column : String
  count : ℕ
  non_null : ℕ
  unique_count : String
  min_length : ℕ
  max_length : ℕ
  deriving DecidableEq

def columnName (headers : List String) (i : ℕ) : String :=
  headers[i]?.getD ("col_" ++ toString i)

def ColStats.report (stat : ColStats) (column : String) : ColReport where
  column := column
  count := stat.count
  non_null := stat.non_null
  unique_count :=
    if stat.unique_overflow then ">" ++ toString maxUniqueTracked
    else toString stat.uniques.length
  min_length := if stat.non_null > 0 then stat.min_len else 0
  max_length := stat.max_len

/-- A record that cannot be read is skipped. -/
def executeStats (headers : List String) (results : List (Option Record)) : List ColReport :=
  ((results.filterMap id).foldl onRecord []).mapIdx fun i stat =>
    stat.report (columnName headers i)

/-! ### The definition -/

/-- The number of different values. -/
def distinct (vs : List String) : ℕ := vs.dedup.length

/-- The values of a column that are not empty. -/
def valuesOf (records : List Record) (i : ℕ) : List String :=
  (records.map (·.get i)).filter (· ≠ "")

def referenceReport (records : List Record) (column : String) (i : ℕ) : ColReport where
  column := column
  count := records.length
  non_null := (valuesOf records i).length
  unique_count :=
    if distinct (valuesOf records i) ≤ maxUniqueTracked then
      toString (distinct (valuesOf records i))
    else ">" ++ toString maxUniqueTracked
  min_length := ((valuesOf records i).map utf8Len).min?.getD 0
  max_length := ((valuesOf records i).map utf8Len).max?.getD 0

/-- The columns of the first record, ten at most. -/
def trackedCols (records : List Record) : ℕ :=
  min ((records.head?.map (·.fields.length)).getD 0) maxTrackedCols

def referenceStats (headers : List String) (results : List (Option Record)) : List ColReport :=
  let records := results.filterMap id
  (List.range (trackedCols records)).map fun i =>
    referenceReport records (columnName headers i) i

/-- No value follows when the table is full, or one that is new does. -/
def NotFull (vs : List String) : Prop :=
  distinct vs.dropLast < maxUniqueTracked ∨ maxUniqueTracked < distinct vs

/-! ### Different values -/

lemma distinct_eq_of_nodup {keys vs : List String} (hnodup : keys.Nodup)
    (hmem : ∀ v, v ∈ keys ↔ v ∈ vs) : keys.length = distinct vs := by
  refine List.Perm.length_eq ((List.perm_ext_iff_of_nodup hnodup (List.nodup_dedup vs)).mpr ?_)
  intro v
  rw [List.mem_dedup, hmem v]

lemma distinct_dropLast_le (vs : List String) : distinct vs.dropLast ≤ distinct vs := by
  refine List.Subperm.length_le (List.subperm_of_subset (List.nodup_dedup _) fun v hv => ?_)
  rw [List.mem_dedup] at hv ⊢
  exact List.dropLast_subset vs hv

lemma distinct_append_le (vs : List String) (v : String) :
    distinct (vs ++ [v]) ≤ distinct vs + 1 := by
  have hsubset : (vs ++ [v]).dedup ⊆ v :: vs.dedup := fun u hu => by
    rw [List.mem_dedup, List.mem_append, List.mem_singleton] at hu
    rw [List.mem_cons, List.mem_dedup]
    exact hu.symm
  exact (List.subperm_of_subset (List.nodup_dedup _) hsubset).length_le

lemma mem_keys_countValue (val v : String) (uniques : List (String × ℕ)) :
    v ∈ (countValue val uniques).map Prod.fst ↔ v = val ∨ v ∈ uniques.map Prod.fst := by
  induction uniques with
  | nil => simp [countValue]
  | cons e uniques ih =>
    obtain ⟨u, n⟩ := e
    rw [countValue]
    by_cases hu : u = val
    · rw [if_pos hu, List.map_cons, List.map_cons, List.mem_cons]
      subst hu
      exact ⟨.inr, fun h => h.elim .inl id⟩
    · rw [if_neg hu, List.map_cons, List.map_cons, List.mem_cons, List.mem_cons, ih]
      exact or_left_comm

lemma nodup_keys_countValue (val : String) {uniques : List (String × ℕ)}
    (h : (uniques.map Prod.fst).Nodup) : ((countValue val uniques).map Prod.fst).Nodup := by
  induction uniques with
  | nil => simp [countValue]
  | cons e uniques ih =>
    obtain ⟨u, n⟩ := e
    rw [List.map_cons, List.nodup_cons] at h
    rw [countValue]
    by_cases hu : u = val
    · rw [if_pos hu, List.map_cons, List.nodup_cons]
      exact h
    · rw [if_neg hu, List.map_cons, List.nodup_cons, mem_keys_countValue]
      exact ⟨fun hmem => hmem.elim hu h.1, ih h.2⟩

/-! ### One column -/

/-- What the pass knows of a column after some values. -/
structure Tracks (stat : ColStats) (vals : List String) : Prop where
  count : stat.count = vals.length
  non_null : stat.non_null = (vals.filter (· ≠ "")).length
  min_len : stat.min_len = ((vals.filter (· ≠ "")).map utf8Len).foldl min usizeMax
  max_len : stat.max_len = ((vals.filter (· ≠ "")).map utf8Len).foldl max 0
  overflow : stat.unique_overflow = true ↔
    maxUniqueTracked ≤ distinct (vals.filter (· ≠ "")).dropLast
  keys : stat.unique_overflow = false → (stat.uniques.map Prod.fst).Nodup ∧
    ∀ v, v ∈ stat.uniques.map Prod.fst ↔ v ∈ vals.filter (· ≠ "")

lemma tracks_nil : Tracks {} [] := by
  refine ⟨rfl, rfl, rfl, rfl, ?_, fun _ => ⟨List.nodup_nil, fun v => Iff.rfl⟩⟩
  exact iff_of_false (by simp) (by simp [distinct, maxUniqueTracked])

namespace Tracks

variable {stat : ColStats} {vals : List String} {val : String}

lemma length_uniques (h : Tracks stat vals) (hoverflow : stat.unique_overflow = false) :
    stat.uniques.length = distinct (vals.filter (· ≠ "")) := by
  rw [← distinct_eq_of_nodup (h.keys hoverflow).1 (h.keys hoverflow).2, List.length_map]

lemma add_empty (h : Tracks stat vals) : Tracks (stat.add "") (vals ++ [""]) := by
  have hfilter : (vals ++ [""]).filter (· ≠ "") = vals.filter (· ≠ "") := by
    rw [List.filter_append]
    exact List.append_nil _
  have hadd : stat.add "" = { stat with count := stat.count + 1 } := by
    rw [ColStats.add]
    exact if_pos rfl
  rw [hadd]
  refine ⟨?_, ?_, ?_, ?_, ?_, ?_⟩
  · rw [List.length_append, ← h.count]
    rfl
  all_goals rw [hfilter]
  · exact h.non_null
  · exact h.min_len
  · exact h.max_len
  · exact h.overflow
  · exact h.keys

lemma add_value (h : Tracks stat vals) (hval : val ≠ "") :
    Tracks (stat.add val) (vals ++ [val]) := by
  have hfilter : (vals ++ [val]).filter (· ≠ "") = vals.filter (· ≠ "") ++ [val] := by
    rw [List.filter_append, List.filter_cons_of_pos (by simpa using hval)]
    rfl
  have hmin : min stat.min_len (utf8Len val) =
      ((vals.filter (· ≠ "") ++ [val]).map utf8Len).foldl min usizeMax := by
    rw [List.map_append, List.foldl_append, ← h.min_len]
    rfl
  have hmax : max stat.max_len (utf8Len val) =
      ((vals.filter (· ≠ "") ++ [val]).map utf8Len).foldl max 0 := by
    rw [List.map_append, List.foldl_append, ← h.max_len]
    rfl
  have hcount : stat.count + 1 = (vals ++ [val]).length := by
    rw [List.length_append, ← h.count]
    rfl
  have hnull : stat.non_null + 1 = (vals.filter (· ≠ "") ++ [val]).length := by
    rw [List.length_append, ← h.non_null]
    rfl
  rw [ColStats.add]
  simp only [if_neg hval, ColStats.addValue]
  by_cases hoverflow : stat.unique_overflow = true
  · rw [if_pos hoverflow]
    refine ⟨hcount, ?_, ?_, ?_, ?_, ?_⟩
    all_goals rw [hfilter]
    · exact hnull
    · exact hmin
    · exact hmax
    · rw [List.dropLast_concat]
      exact iff_of_true hoverflow (Nat.le_trans (h.overflow.mp hoverflow) (distinct_dropLast_le _))
    · exact fun hfalse => absurd hoverflow (by rw [hfalse]; simp)
  · have hfalse := Bool.eq_false_iff.mpr hoverflow
    have hlength := h.length_uniques hfalse
    rw [if_neg hoverflow]
    by_cases hroom : stat.uniques.length < maxUniqueTracked
    · rw [if_pos hroom]
      refine ⟨hcount, ?_, ?_, ?_, ?_, ?_⟩
      all_goals rw [hfilter]
      · exact hnull
      · exact hmin
      · exact hmax
      · rw [List.dropLast_concat, ← hlength]
        exact iff_of_false hoverflow (Nat.not_le_of_lt hroom)
      · refine fun _ => ⟨nodup_keys_countValue val (h.keys hfalse).1, fun v => ?_⟩
        rw [mem_keys_countValue, (h.keys hfalse).2 v, List.mem_append, List.mem_singleton, or_comm]
    · rw [if_neg hroom]
      refine ⟨hcount, ?_, ?_, ?_, ?_, ?_⟩
      all_goals rw [hfilter]
      · exact hnull
      · exact hmin
      · exact hmax
      · rw [List.dropLast_concat, ← hlength]
        exact iff_of_true rfl (Nat.le_of_not_lt hroom)
      · exact fun htrue => nomatch htrue

lemma add (h : Tracks stat vals) (val : String) : Tracks (stat.add val) (vals ++ [val]) := by
  by_cases hval : val = ""
  · rw [hval]
    exact h.add_empty
  · exact h.add_value hval

lemma foldl (h : Tracks stat vals) (more : List String) :
    Tracks (more.foldl ColStats.add stat) (vals ++ more) := by
  induction more generalizing stat vals with
  | nil => rwa [List.append_nil]
  | cons val more ih =>
    rw [List.append_cons]
    exact ih (h.add val)

end Tracks

lemma foldl_min_eq {ns : List ℕ} (h : ∀ n ∈ ns, n ≤ usizeMax) (hne : ns ≠ []) :
    ns.foldl min usizeMax = ns.min?.getD 0 := by
  cases ns with
  | nil => exact absurd rfl hne
  | cons n ns =>
    rw [List.foldl_cons, Nat.min_eq_right (h n List.mem_cons_self)]
    rfl

lemma foldl_max_eq (ns : List ℕ) : ns.foldl max 0 = ns.max?.getD 0 := by
  cases ns with
  | nil => rfl
  | cons n ns =>
    rw [List.foldl_cons, Nat.zero_max]
    rfl

section

variable {records : List Record} {i : ℕ} {column : String}

lemma fits_valuesOf : ∀ n ∈ (valuesOf records i).map utf8Len, n ≤ usizeMax := by
  intro n hn
  obtain ⟨v, hv, rfl⟩ := List.mem_map.mp hn
  obtain ⟨r, -, rfl⟩ := List.mem_map.mp (List.mem_filter.mp hv).1
  rw [Record.get]
  cases hget : r.fields[i]? with
  | none => exact Nat.zero_le _
  | some v => exact r.fits v (List.mem_of_getElem? hget)

/-- The number of values is right, or the table has been full when another value came. -/
lemma unique_count_eq_iff {stat : ColStats} (h : Tracks stat (records.map (·.get i))) :
    (stat.report column).unique_count = (referenceReport records column i).unique_count ↔
      NotFull (valuesOf records i) := by
  have hoverflow : stat.unique_overflow = true ↔
      maxUniqueTracked ≤ distinct (valuesOf records i).dropLast := h.overflow
  have hlength := h.length_uniques
  rw [← valuesOf] at hlength
  rw [ColStats.report, referenceReport, NotFull]
  simp only
  by_cases hfull : maxUniqueTracked ≤ distinct (valuesOf records i).dropLast
  · rw [if_pos (hoverflow.mpr hfull), or_iff_right (Nat.not_lt_of_le hfull)]
    have hle := Nat.le_trans hfull (distinct_dropLast_le _)
    by_cases hmany : distinct (valuesOf records i) ≤ maxUniqueTracked
    · rw [if_pos hmany, Nat.le_antisymm hmany hle]
      exact iff_of_false (by decide) (Nat.lt_irrefl _)
    · rw [if_neg hmany]
      exact iff_of_true rfl (Nat.lt_of_not_le hmany)
  · have hlt := Nat.lt_of_not_le hfull
    have hfalse : ¬stat.unique_overflow = true := fun htrue => hfull (hoverflow.mp htrue)
    have hle : distinct (valuesOf records i) ≤ maxUniqueTracked := by
      rcases List.eq_nil_or_concat' (valuesOf records i) with hnil | ⟨vs, v, hvalues⟩
      · rw [hnil]
        exact Nat.zero_le _
      · rw [hvalues, List.dropLast_concat] at hlt
        rw [hvalues]
        exact Nat.le_trans (distinct_append_le vs v) hlt
    rw [if_neg hfalse, if_pos hle, hlength (Bool.eq_false_iff.mpr hfalse)]
    exact iff_of_true rfl (.inl hlt)

lemma report_eq_iff {stat : ColStats} (h : Tracks stat (records.map (·.get i))) :
    stat.report column = referenceReport records column i ↔ NotFull (valuesOf records i) := by
  have hcount : stat.count = records.length := by rw [h.count, List.length_map]
  have hnull : stat.non_null = (valuesOf records i).length := h.non_null
  have hmin : (if stat.non_null > 0 then stat.min_len else 0) =
      ((valuesOf records i).map utf8Len).min?.getD 0 := by
    rw [hnull]
    by_cases hvalues : valuesOf records i = []
    · rw [hvalues]
      rfl
    · rw [if_pos (List.length_pos_iff.mpr hvalues),
        ← foldl_min_eq fits_valuesOf (by simpa using hvalues)]
      exact h.min_len
  have hmax : stat.max_len = ((valuesOf records i).map utf8Len).max?.getD 0 :=
    h.max_len.trans (foldl_max_eq _)
  rw [← unique_count_eq_iff h, ColStats.report, referenceReport]
  simp only [ColReport.mk.injEq, hcount, hmin, hmax]
  simp [hnull]

end

/-! ### All columns -/

lemma foldl_onRecord {stats : List ColStats} (h : stats ≠ []) (records : List Record) :
    records.foldl onRecord stats =
      stats.mapIdx fun i stat => (records.map (·.get i)).foldl ColStats.add stat := by
  induction records generalizing stats with
  | nil => exact (List.mapIdx_eq_iff.mpr fun i => by simp).symm
  | cons r records ih =>
    have hstep : onRecord stats r = stats.mapIdx fun i stat => stat.add (r.get i) := by
      rw [onRecord, if_neg h]
    rw [List.foldl_cons, hstep, ih (by simpa using h), List.mapIdx_mapIdx]
    rfl

lemma foldl_onRecord_nil (records : List Record) :
    records.foldl onRecord [] = (List.range (trackedCols records)).map fun i =>
      (records.map (·.get i)).foldl ColStats.add {} := by
  cases records with
  | nil => rfl
  | cons r records =>
    have hcols : trackedCols (r :: records) = min r.fields.length maxTrackedCols := rfl
    have hne : List.replicate (min r.fields.length maxTrackedCols) ({} : ColStats) ≠ [] := by
      have hpos := List.length_pos_iff.mpr r.nonempty
      rw [ne_eq, List.replicate_eq_nil_iff, maxTrackedCols]
      omega
    have hfirst : onRecord [] r = onRecord (List.replicate (trackedCols (r :: records)) {}) r := by
      rw [onRecord, onRecord, if_pos rfl, hcols, if_neg hne]
    rw [List.foldl_cons, hfirst, ← List.foldl_cons, foldl_onRecord (hcols ▸ hne)]
    refine List.ext_getElem (by simp) fun i h _ => ?_
    simp

lemma executeStats_eq (headers : List String) (results : List (Option Record)) :
    executeStats headers results = (List.range (trackedCols (results.filterMap id))).map fun i =>
      (((results.filterMap id).map (·.get i)).foldl ColStats.add {}).report
        (columnName headers i) := by
  rw [executeStats, foldl_onRecord_nil]
  refine List.ext_getElem (by simp) fun i h _ => ?_
  simp

/-- The statistics equal their definition exactly when no column has a thousand values that were
all there before another value came. -/
theorem executeStats_eq_iff (headers : List String) (results : List (Option Record)) :
    executeStats headers results = referenceStats headers results ↔
      ∀ i < trackedCols (results.filterMap id), NotFull (valuesOf (results.filterMap id) i) := by
  rw [executeStats_eq, referenceStats, List.map_inj_left]
  refine forall_congr' fun i => ?_
  rw [List.mem_range]
  exact imp_congr_right fun _ => report_eq_iff (tracks_nil.foldl _)

/-- A record of one letter. -/
def letter (c : Char) : Record where
  fields := [String.ofList [c]]
  nonempty := List.cons_ne_nil _ _
  fits v hv := by
    rw [List.mem_singleton.mp hv, utf8Len, String.toList_ofList, width_cons, width_nil]
    exact Nat.le_trans c.utf8Size_le_four (by decide)

/-- Different letters, up to a thousand. -/
def letters (count : ℕ) : List Char := (List.range count).map fun n => Char.ofNat (n + 256)

lemma nodup_letters {count : ℕ} (hcount : count ≤ 1000) :
    ((letters count).map fun c => String.ofList [c]).Nodup := by
  have hcode : ∀ n < 1000, (Char.ofNat (n + 256)).toNat = n + 256 := by decide +kernel
  rw [letters, List.map_map]
  refine List.nodup_range.map_on fun m hm n hn heq => ?_
  have hchar : Char.ofNat (m + 256) = Char.ofNat (n + 256) := by
    simpa using String.ofList_injective heq
  have hnat := congrArg Char.toNat hchar
  rwa [hcode m (Nat.lt_of_lt_of_le (List.mem_range.mp hm) hcount),
    hcode n (Nat.lt_of_lt_of_le (List.mem_range.mp hn) hcount), Nat.add_right_cancel_iff] at hnat

lemma distinct_letters {count : ℕ} (hcount : count ≤ 1000) :
    distinct ((letters count).map fun c => String.ofList [c]) = count := by
  rw [← distinct_eq_of_nodup (nodup_letters hcount) fun v => Iff.rfl, List.length_map, letters,
    List.length_map, List.length_range]

/-- The first letter again is not another value. -/
lemma distinct_letters_again {count : ℕ} (hpos : 0 < count) (hcount : count ≤ 1000) :
    distinct ((letters count).map (fun c => String.ofList [c]) ++
      [String.ofList [Char.ofNat 256]]) = count := by
  rw [← distinct_eq_of_nodup (nodup_letters hcount) fun v => ?_, List.length_map, letters,
    List.length_map, List.length_range]
  rw [List.mem_append, List.mem_singleton]
  refine ⟨.inl, fun h => h.elim id ?_⟩
  rintro rfl
  exact List.mem_map_of_mem (List.mem_map.mpr ⟨0, List.mem_range.mpr hpos, rfl⟩)

lemma valuesOf_letters (cs : List Char) :
    valuesOf (cs.map letter) 0 = cs.map fun c => String.ofList [c] := by
  rw [valuesOf, List.map_map, List.filter_eq_self.mpr]
  · rfl
  · intro v hv
    obtain ⟨c, -, rfl⟩ := List.mem_map.mp hv
    simp [letter, Record.get]

lemma records_letters (cs : List Char) :
    (cs.map fun c => some (letter c)).filterMap id = cs.map letter := by
  induction cs with
  | nil => rfl
  | cons c cs ih => exact congrArg (letter c :: ·) ih

lemma trackedCols_letters (cs : List Char) (c : Char) :
    trackedCols ((cs ++ [c]).map letter) = 1 := by
  cases cs <;> rfl

/-- A thousand letters, and the first one again. -/
theorem not_eq_reference_letters :
    executeStats [] ((letters 1000 ++ [Char.ofNat 256]).map fun c => some (letter c)) ≠
      referenceStats [] ((letters 1000 ++ [Char.ofNat 256]).map fun c => some (letter c)) := by
  rw [executeStats_eq, referenceStats, records_letters, trackedCols_letters]
  intro h
  have hcolumn := List.map_inj_left.mp h 0 (List.mem_range.mpr Nat.one_pos)
  rw [report_eq_iff (tracks_nil.foldl _), valuesOf_letters, List.map_append, List.map_singleton,
    NotFull, List.dropLast_concat, distinct_letters (Nat.le_refl _),
    distinct_letters_again (by decide) (Nat.le_refl _)] at hcolumn
  exact absurd hcolumn (by decide)

end Arbeiterfarm.Tools.Csv
