import Arbeiterfarm.Core.JsonMap
import Arbeiterfarm.Core.Numbers
import Arbeiterfarm.Tools.CsvStats
import Mathlib.Data.Finset.Card

/-!
# Columns of CSV files

A selector that reads as a number is a position, also where a column has it as its name. A row
becomes an object with the names of its columns as keys, so that of two columns of one name only
one value stays.
-/

namespace Arbeiterfarm.Tools.Csv

/-- A selector is first read as a position. -/
def resolveColumnIndex (col : String) (headers : List String) : Option ℕ :=
  match parseUsize col.toList with
  | some idx => some idx
  | none => headers.idxOf? col

/-- The name and the value of a selected column. -/
def selectColumn (record : Record) (headers : List String) (col : String) :
    Option (String × String) :=
  (resolveColumnIndex col headers).map fun idx => (columnName headers idx, record.get idx)

def selectColumns (record : Record) (headers columns : List String) : List (String × String) :=
  if columns = [] then headers.mapIdx fun i h => (h, record.get i)
  else columns.filterMap (selectColumn record headers)

/-- The fields of the object of a row. -/
def rowFields (record : Record) (headers columns : List String) : List (String × Json) :=
  Json.insertAll [] ((selectColumns record headers columns).map fun p => (p.1, .str p.2))

/-- The rows of `parse`; a record that cannot be read is skipped. -/
def executeParse (headers columns : List String) (results : List (Option Record)) : List Json :=
  (results.filterMap id).map fun record => .obj (rowFields record headers columns)

def shouldInclude (isMatch : String → Bool) (col_idx : Option ℕ) (record : Record) : Bool :=
  match col_idx with
  | some idx => isMatch (record.get idx)
  | none => record.fields.any isMatch

/-- The records that `filter` writes. -/
def executeFilter (headers : List String) (filter_column : String) (isMatch : String → Bool)
    (results : List (Option Record)) : List Record :=
  (results.filterMap id).filter
    (shouldInclude isMatch (resolveColumnIndex filter_column headers))

/-! ### What selectors mean -/

/-- The selector is the position of a column, or the name of the first one with this name. -/
def Selects (headers : List String) (col : String) (i : ℕ) : Prop :=
  parseUsize col.toList = some i ∨ parseUsize col.toList = none ∧ headers.idxOf? col = some i

/-- Without selectors all columns are selected. -/
def Selected (headers columns : List String) (i : ℕ) : Prop :=
  if columns = [] then i < headers.length else ∃ col ∈ columns, Selects headers col i

/-- `parse` takes the name and the value from a column with this name. -/
def ParseSelects (headers : List String) (col : String) : Prop :=
  ∃ i, headers[i]? = some col ∧ ∀ record, selectColumn record headers col = some (col, record.get i)

/-- `filter` looks at a column with this name. -/
def FilterSelects (headers : List String) (col : String) : Prop :=
  ∃ i, headers[i]? = some col ∧ ∀ isMatch results, executeFilter headers col isMatch results =
    (results.filterMap id).filter fun record => isMatch (record.get i)

/-- The object of a row has a value of its own for each selected column. -/
def RowComplete (headers columns : List String) (record : Record) (row : Json) : Prop :=
  ∃ key : ℕ → String, Set.InjOn key {i | Selected headers columns i} ∧
    ∀ i, Selected headers columns i → row.get (key i) = some (.str (record.get i))

/-- Header names select their columns, and no cell of a selected column is lost. -/
structure Faithful (headers columns : List String) (filter_column : String) : Prop where
  parse : ∀ col ∈ columns, col ∈ headers → ParseSelects headers col
  filter : filter_column ∈ headers → FilterSelects headers filter_column
  complete : ∀ results, List.Forall₂ (RowComplete headers columns) (results.filterMap id)
    (executeParse headers columns results)

/-- A selector that is a name is no number, or the column at this position has the name. -/
def NamesColumn (headers : List String) (col : String) : Prop :=
  ∀ n, parseUsize col.toList = some n → headers[n]? = some col

/-! ### Selectors -/

section

variable {headers columns : List String} {col : String}

lemma resolveColumnIndex_eq_some_iff {i : ℕ} :
    resolveColumnIndex col headers = some i ↔ Selects headers col i := by
  rw [resolveColumnIndex, Selects]
  cases parseUsize col.toList with
  | none => simp
  | some idx => simp

lemma columnName_of_getElem? {i : ℕ} (h : headers[i]? = some col) : columnName headers i = col := by
  rw [columnName, h]
  rfl

lemma getElem?_of_idxOf? {i : ℕ} (h : headers.idxOf? col = some i) : headers[i]? = some col := by
  obtain ⟨hlt, heq, -⟩ := List.idxOf?_eq_some_iff.mp h
  rw [List.getElem?_eq_getElem hlt, heq]

/-- The column that a name selects has the name. -/
lemma exists_selects (hcol : col ∈ headers) (h : NamesColumn headers col) :
    ∃ i, resolveColumnIndex col headers = some i ∧ headers[i]? = some col := by
  cases hparse : parseUsize col.toList with
  | some n => exact ⟨n, resolveColumnIndex_eq_some_iff.mpr (.inl hparse), h n hparse⟩
  | none =>
    have hsome : headers.idxOf? col ≠ none := by
      rw [ne_eq, List.idxOf?_eq_none_iff]
      exact not_not_intro hcol
    obtain ⟨i, hi⟩ := Option.ne_none_iff_exists'.mp hsome
    exact ⟨i, resolveColumnIndex_eq_some_iff.mpr (.inr ⟨hparse, hi⟩), getElem?_of_idxOf? hi⟩

/-- A record with a mark at one position. -/
def marked (i : ℕ) : Record where
  fields := List.replicate i "" ++ ["x"]
  nonempty := by simp
  fits v hv := by
    rcases List.mem_append.mp hv with hv | hv
    · rw [List.eq_of_mem_replicate hv]
      decide
    · rw [List.mem_singleton.mp hv]
      decide

lemma get_marked (i j : ℕ) : (marked i).get j = "x" ↔ j = i := by
  rw [Record.get, marked]
  rcases Nat.lt_trichotomy j i with h | rfl | h
  · rw [List.getElem?_append_left (by simpa using h)]
    simp [h, h.ne]
  · simp
  · rw [List.getElem?_eq_none (by simpa using Nat.succ_le_of_lt h)]
    simp [h.ne']

lemma parseSelects_iff (hcol : col ∈ headers) :
    ParseSelects headers col ↔ NamesColumn headers col := by
  constructor
  · rintro ⟨i, hi, hselect⟩ n hn
    have hresolve : resolveColumnIndex col headers = some n :=
      resolveColumnIndex_eq_some_iff.mpr (.inl hn)
    have hmarked := hselect (marked i)
    rw [selectColumn, hresolve, (get_marked i i).mpr rfl] at hmarked
    have hn := (get_marked i n).mp (Prod.mk.inj (Option.some.inj hmarked)).2
    rwa [hn]
  · intro h
    obtain ⟨i, hresolve, hi⟩ := exists_selects hcol h
    refine ⟨i, hi, fun record => ?_⟩
    rw [selectColumn, hresolve, Option.map_some, columnName_of_getElem? hi]

lemma filterSelects_iff (hcol : col ∈ headers) :
    FilterSelects headers col ↔ NamesColumn headers col := by
  constructor
  · rintro ⟨i, hi, hfilter⟩ n hn
    have hresolve : resolveColumnIndex col headers = some n :=
      resolveColumnIndex_eq_some_iff.mpr (.inl hn)
    have hmarked := hfilter (fun v => v = "x") [some (marked i)]
    have hmem : marked i ∈ executeFilter headers col (fun v => v = "x") [some (marked i)] := by
      rw [hmarked]
      simp [(get_marked i i).mpr rfl]
    rw [executeFilter, hresolve, List.mem_filter, shouldInclude, decide_eq_true_iff,
      get_marked] at hmem
    rwa [hmem.2]
  · intro h
    obtain ⟨i, hresolve, hi⟩ := exists_selects hcol h
    refine ⟨i, hi, fun isMatch results => ?_⟩
    rw [executeFilter, hresolve]
    rfl

/-! ### Rows -/

/-- The positions of the selected columns. -/
def selectedIndices (headers columns : List String) : List ℕ :=
  if columns = [] then List.range headers.length
  else columns.filterMap fun col => resolveColumnIndex col headers

lemma mem_selectedIndices {i : ℕ} :
    i ∈ selectedIndices headers columns ↔ Selected headers columns i := by
  rw [selectedIndices, Selected]
  by_cases h : columns = []
  · rw [if_pos h, if_pos h, List.mem_range]
  · rw [if_neg h, if_neg h, List.mem_filterMap]
    simp only [resolveColumnIndex_eq_some_iff]

lemma selectColumns_eq (record : Record) (headers columns : List String) :
    selectColumns record headers columns = (selectedIndices headers columns).map fun i =>
      (columnName headers i, record.get i) := by
  rw [selectColumns, selectedIndices]
  by_cases h : columns = []
  · rw [if_pos h, if_pos h]
    refine List.ext_getElem (by simp) fun i hi _ => ?_
    have hlt : i < headers.length := by simpa using hi
    simp [columnName, hlt]
  · rw [if_neg h, if_neg h, List.map_filterMap]
    rfl

/-- If all entries of a key have the same value, the object has it. -/
lemma lookup_insertAll_of_forall {k : String} {v : Json} {fields entries : List (String × Json)}
    (hmem : k ∈ entries.map Prod.fst) (hall : ∀ e ∈ entries, e.1 = k → e.2 = v) :
    (Json.insertAll fields entries).lookup k = some v := by
  induction entries generalizing fields with
  | nil => exact absurd hmem List.not_mem_nil
  | cons e entries ih =>
    obtain ⟨he, hrest⟩ := List.forall_mem_cons.mp hall
    rw [Json.insertAll_cons]
    by_cases hk : k ∈ entries.map Prod.fst
    · exact ih hk hrest
    · have hkey : e.1 = k := ((List.mem_cons.mp hmem).resolve_right hk).symm
      rw [Json.lookup_insertAll_of_not_mem hk, Json.lookup_insertField, if_pos hkey.symm, he hkey]

lemma rowComplete_iff (record : Record) :
    RowComplete headers columns record (.obj (rowFields record headers columns)) ↔
      Set.InjOn (columnName headers) {i | Selected headers columns i} := by
  have hrow : rowFields record headers columns =
      Json.insertAll [] ((selectedIndices headers columns).map fun i =>
        (columnName headers i, .str (record.get i))) := by
    rw [rowFields, selectColumns_eq, List.map_map]
    rfl
  have hset : {i | Selected headers columns i} =
      ((selectedIndices headers columns).toFinset : Set ℕ) := by
    ext i
    simp [mem_selectedIndices]
  constructor
  · rintro ⟨key, hinj, hget⟩
    rw [hset] at hinj ⊢
    have hmaps : ∀ i ∈ (selectedIndices headers columns).toFinset,
        key i ∈ (selectedIndices headers columns).toFinset.image (columnName headers) := by
      intro i hi
      have hi' := hget i (mem_selectedIndices.mp (List.mem_toFinset.mp hi))
      rw [Json.get, hrow] at hi'
      by_contra hnot
      rw [Json.lookup_insertAll_of_not_mem] at hi'
      · cases hi'
      · simpa using hnot
    have hcard := Finset.card_le_card_of_injOn key hmaps hinj
    exact Finset.card_image_iff.mp (Nat.le_antisymm Finset.card_image_le hcard)
  · intro hinj
    refine ⟨columnName headers, hinj, fun i hi => ?_⟩
    rw [Json.get, hrow]
    refine lookup_insertAll_of_forall ?_ fun e he hkey => ?_
    · rw [List.map_map]
      exact List.mem_map_of_mem (mem_selectedIndices.mpr hi)
    · obtain ⟨j, hj, rfl⟩ := List.mem_map.mp he
      rw [hinj (mem_selectedIndices.mp hj) hi hkey]

/-- Columns are addressed faithfully exactly when no name of a column is the number of another
one, and no two selected columns have the same name. -/
theorem faithful_iff (headers columns : List String) (filter_column : String) :
    Faithful headers columns filter_column ↔
      (∀ col ∈ filter_column :: columns, col ∈ headers → NamesColumn headers col) ∧
        Set.InjOn (columnName headers) {i | Selected headers columns i} := by
  rw [List.forall_mem_cons]
  constructor
  · intro h
    refine ⟨⟨fun hcol => (filterSelects_iff hcol).mp (h.filter hcol), fun col hmem hcol => ?_⟩, ?_⟩
    · exact (parseSelects_iff hcol).mp (h.parse col hmem hcol)
    · have hrows := h.complete [some (marked 0)]
      exact (rowComplete_iff (marked 0)).mp (List.forall₂_cons.mp hrows).1
  · rintro ⟨⟨hfilter, hparse⟩, hinj⟩
    refine ⟨fun col hmem hcol => ?_, fun hcol => ?_, fun results => ?_⟩
    · exact (parseSelects_iff hcol).mpr (hparse col hmem hcol)
    · exact (filterSelects_iff hcol).mpr (hfilter hcol)
    · rw [executeParse, List.forall₂_map_right_iff, List.forall₂_same]
      exact fun record _ => (rowComplete_iff record).mpr hinj

end

/-- The column named `0` is the second one. -/
theorem not_faithful_years : ¬Faithful ["name", "0"] ["0"] "name" := by
  intro h
  obtain ⟨i, -, hselect⟩ := h.parse "0" (by simp) (by simp)
  have hname := hselect (marked 0)
  rw [selectColumn, resolveColumnIndex, (by decide : parseUsize "0".toList = some 0)] at hname
  exact absurd (Prod.mk.inj (Option.some.inj hname)).1 (by decide)

end Arbeiterfarm.Tools.Csv
