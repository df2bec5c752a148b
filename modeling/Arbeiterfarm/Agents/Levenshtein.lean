import Arbeiterfarm.Core.Bytes
import Arbeiterfarm.Foundation.EditDistance
import Arbeiterfarm.Foundation.Fallible

/-!
# The distance of tool names

`levenshtein` keeps two rows of the distance table and swaps them after each byte of the first
name. Row `i` holds the distances from the first `i` bytes to the beginnings of the second name. So
the distance is the least number of edits.
-/

namespace Arbeiterfarm.Agents

open Foundation.EditDistance Foundation.Fallible

/-! ### The two rows -/

structure DistanceRows where
  prev : List ℕ
  curr : List ℕ

/-- `row[j] = v`; there is no entry past the end. -/
def setEntry (row : List ℕ) (j v : ℕ) : Option (List ℕ) :=
  if j < row.length then some (row.set j v) else none

namespace DistanceRows

/-- A turn of the inner loop. -/
def fillEntry (a_bytes b_bytes : List UInt8) (i : ℕ) (rows : DistanceRows) (j : ℕ) :
    Option DistanceRows := do
  let cost := if (← a_bytes[i - 1]?) = (← b_bytes[j - 1]?) then 0 else 1
  let above := (← rows.prev[j]?) + 1
  let left := (← rows.curr[j - 1]?) + 1
  let diag := (← rows.prev[j - 1]?) + cost
  return { rows with curr := ← setEntry rows.curr j (min (min above left) diag) }

/-- A turn of the outer loop; the rows are swapped in the end. -/
def fillRow (a_bytes b_bytes : List UInt8) (rows : DistanceRows) (i : ℕ) :
    Option DistanceRows := do
  let rows := { rows with curr := ← setEntry rows.curr 0 i }
  let rows ← (List.range' 1 b_bytes.length).foldlM (fillEntry a_bytes b_bytes i) rows
  return ⟨rows.curr, rows.prev⟩

def initial (n : ℕ) : DistanceRows := ⟨List.range (n + 1), List.replicate (n + 1) 0⟩

/-- The distance as the loops compute it; an index out of bounds is a panic (`none`). -/
def levenshtein (a b : String) : Option ℕ := do
  let a_bytes := utf8 a.toList
  let b_bytes := utf8 b.toList
  let rows ← (List.range' 1 a_bytes.length).foldlM (fillRow a_bytes b_bytes)
    (initial b_bytes.length)
  rows.prev[b_bytes.length]?

end DistanceRows

/-! ### Filled rows -/

/-- The entries of row `i` are right up to column `j`. -/
structure Filled (as bs : List UInt8) (i j : ℕ) (row : List ℕ) : Prop where
  length_eq : row.length = bs.length + 1
  getElem?_eq : ∀ k ≤ j, row[k]? = some (editDistance (as.take i) (bs.take k))

namespace Filled

variable {as bs : List UInt8} {i j : ℕ} {row : List ℕ}

lemma range : Filled as bs 0 bs.length (List.range (bs.length + 1)) where
  length_eq := List.length_range
  getElem?_eq k hk := by
    rw [List.getElem?_range (Nat.lt_succ_of_le hk), List.take_zero, editDistance_nil_left,
      List.length_take, Nat.min_eq_left hk]

lemma first (as : List UInt8) (hlength : row.length = bs.length + 1) (hi : i ≤ as.length) :
    ∃ row', setEntry row 0 i = some row' ∧ Filled as bs i 0 row' := by
  have hpos : 0 < row.length := by simp [hlength]
  refine ⟨row.set 0 i, if_pos hpos, ?_, ?_⟩
  · rw [List.length_set, hlength]
  · intro k hk
    obtain rfl := Nat.le_zero.mp hk
    rw [List.getElem?_set_self hpos, List.take_zero, editDistance_nil_right, List.length_take,
      Nat.min_eq_left hi]

lemma next (hrow : Filled as bs i j row) (hj : j < bs.length) {v : ℕ}
    (hv : v = editDistance (as.take i) (bs.take (j + 1))) :
    ∃ row', setEntry row (j + 1) v = some row' ∧ Filled as bs i (j + 1) row' := by
  have hlt : j + 1 < row.length := by simpa [hrow.length_eq] using hj
  refine ⟨row.set (j + 1) v, if_pos hlt, ?_, ?_⟩
  · rw [List.length_set, hrow.length_eq]
  · intro k hk
    rcases Nat.lt_or_eq_of_le hk with hk | rfl
    · rw [List.getElem?_set_ne (Nat.ne_of_gt hk)]
      exact hrow.getElem?_eq k (Nat.lt_succ_iff.mp hk)
    · rw [List.getElem?_set_self hlt, hv]

end Filled

namespace DistanceRows

variable {as bs : List UInt8} {i : ℕ}

lemma fillEntry_filled (hi : i < as.length) {rows : DistanceRows} {j : ℕ} (hj : j < bs.length)
    (hprev : Filled as bs i bs.length rows.prev) (hcurr : Filled as bs (i + 1) j rows.curr) :
    ∃ rows', fillEntry as bs (i + 1) rows (1 + j) = some rows' ∧ rows'.prev = rows.prev ∧
      Filled as bs (i + 1) (j + 1) rows'.curr := by
  obtain ⟨curr, hset, hfilled⟩ := hcurr.next hj (editDistance_take_succ hi hj).symm
  refine ⟨{ rows with curr }, ?_, rfl, hfilled⟩
  rw [fillEntry, Nat.add_comm 1 j, Nat.add_sub_cancel, Nat.add_sub_cancel]
  simp only [List.getElem?_eq_getElem hi, List.getElem?_eq_getElem hj,
    hprev.getElem?_eq (j + 1) hj, hprev.getElem?_eq j hj.le, hcurr.getElem?_eq j le_rfl,
    Option.bind_eq_bind, Option.bind_some]
  rw [cost] at hset
  rw [hset]
  rfl

lemma fillRow_filled (hi : i < as.length) {rows : DistanceRows}
    (hprev : Filled as bs i bs.length rows.prev) (hcurr : rows.curr.length = bs.length + 1) :
    ∃ rows', fillRow as bs rows (1 + i) = some rows' ∧
      Filled as bs (i + 1) bs.length rows'.prev ∧ rows'.curr.length = bs.length + 1 := by
  obtain ⟨curr, hset, hfirst⟩ := Filled.first as hcurr hi
  -- the inner loop leaves `prev` alone and fills one entry of `curr` after the other
  obtain ⟨rows', hrun, hprev', hcurr'⟩ := exists_foldlM_range' (a := 1) (n := bs.length)
    (f := fillEntry as bs (i + 1)) (s := { rows with curr })
    (P := fun j rows' => rows'.prev = rows.prev ∧ Filled as bs (i + 1) j rows'.curr)
    (fun j hj rows' h => by
      obtain ⟨rows'', hentry, hprev'', hcurr''⟩ :=
        fillEntry_filled hi hj (h.1 ▸ hprev) h.2
      exact ⟨rows'', hentry, hprev''.trans h.1, hcurr''⟩)
    ⟨rfl, hfirst⟩
  refine ⟨⟨rows'.curr, rows'.prev⟩, ?_, hcurr', ?_⟩
  · rw [fillRow, Nat.add_comm 1 i, hset]
    simp only [Option.bind_eq_bind, Option.bind_some, hrun]
    rfl
  · rw [hprev']
    exact hprev.length_eq

/-- The loops never leave the rows and end with the distance of the bytes. -/
lemma levenshtein_eq (a b : String) :
    levenshtein a b = some (editDistance (utf8 a.toList) (utf8 b.toList)) := by
  obtain ⟨rows, hrun, hprev, -⟩ := exists_foldlM_range' (a := 1) (n := (utf8 a.toList).length)
    (f := fillRow (utf8 a.toList) (utf8 b.toList)) (s := initial (utf8 b.toList).length)
    (P := fun i rows => Filled (utf8 a.toList) (utf8 b.toList) i (utf8 b.toList).length rows.prev ∧
      rows.curr.length = (utf8 b.toList).length + 1)
    (fun i hi rows h => fillRow_filled hi h.1 h.2) ⟨Filled.range, List.length_replicate⟩
  rw [levenshtein, hrun]
  simp only [Option.bind_eq_bind, Option.bind_some]
  rw [hprev.getElem?_eq _ le_rfl, List.take_length, List.take_length]

end DistanceRows

/-! ### The distance -/

/-- The distance of the names, which the loops always find. -/
def levenshtein (a b : String) : ℕ := (DistanceRows.levenshtein a b).getD 0

lemma levenshtein_eq_editDistance (a b : String) :
    levenshtein a b = editDistance (utf8 a.toList) (utf8 b.toList) := by
  rw [levenshtein, DistanceRows.levenshtein_eq, Option.getD_some]

theorem levenshtein_is_editDistance (a b : String) :
    DistanceRows.levenshtein a b = some (editDistance (utf8 a.toList) (utf8 b.toList)) ∧
      levenshtein a b = editDistance (utf8 a.toList) (utf8 b.toList) ∧
      DistanceRows.levenshtein a b = DistanceRows.levenshtein b a ∧
      (DistanceRows.levenshtein a b = some 0 ↔ a = b) := by
  refine ⟨DistanceRows.levenshtein_eq a b, levenshtein_eq_editDistance a b, ?_, ?_⟩
  · rw [DistanceRows.levenshtein_eq, DistanceRows.levenshtein_eq, editDistance_comm]
  · rw [DistanceRows.levenshtein_eq, Option.some.injEq, editDistance_eq_zero_iff]
    exact utf8_injective.eq_iff.trans String.toList_inj

end Arbeiterfarm.Agents
