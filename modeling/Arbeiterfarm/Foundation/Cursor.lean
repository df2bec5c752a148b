import Mathlib.Data.Set.Basic
import Mathlib.Data.List.Nodup
import Mathlib.Order.Lattice
import Mathlib.Order.Nat

/-!
# Readers with a cursor

A reader sees numbered entries once each: it asks for the entries above its cursor and moves the
cursor to the largest number it was given. Entries may appear late, below numbers that are
already there, so every move of the cursor has to be above none of the entries to come.
-/

namespace Foundation

/-- A reader: how far it has read, and what it has seen. -/
structure Reader where
  cursor : ℕ
  seen : List ℕ

namespace Reader

/-- Of the numbers `due`, the reader has seen those up to its cursor, each once. -/
structure UpToDate (due : Set ℕ) (r : Reader) : Prop where
  seen_of_le : ∀ n ∈ due, n ≤ r.cursor → n ∈ r.seen
  nodup : r.seen.Nodup
  le_cursor : ∀ n ∈ r.seen, n ≤ r.cursor

variable {due due' : Set ℕ} {r : Reader}

/-- New entries have numbers above the cursor. -/
lemma UpToDate.grow (h : r.UpToDate due) (hdue : ∀ n ∈ due', n ∈ due ∨ r.cursor < n) :
    r.UpToDate due' where
  seen_of_le n hn hle := by
    rcases hdue n hn with hn | hlt
    · exact h.seen_of_le n hn hle
    · exact absurd hle (Nat.not_le_of_lt hlt)
  nodup := h.nodup
  le_cursor := h.le_cursor

/-- Move the cursor without reading. -/
def advance (r : Reader) (cursor : ℕ) : Reader := ⟨max r.cursor cursor, r.seen⟩

lemma UpToDate.advance (h : r.UpToDate due) {cursor : ℕ}
    (hskip : ∀ n ∈ due, r.cursor < n → cursor < n) : (r.advance cursor).UpToDate due where
  seen_of_le n hn hle := by
    refine h.seen_of_le n hn (Nat.le_of_not_lt fun hlt => ?_)
    exact absurd hle (Nat.not_le_of_lt (max_lt hlt (hskip n hn hlt)))
  nodup := h.nodup
  le_cursor n hn := (h.le_cursor n hn).trans (le_max_left _ _)

/-- Read the given entries. -/
def read (r : Reader) (ns : List ℕ) : Reader := ⟨ns.foldl max r.cursor, r.seen ++ ns⟩

lemma le_foldl_max (ns : List ℕ) (c : ℕ) : c ≤ ns.foldl max c := by
  induction ns generalizing c with
  | nil => exact Nat.le_refl _
  | cons n ns ih => exact (le_max_left c n).trans (ih _)

lemma mem_le_foldl_max {ns : List ℕ} {n : ℕ} (hn : n ∈ ns) (c : ℕ) : n ≤ ns.foldl max c := by
  induction ns generalizing c with
  | nil => exact absurd hn List.not_mem_nil
  | cons m ns ih =>
    obtain rfl | hn := List.mem_cons.mp hn
    · exact (le_max_right c n).trans (le_foldl_max ns _)
    · exact ih hn _

lemma foldl_max_lt {ns : List ℕ} {c n : ℕ} (hc : c < n) (hns : ∀ m ∈ ns, m < n) :
    ns.foldl max c < n := by
  induction ns generalizing c with
  | nil => exact hc
  | cons m ns ih =>
    exact ih (max_lt hc (hns m List.mem_cons_self)) fun k hk =>
      hns k (List.mem_cons_of_mem _ hk)

/-- The entries that are read are new, and those that are missed come after them. -/
lemma UpToDate.read (h : r.UpToDate due) {ns : List ℕ} (hnodup : ns.Nodup)
    (hnew : ∀ n ∈ ns, r.cursor < n)
    (hskip : ∀ n ∈ due, r.cursor < n → n ∉ ns → ∀ m ∈ ns, m < n) : (r.read ns).UpToDate due where
  seen_of_le n hn hle := by
    refine List.mem_append.mpr ?_
    by_contra hnot
    obtain ⟨hseen, hns⟩ := not_or.mp hnot
    have hlt : r.cursor < n := Nat.lt_of_not_le fun hle => hseen (h.seen_of_le n hn hle)
    exact absurd hle (Nat.not_le_of_lt (foldl_max_lt hlt (hskip n hn hlt hns)))
  nodup := by
    refine List.nodup_append.mpr ⟨h.nodup, hnodup, ?_⟩
    rintro n hseen _ hns rfl
    exact absurd (h.le_cursor n hseen) (Nat.not_le_of_lt (hnew n hns))
  le_cursor n hn := by
    obtain hn | hn := List.mem_append.mp hn
    · exact (h.le_cursor n hn).trans (le_foldl_max ns _)
    · exact mem_le_foldl_max hn _

end Reader

end Foundation
