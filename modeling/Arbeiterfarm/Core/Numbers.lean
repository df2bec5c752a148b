import Mathlib.Data.Int.Notation
import Mathlib.Data.Nat.Notation

/-!
# Times, and numbers in texts

A `TIMESTAMPTZ` of the database is a number of microseconds.
-/

namespace Arbeiterfarm

def minutes (n : ℤ) : ℤ := n * 60000000

def days (n : ℤ) : ℤ := n * 86400000000

/-- A sign and decimal digits. -/
def parseDecimal (s : List Char) : Option ℕ :=
  let digits := match s with
    | '+' :: cs => cs
    | cs => cs
  if digits.isEmpty || !digits.all Char.isDigit then none else some (Nat.ofDigitChars 10 digits 0)

lemma parseDecimal_of_digits {s : List Char} (hne : s ≠ []) (h : ∀ c ∈ s, c.isDigit) :
    parseDecimal s = some (Nat.ofDigitChars 10 s 0) := by
  have hvalid : ¬ (s.isEmpty || !s.all Char.isDigit) = true := by
    rw [List.all_eq_true.mpr h, Bool.not_true, Bool.or_false, List.isEmpty_iff]
    exact hne
  rw [parseDecimal]
  · exact if_neg hvalid
  · -- no digit is a sign
    rintro cs rfl
    have hdigit := h '+' List.mem_cons_self
    cases hdigit

/-- `str::parse::<usize>`: a number that fits. -/
def parseUsize (s : List Char) : Option ℕ :=
  (parseDecimal s).filter (· < 18446744073709551616)

end Arbeiterfarm
