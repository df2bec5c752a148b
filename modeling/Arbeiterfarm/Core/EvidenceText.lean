import Arbeiterfarm.Core.Evidence
import Mathlib.Data.Nat.Log
import Mathlib.Tactic.Ring

/-!
# References in texts

A reference is written with the text of its id and read back. An id is written as hexadecimal
digits in five groups with hyphens between them; four of the groups have a fixed number of digits,
and the first has eight, unless the number is too large for them.
-/

namespace Arbeiterfarm

namespace Uuid

/-! ### Digits of ids -/

/-- The last `k` digits of a number. -/
def lowDigits : ℕ → ℕ → List Char
  | 0, _     => []
  | k + 1, n => lowDigits k (n / 16) ++ [Nat.digitChar (n % 16)]

def digitValue (c : Char) : Option ℕ :=
  if '0' ≤ c ∧ c ≤ '9' then some (c.toNat - 48)
  else if 'a' ≤ c ∧ c ≤ 'f' then some (c.toNat - 87)
  else if 'A' ≤ c ∧ c ≤ 'F' then some (c.toNat - 55)
  else none

/-- Read digits behind those of `value`. -/
def readDigits (value : ℕ) : List Char → Option ℕ
  | []      => some value
  | c :: cs => (digitValue c).bind fun digit => readDigits (value * 16 + digit) cs

lemma readDigits_append (value : ℕ) (cs ds : List Char) :
    readDigits value (cs ++ ds) = (readDigits value cs).bind (readDigits · ds) := by
  induction cs generalizing value with
  | nil => rfl
  | cons c cs ih =>
    rw [List.cons_append, readDigits, readDigits, Option.bind_assoc]
    simp only [ih]

lemma digitChar_spec : ∀ n < 16, digitValue (Nat.digitChar n) = some n ∧ Nat.digitChar n ≠ '-' := by
  decide

lemma readDigits_lowDigits (value k n : ℕ) :
    readDigits value (lowDigits k n) = some (value * 16 ^ k + n % 16 ^ k) := by
  induction k generalizing n with
  | zero => simp [lowDigits, readDigits, Nat.mod_one]
  | succ k ih =>
    have hdigit := (digitChar_spec (n % 16) (Nat.mod_lt n (Nat.zero_lt_succ 15))).1
    have hmod : n % 16 ^ (k + 1) = n / 16 % 16 ^ k * 16 + n % 16 := by
      rw [pow_succ', Nat.mod_mul, Nat.add_comm, Nat.mul_comm]
    rw [lowDigits, readDigits_append, ih, Option.bind_some, readDigits, hdigit, Option.bind_some,
      readDigits, hmod, pow_succ]
    congr 1
    ring

lemma hyphen_not_mem_lowDigits (k n : ℕ) : '-' ∉ lowDigits k n := by
  induction k generalizing n with
  | zero => simp [lowDigits]
  | succ k ih =>
    have hdigit := (digitChar_spec (n % 16) (Nat.mod_lt n (Nat.zero_lt_succ 15))).2
    simp [lowDigits, ih, hdigit.symm]

lemma length_lowDigits (k n : ℕ) : (lowDigits k n).length = k := by
  induction k generalizing n with
  | zero => rfl
  | succ k ih => rw [lowDigits, List.length_append, ih, List.length_singleton]

/-! ### Groups of digits -/

def firstGroup (n : ℕ) : List Char := lowDigits (max 8 (Nat.log 16 n + 1)) n

def groups (id : Uuid) : List (List Char) :=
  [firstGroup (id / 16 ^ 24), lowDigits 4 (id / 16 ^ 20), lowDigits 4 (id / 16 ^ 16),
    lowDigits 4 (id / 16 ^ 12), lowDigits 12 (id / 16 ^ 0)]

def toHyphenated (id : Uuid) : String := String.ofList (['-'].intercalate (groups id))

/-- Read the hyphenated form, in either case. -/
def parseHyphenated (s : String) : Option Uuid :=
  match s.toList.splitOn '-' with
  | [a, b, c, d, e] =>
    if 8 ≤ a.length ∧ b.length = 4 ∧ c.length = 4 ∧ d.length = 4 ∧ e.length = 12 then
      readDigits 0 (a ++ (b ++ (c ++ (d ++ e))))
    else none
  | _ => none

lemma readDigits_firstGroup (n : ℕ) : readDigits 0 (firstGroup n) = some n := by
  have hlt : n < 16 ^ max 8 (Nat.log 16 n + 1) := by
    apply (Nat.lt_pow_succ_log_self (Nat.one_lt_succ_succ 14) n).trans_le
    exact Nat.pow_le_pow_right (Nat.zero_lt_succ 15) (le_max_right _ _)
  rw [firstGroup, readDigits_lowDigits, Nat.zero_mul, Nat.zero_add, Nat.mod_eq_of_lt hlt]

/-- The digits of a group continue those before it. -/
lemma readDigits_group (id j k : ℕ) :
    readDigits (id / 16 ^ (k + j)) (lowDigits j (id / 16 ^ k)) = some (id / 16 ^ k) := by
  rw [readDigits_lowDigits, pow_add, ← Nat.div_div_eq_div_mul, Nat.div_add_mod']

/-- An id is read back from its text. -/
lemma parseHyphenated_toHyphenated (id : Uuid) : parseHyphenated (toHyphenated id) = some id := by
  have hsplit : (toHyphenated id).toList.splitOn '-' = groups id := by
    rw [toHyphenated, String.toList_ofList]
    refine List.splitOn_intercalate '-' ?_ (by simp [groups])
    intro group hgroup
    simp only [groups, List.mem_cons, List.not_mem_nil, or_false] at hgroup
    obtain rfl | rfl | rfl | rfl | rfl := hgroup <;> exact hyphen_not_mem_lowDigits _ _
  rw [parseHyphenated, hsplit]
  simp only [groups, firstGroup, length_lowDigits, le_max_left, and_self, if_true]
  rw [← firstGroup, readDigits_append, readDigits_firstGroup, Option.bind_some, readDigits_append,
    readDigits_group id 4 20, Option.bind_some, readDigits_append, readDigits_group id 4 16,
    Option.bind_some, readDigits_append, readDigits_group id 4 12, Option.bind_some,
    readDigits_group id 12 0, pow_zero, Nat.div_one]

end Uuid

namespace EvidenceRef

/-! ### References -/

/-- The parts of the reference can be told apart when it is written. -/
def Readable : EvidenceRef → Prop
  | .artifact _ | .toolRun _ | .message _ => True
  | .plugin namespace_ kind _ =>
    namespace_ ∉ ["artifact", "tool_run", "message"] ∧ ':' ∉ namespace_.toList ∧
      ':' ∉ kind.toList

variable {parseUuid : String → Option Uuid} {printUuid : Uuid → String}

lemma parse_toInline_of_readable (hprint : ∀ id, parseUuid (printUuid id) = some id)
    {ref : EvidenceRef} (h : ref.Readable) :
    parse parseUuid (ref.toInline printUuid) = some ref := by
  apply parse_toInline parseUuid hprint
  rintro ns kind id rfl
  exact h

/-- What is read from a text has parts that can be told apart. -/
lemma readable_of_parse {s : List Char} {ref : EvidenceRef} (h : parse parseUuid s = some ref) :
    ref.Readable := by
  cases (parse_eq_some_iff parseUuid).mp h with
  | artifact _ | toolRun _ | message _ => trivial
  | plugin hreserved hns hkind => exact ⟨hreserved, hns, hkind⟩

/-- References that were read, and those whose parts can be told apart, are read back. -/
theorem parse_undoes_toInline (hprint : ∀ id, parseUuid (printUuid id) = some id) :
    (∀ (s : List Char) (ref : EvidenceRef), parse parseUuid s = some ref →
      parse parseUuid (ref.toInline printUuid) = some ref) ∧
    ∀ ref : EvidenceRef, ref.Readable → parse parseUuid (ref.toInline printUuid) = some ref :=
  ⟨fun _ _ h => parse_toInline_of_readable hprint (readable_of_parse h),
    fun _ h => parse_toInline_of_readable hprint h⟩

/-- A reference to an artifact, with an id in capital letters. -/
def capitals : String := "evidence:artifact:550E8400-E29B-41D4-A716-446655440000"

def artifactRef : EvidenceRef := .artifact 0x550e8400e29b41d4a716446655440000

/-- The id of a plugin's record may have colons. -/
def indicatorRef : EvidenceRef := .plugin "re" "ioc" "url:http://a/"

theorem parse_undoes_toInline_hyphenated :
    parse Uuid.parseHyphenated (artifactRef.toInline Uuid.toHyphenated) = some artifactRef ∧
      parse Uuid.parseHyphenated (indicatorRef.toInline Uuid.toHyphenated) = some indicatorRef := by
  have hread : parse Uuid.parseHyphenated capitals.toList = some artifactRef := by
    decide +kernel
  have hreadable : indicatorRef.Readable := by
    simp [indicatorRef, Readable]
  have hback := parse_undoes_toInline Uuid.parseHyphenated_toHyphenated
  exact ⟨hback.1 capitals.toList artifactRef hread, hback.2 indicatorRef hreadable⟩

example : String.ofList (artifactRef.toInline Uuid.toHyphenated) =
    "evidence:artifact:550e8400-e29b-41d4-a716-446655440000" := by
  decide +kernel

end EvidenceRef

end Arbeiterfarm
