import Arbeiterfarm.Foundation.Fallible

/-!
# Names of local tools

A local tool is described by a file; it is loaded only if its name consists of several segments
with dots between them.
-/

namespace Arbeiterfarm.Cli

open Foundation.Fallible

/-- The path of the file and what is wrong with it. -/
inductive LocalToolError where
  | validation (path msg : String)
  deriving DecidableEq, Repr

/-- `is_ascii_lowercase() || is_ascii_digit() || '_'`. -/
def isSegmentChar (c : Char) : Bool := c.isLower || c.isDigit || c = '_'

def validateSegment (name path : String) : List Char → Except LocalToolError Unit
  | [] => .error (.validation path s!"tool name has empty segment: \"{name}\"")
  | first :: rest =>
    let segment := String.ofList (first :: rest)
    if !first.isLower then
      .error (.validation path
        s!"each segment must start with a-z: \"{name}\" (segment \"{segment}\")")
    else if !(first :: rest).all isSegmentChar then
      .error (.validation path
        s!"segments must contain only a-z, 0-9, _ : \"{name}\" (segment \"{segment}\")")
    else .ok ()

/-- Validate a tool name: dotted lowercase, e.g. `custom.hash`, `my.tool.v2`. -/
def validateName (name path : String) : Except LocalToolError Unit :=
  if '.' ∉ name.toList then
    .error (.validation path
      s!"tool name must contain at least one dot (e.g. \"custom.hash\"): \"{name}\"")
  else (name.toList.splitOn '.').forM (validateSegment name path)

/-! ### Accepted names -/

/-- `[a-z][a-z0-9_]*`. -/
def IsSegment (segment : List Char) : Prop :=
  ∃ first rest, segment = first :: rest ∧ first.isLower ∧ ∀ c ∈ rest, isSegmentChar c

/-- Two or more segments with dots between them. -/
def IsDotted (name : String) : Prop :=
  '.' ∈ name.toList ∧ ∀ segment ∈ name.toList.splitOn '.', IsSegment segment

lemma isSegmentChar_of_isLower {c : Char} (h : c.isLower) : isSegmentChar c := by
  simp [isSegmentChar, h]

lemma validateSegment_eq_ok_iff {name path : String} {segment : List Char} :
    validateSegment name path segment = .ok () ↔ IsSegment segment := by
  cases segment with
  | nil => simp [validateSegment, IsSegment]
  | cons first rest =>
    rw [validateSegment]
    by_cases hfirst : first.isLower
    · have hall : (first :: rest).all isSegmentChar ↔ ∀ c ∈ rest, isSegmentChar c := by
        simp [isSegmentChar_of_isLower hfirst]
      by_cases hrest : ∀ c ∈ rest, isSegmentChar c
      · simp only [hfirst, hall.mpr hrest, IsSegment]
        exact ⟨fun _ => ⟨first, rest, rfl, hfirst, hrest⟩, fun _ => rfl⟩
      · have hrejected : ¬IsSegment (first :: rest) := by
          rintro ⟨first', rest', heq, -, h⟩
          obtain ⟨rfl, rfl⟩ := List.cons.inj heq
          exact hrest h
        simp [hfirst, mt hall.mp hrest, hrejected]
    · simp [hfirst, IsSegment]

theorem validateName_eq_ok_iff {name path : String} :
    validateName name path = .ok () ↔ IsDotted name := by
  rw [validateName, IsDotted]
  by_cases hdot : '.' ∈ name.toList
  · rw [if_neg (not_not_intro hdot), forM_eq_ok_iff]
    simp only [hdot, true_and, validateSegment_eq_ok_iff]
  · simp [hdot]

end Arbeiterfarm.Cli
