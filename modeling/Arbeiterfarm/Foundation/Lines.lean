import Mathlib.Data.List.Basic

/-!
# Lines of a growing buffer

A reader appends text to a buffer and cuts off the complete lines; what stays is the line that no
newline has ended yet. How the text is divided into appends makes no difference to the lines that
are cut off in the end.
-/

namespace Foundation

/-- The complete lines of a text, without their newlines, and what follows the last of them. -/
def cutLines : List Char → List (List Char) × List Char
  | [] => ([], [])
  | c :: cs =>
    if c = '\n' then ([] :: (cutLines cs).1, (cutLines cs).2)
    else
      match (cutLines cs).1 with
      | [] => ([], c :: (cutLines cs).2)
      | line :: lines => ((c :: line) :: lines, (cutLines cs).2)

@[simp] lemma cutLines_nil : cutLines [] = ([], []) := rfl

lemma cutLines_newline (cs : List Char) :
    cutLines ('\n' :: cs) = ([] :: (cutLines cs).1, (cutLines cs).2) := by
  simp [cutLines]

lemma cutLines_cons_of_nil {c : Char} {cs : List Char} (hc : c ≠ '\n')
    (h : (cutLines cs).1 = []) : cutLines (c :: cs) = ([], c :: (cutLines cs).2) := by
  simp [cutLines, hc, h]

lemma cutLines_cons_of_cons {c : Char} {cs : List Char} {line : List Char}
    {lines : List (List Char)} (hc : c ≠ '\n') (h : (cutLines cs).1 = line :: lines) :
    cutLines (c :: cs) = ((c :: line) :: lines, (cutLines cs).2) := by
  simp [cutLines, hc, h]

/-- Text that is appended continues the line that is still open. -/
theorem cutLines_append (xs ys : List Char) :
    cutLines (xs ++ ys) = ((cutLines xs).1 ++ (cutLines ((cutLines xs).2 ++ ys)).1,
      (cutLines ((cutLines xs).2 ++ ys)).2) := by
  induction xs with
  | nil => simp
  | cons c cs ih =>
    by_cases hc : c = '\n'
    · subst hc
      rw [List.cons_append, cutLines_newline, cutLines_newline, ih]
      rfl
    · cases hcs : (cutLines cs).1 with
      | nil =>
        rw [cutLines_cons_of_nil hc hcs]
        rw [hcs] at ih
        -- the character joins the line that is open at the end of `cs`
        show cutLines (c :: (cs ++ ys)) = _
        simp only [List.nil_append, List.cons_append] at ih ⊢
        simp only [cutLines, hc, if_false, ih]
      | cons line lines =>
        rw [cutLines_cons_of_cons hc hcs]
        rw [hcs] at ih
        have hlines : (cutLines (cs ++ ys)).1 =
            line :: (lines ++ (cutLines ((cutLines cs).2 ++ ys)).1) := by rw [ih, List.cons_append]
        show cutLines (c :: (cs ++ ys)) = _
        rw [cutLines_cons_of_cons hc hlines, ih]
        rfl

/-- The open line has no newline. -/
lemma newline_not_mem_rest (cs : List Char) : '\n' ∉ (cutLines cs).2 := by
  induction cs with
  | nil => simp
  | cons c cs ih =>
    by_cases hc : c = '\n'
    · subst hc
      rwa [cutLines_newline]
    · cases hcs : (cutLines cs).1 with
      | nil =>
        rw [cutLines_cons_of_nil hc hcs]
        simpa [Ne.symm hc] using ih
      | cons line lines => rwa [cutLines_cons_of_cons hc hcs]

/-- A newline ends the open line. -/
lemma cutLines_append_newline (cs : List Char) :
    cutLines (cs ++ ['\n']) = ((cutLines cs).1 ++ [(cutLines cs).2], []) := by
  have hopen {line : List Char} (h : '\n' ∉ line) : cutLines (line ++ ['\n']) = ([line], []) := by
    induction line with
    | nil => simp [cutLines]
    | cons c line ih =>
      simp only [List.mem_cons, not_or] at h
      rw [List.cons_append, cutLines_cons_of_cons (Ne.symm h.1) (by rw [ih h.2]), ih h.2]
  rw [cutLines_append, hopen (newline_not_mem_rest cs)]

end Foundation
