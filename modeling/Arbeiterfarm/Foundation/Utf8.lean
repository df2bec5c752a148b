import Mathlib.Data.List.Basic

/-!
# UTF-8 with replacement characters

A decoder for arbitrary bytes: well-formed sequences become their character, every maximal part
of a sequence that breaks off becomes one U+FFFD, and so does every byte that starts nothing.
Between two bytes the decoder only remembers the sequence that it is in.

Bytes that are decoded piece by piece give the text of the whole exactly when no cut between two
pieces lies inside a sequence (`decodePieces_eq_iff`).
-/

namespace Foundation.Utf8

abbrev Byte := UInt8

/-- A sequence that is not complete: how many bytes are missing, the least and the greatest value
of the next one, and the bits read so far. -/
structure Partial where
  missing : ℕ
  lo : ℕ
  hi : ℕ
  bits : ℕ
  deriving DecidableEq, Repr

def replacement : Char := Char.ofNat 0xFFFD

/-- What a byte is at the start of a sequence. -/
inductive Lead where
  | char (c : Char)
  | sequence (p : Partial)
  | invalid

def lead (b : ℕ) : Lead :=
  if b < 0x80 then .char (Char.ofNat b)
  else if b < 0xC2 then .invalid
  else if b < 0xE0 then .sequence ⟨1, 0x80, 0xBF, b - 0xC0⟩
  else if b = 0xE0 then .sequence ⟨2, 0xA0, 0xBF, 0⟩
  else if b = 0xED then .sequence ⟨2, 0x80, 0x9F, b - 0xE0⟩
  else if b < 0xF0 then .sequence ⟨2, 0x80, 0xBF, b - 0xE0⟩
  else if b = 0xF0 then .sequence ⟨3, 0x90, 0xBF, 0⟩
  else if b < 0xF4 then .sequence ⟨3, 0x80, 0xBF, b - 0xF0⟩
  else if b = 0xF4 then .sequence ⟨3, 0x80, 0x8F, 4⟩
  else .invalid

/-- The byte continues the sequence. -/
def Partial.continuedBy (p : Partial) (b : Byte) : Prop := p.lo ≤ b.toNat ∧ b.toNat ≤ p.hi

instance (p : Partial) (b : Byte) : Decidable (p.continuedBy b) :=
  inferInstanceAs (Decidable (p.lo ≤ b.toNat ∧ b.toNat ≤ p.hi))

/-- A byte between two sequences. -/
def start (b : Byte) : List Char × Option Partial :=
  match lead b.toNat with
  | .char c => ([c], none)
  | .sequence p => ([], some p)
  | .invalid => ([replacement], none)

/-- A byte inside a sequence; one that does not continue it starts over. -/
def advance (p : Partial) (b : Byte) : List Char × Option Partial :=
  if p.continuedBy b then
    let bits := p.bits * 64 + (b.toNat - 0x80)
    if p.missing = 1 then ([Char.ofNat bits], none)
    else ([], some ⟨p.missing - 1, 0x80, 0xBF, bits⟩)
  else (replacement :: (start b).1, (start b).2)

def step (state : Option Partial) (b : Byte) : List Char × Option Partial :=
  match state with
  | none => start b
  | some p => advance p b

/-- What a sequence that breaks off leaves behind. -/
def flush : Option Partial → List Char
  | none => []
  | some _ => [replacement]

@[simp] lemma flush_none : flush none = [] := rfl

@[simp] lemma flush_some (p : Partial) : flush (some p) = [replacement] := rfl

/-- The characters that the bytes complete, and the state after them. -/
def scan (state : Option Partial) : List Byte → List Char × Option Partial
  | [] => ([], state)
  | b :: bs => ((step state b).1 ++ (scan (step state b).2 bs).1, (scan (step state b).2 bs).2)

/-- The text of the bytes from a state on. -/
def decodeFrom (state : Option Partial) (bs : List Byte) : List Char :=
  (scan state bs).1 ++ flush (scan state bs).2

def decode (bs : List Byte) : List Char := decodeFrom none bs

/-- The pieces decoded one by one. -/
def decodePieces (pieces : List (List Byte)) : List Char := pieces.flatMap decode

/-! ### Composition -/

@[simp] lemma scan_nil (state : Option Partial) : scan state [] = ([], state) := rfl

lemma decodeFrom_nil (state : Option Partial) : decodeFrom state [] = flush state := rfl

lemma decodeFrom_cons (state : Option Partial) (b : Byte) (bs : List Byte) :
    decodeFrom state (b :: bs) = (step state b).1 ++ decodeFrom (step state b).2 bs := by
  simp [decodeFrom, scan]

lemma scan_append (state : Option Partial) (as bs : List Byte) :
    scan state (as ++ bs) = ((scan state as).1 ++ (scan (scan state as).2 bs).1,
      (scan (scan state as).2 bs).2) := by
  induction as generalizing state with
  | nil => simp
  | cons a as ih => simp [scan, ih]

lemma decodeFrom_append (state : Option Partial) (as bs : List Byte) :
    decodeFrom state (as ++ bs) = (scan state as).1 ++ decodeFrom (scan state as).2 bs := by
  simp [decodeFrom, scan_append]

/-- A byte that does not continue the sequence ends it. -/
lemma decodeFrom_of_not_continued {p : Partial} {bs : List Byte}
    (h : ∀ b ∈ bs.head?, ¬ p.continuedBy b) :
    decodeFrom (some p) bs = replacement :: decodeFrom none bs := by
  cases bs with
  | nil => rfl
  | cons b bs =>
    have hb : ¬ p.continuedBy b := h b rfl
    simp [decodeFrom_cons, step, advance, hb]

/-- A continuation byte starts nothing. -/
lemma start_of_continued {p : Partial} {b : Byte} (hlo : 0x80 ≤ p.lo) (hhi : p.hi ≤ 0xBF)
    (h : p.continuedBy b) : start b = ([replacement], none) := by
  have hge : ¬ b.toNat < 0x80 := Nat.not_lt.mpr (Nat.le_trans hlo h.1)
  have hlt : b.toNat < 0xC2 := Nat.lt_of_le_of_lt (Nat.le_trans h.2 hhi) (by decide)
  rw [start, lead, if_neg hge, if_pos hlt]

/-- The bounds on the next byte are bounds on continuation bytes. -/
def Partial.Proper (p : Partial) : Prop := 0x80 ≤ p.lo ∧ p.hi ≤ 0xBF

/-- A sequence that the byte opens has bounds on continuation bytes. -/
def Lead.Proper (l : Lead) : Prop := ∀ p, l = .sequence p → p.Proper

lemma Lead.Proper.ite {c : Prop} [Decidable c] {l m : Lead} (hl : l.Proper) (hm : m.Proper) :
    (if c then l else m).Proper := by
  by_cases hc : c
  · rwa [if_pos hc]
  · rwa [if_neg hc]

lemma Lead.Proper.sequence {p : Partial} (hp : p.Proper) : (Lead.sequence p).Proper := by
  intro q heq
  obtain rfl := Lead.sequence.inj heq
  exact hp

lemma Lead.Proper.invalid : Lead.invalid.Proper := fun _ h => nomatch h

lemma proper_lead (b : ℕ) : (lead b).Proper := by
  rw [lead]
  refine .ite (fun _ h => nomatch h) (.ite .invalid (.ite ?_ (.ite ?_ (.ite ?_ (.ite ?_ (.ite ?_
    (.ite ?_ (.ite ?_ .invalid))))))))
  all_goals exact .sequence (by simp [Partial.Proper])

lemma proper_of_start {b : Byte} {p : Partial} (h : (start b).2 = some p) : p.Proper := by
  simp only [start] at h
  split at h
  · cases h
  · rename_i q hq
    obtain rfl := Option.some.inj h
    exact proper_lead _ _ hq
  · cases h

lemma proper_of_step {state : Option Partial} {b : Byte} {p : Partial}
    (h : (step state b).2 = some p) : p.Proper := by
  cases state with
  | none => exact proper_of_start h
  | some q =>
    simp only [step, advance] at h
    split_ifs at h
    · obtain rfl := Option.some.inj h
      simp [Partial.Proper]
    · exact proper_of_start h

lemma proper_of_scan {state : Option Partial} (hstate : ∀ p, state = some p → p.Proper)
    {bs : List Byte} {p : Partial} (h : (scan state bs).2 = some p) : p.Proper := by
  induction bs generalizing state with
  | nil => exact hstate p h
  | cons b bs ih => exact ih (fun q hq => proper_of_step hq) h

/-! ### Cuts -/

/-- A byte that continues a sequence completes it or leaves it under way. -/
lemma decodeFrom_of_continued {p : Partial} {b : Byte} (hb : p.continuedBy b) (bs : List Byte) :
    (∃ c, decodeFrom (some p) (b :: bs) = c :: decodeFrom none bs) ∨
      ∃ q : Partial, q.Proper ∧ decodeFrom (some p) (b :: bs) = decodeFrom (some q) bs := by
  rw [decodeFrom_cons, step, advance, if_pos hb]
  by_cases hmissing : p.missing = 1
  · rw [if_pos hmissing]
    exact .inl ⟨_, rfl⟩
  · rw [if_neg hmissing]
    exact .inr ⟨_, ⟨Nat.le_refl _, Nat.le_refl _⟩, rfl⟩

/-- At the start of a sequence, the same byte is replaced. -/
lemma decodeFrom_none_of_continued {p : Partial} (hp : p.Proper) {b : Byte}
    (hb : p.continuedBy b) (bs : List Byte) :
    decodeFrom none (b :: bs) = replacement :: decodeFrom none bs := by
  rw [decodeFrom_cons, step, start_of_continued hp.1 hp.2 hb]
  rfl

/-- A sequence that is under way costs at most one character more than a fresh start. -/
lemma length_decodeFrom_le {p : Partial} (hp : p.Proper) (bs : List Byte) :
    (decodeFrom (some p) bs).length ≤ (decodeFrom none bs).length + 1 := by
  induction bs generalizing p with
  | nil => exact Nat.le_refl 1
  | cons b bs ih =>
    by_cases hb : p.continuedBy b
    · rw [decodeFrom_none_of_continued hp hb, List.length_cons]
      rcases decodeFrom_of_continued hb bs with ⟨c, heq⟩ | ⟨q, hq, heq⟩
      · rw [heq, List.length_cons]
        exact Nat.le_succ _
      · rw [heq]
        exact Nat.le_succ_of_le (ih hq)
    · rw [decodeFrom_of_not_continued (by simpa using hb)]
      exact Nat.le_of_eq List.length_cons

/-- A sequence that is continued costs no more than what follows it. -/
lemma length_decodeFrom_lt {p : Partial} (hp : p.Proper) {b : Byte} (hb : p.continuedBy b)
    (bs : List Byte) :
    (decodeFrom (some p) (b :: bs)).length < (decodeFrom none (b :: bs)).length + 1 := by
  rw [decodeFrom_none_of_continued hp hb, List.length_cons, Nat.lt_succ_iff]
  rcases decodeFrom_of_continued hb bs with ⟨c, heq⟩ | ⟨q, hq, heq⟩
  · exact Nat.le_of_eq (congrArg List.length heq)
  · rw [heq]
    exact length_decodeFrom_le hq bs

/-- No cut between two pieces lies inside a sequence: when a piece ends in an incomplete sequence,
the next byte does not continue it. -/
def CutsClean : List (List Byte) → Prop
  | [] => True
  | piece :: pieces =>
    (∀ p ∈ (scan none piece).2, ∀ b ∈ pieces.flatten.head?, ¬ p.continuedBy b) ∧ CutsClean pieces

instance : (pieces : List (List Byte)) → Decidable (CutsClean pieces)
  | [] => isTrue trivial
  | piece :: pieces =>
    have : Decidable (CutsClean pieces) := instDecidableCutsClean pieces
    inferInstanceAs (Decidable ((∀ p ∈ (scan none piece).2, ∀ b ∈ pieces.flatten.head?,
      ¬ p.continuedBy b) ∧ CutsClean pieces))

lemma decode_eq (bs : List Byte) : decode bs = (scan none bs).1 ++ flush (scan none bs).2 := rfl

lemma decode_append (as bs : List Byte) :
    decode (as ++ bs) = (scan none as).1 ++ decodeFrom (scan none as).2 bs :=
  decodeFrom_append none as bs

lemma decodePieces_cons (piece : List Byte) (pieces : List (List Byte)) :
    decodePieces (piece :: pieces) =
      (scan none piece).1 ++ (flush (scan none piece).2 ++ decodePieces pieces) := by
  rw [decodePieces, List.flatMap_cons, decode_eq, List.append_assoc, ← decodePieces]

/-- Pieces never decode to less text than the whole. -/
lemma length_decode_flatten_le (pieces : List (List Byte)) :
    (decode pieces.flatten).length ≤ (decodePieces pieces).length := by
  induction pieces with
  | nil => exact Nat.le_refl _
  | cons piece pieces ih =>
    rw [List.flatten_cons, decode_append, decodePieces_cons, List.length_append,
      List.length_append, List.length_append]
    cases hstate : (scan none piece).2 with
    | none => simpa [decode] using ih
    | some p =>
      have hle := length_decodeFrom_le (proper_of_scan (by simp) hstate) pieces.flatten
      simp only [decode] at ih
      simp only [flush_some, List.length_singleton]
      omega

/-- The pieces decode to the text of the whole exactly when no cut lies inside a sequence. -/
theorem decodePieces_eq_iff (pieces : List (List Byte)) :
    decodePieces pieces = decode pieces.flatten ↔ CutsClean pieces := by
  induction pieces with
  | nil => exact iff_of_true rfl trivial
  | cons piece pieces ih =>
    rw [List.flatten_cons, decode_append, decodePieces_cons, List.append_cancel_left_eq,
      CutsClean, ← ih]
    cases hstate : (scan none piece).2 with
    | none => simp [decode]
    | some p =>
      have hp := proper_of_scan (by simp) hstate
      constructor
      · intro heq
        have hclean : ∀ b ∈ pieces.flatten.head?, ¬ p.continuedBy b := by
          intro b hb hcont
          -- a sequence that is cut off costs a character more than one that is completed
          obtain ⟨bs, hbs⟩ := List.head?_eq_some_iff.mp hb
          have hlt := length_decodeFrom_lt hp hcont bs
          have hle := length_decode_flatten_le pieces
          have hlen := congrArg List.length heq
          simp only [flush_some, List.length_append, List.length_singleton] at hlen
          rw [← hbs] at hlt
          simp only [decode] at hle
          omega
        refine ⟨by simpa using hclean, ?_⟩
        rw [decodeFrom_of_not_continued hclean] at heq
        exact (List.cons.inj heq).2
      · rintro ⟨hclean, heq⟩
        rw [decodeFrom_of_not_continued (by simpa using hclean), heq]
        rfl

/-- A character of one byte is read as itself in every state. -/
lemma decode_append_ascii (bs : List Byte) (b : Byte) (hb : b.toNat < 0x80) :
    decode (bs ++ [b]) = decode bs ++ [Char.ofNat b.toNat] := by
  have hstart : start b = ([Char.ofNat b.toNat], none) := by
    rw [start, lead, if_pos hb]
  rw [decode_append, decode_eq, decodeFrom_cons, decodeFrom_nil]
  cases hstate : (scan none bs).2 with
  | none => simp [step, hstart]
  | some p =>
    have hp := proper_of_scan (by simp) hstate
    have hnot : ¬ p.continuedBy b := by
      intro h
      have := Nat.le_trans hp.1 h.1
      omega
    simp [step, advance, hnot, hstart]

end Foundation.Utf8
