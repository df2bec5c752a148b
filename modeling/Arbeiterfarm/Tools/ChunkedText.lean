import Arbeiterfarm.Core.Bytes
import Arbeiterfarm.Core.Text

/-!
# Cutting a text into chunks

A text is cut into overlapping pieces to be embedded, each of at most `chunk_size` bytes. A piece
ends behind a paragraph, a line, a sentence or a word, if there is one in it. The same algorithm is
there twice, and only one copy refuses an empty chunk size.

The chunks are exact pieces of the text in order, and together they hold every character that is
not whitespace, unless there are as many as are allowed. Each round of the loop moves forward, since
a character has at most four bytes and so fits into a chunk.
-/

namespace Arbeiterfarm.Tools

open Foundation.Offsets

/-- The longest that a string gets, `isize::MAX`. -/
def isizeMax : ℕ := 9223372036854775807

/-- A `&str`. -/
structure Str where
  val : String
  fits : utf8Len val ≤ isizeMax

/-- `+` on `usize`; an overflow is a panic. -/
def checkedAdd (a b : ℕ) : Option ℕ := if a + b < UInt64.size then some (a + b) else none

structure Chunk where
  index : ℕ
  offset : ℕ
  length : ℕ
  text : String
  label : String
  deriving DecidableEq

def maxChunks : ℕ := 10000

/-! ### Where a piece ends -/

/-- What is looked for, the best first, and how many of its bytes stay in the piece. -/
def separators : List (String × ℕ) := [("\n\n", 2), ("\n", 1), (". ", 2), (" ", 1)]

/-- The end of the last occurrence of the first separator that occurs. -/
def endOfLast (region : String) (start end_ : ℕ) : List (String × ℕ) → ℕ
  | [] => end_
  | (pat, skip) :: rest =>
    match rfind region pat with
    | some pos =>
      if start + pos + skip > start then start + pos + skip else endOfLast region start end_ rest
    | none => endOfLast region start end_ rest

def findBoundary (text : String) (start end_ : ℕ) : Option ℕ :=
  (sliceBytes text start end_).map fun region => endOfLast region start end_ separators

/-! ### The loop -/

/-- The overlap is taken back from the end of the piece, but never as far as its start. -/
def nextStart (text : String) (start boundary overlap : ℕ) : ℕ :=
  let next_start :=
    if overlap > 0 ∧ boundary > overlap then floorCharBoundary text (boundary - overlap)
    else boundary
  if next_start ≤ start then boundary else next_start

section

variable (text : Str) (chunk_size overlap : UInt64) (labelPrefix : String)

/-- A piece of whitespace is no chunk. -/
def pushChunk (offset length : ℕ) (piece : String) (chunks : List Chunk) : List Chunk :=
  if (trim piece.toList).isEmpty then chunks
  else
    let index := chunks.length
    chunks ++ [⟨index, offset, length, piece, s!"{labelPrefix}_chunk_{index}"⟩]

/-- One round: the chunks so far, and where the next round starts, unless this was the last. -/
def chunkRound (start : ℕ) (chunks : List Chunk) : Option (List Chunk × Option ℕ) := do
  let text_len := utf8Len text.val
  let reach ← checkedAdd start chunk_size.toNat
  let end_ := floorCharBoundary text.val (min reach text_len)
  if end_ ≥ text_len then
    let piece ← sliceBytes text.val start text_len
    some (pushChunk labelPrefix start (text_len - start) piece chunks, none)
  else
    let boundary ← findBoundary text.val start end_
    let piece ← sliceBytes text.val start boundary
    some (pushChunk labelPrefix start (boundary - start) piece chunks,
      some (nextStart text.val start boundary overlap.toNat))

/-- `none` is a panic, or more rounds than `fuel`. -/
def chunkLoop : ℕ → ℕ → List Chunk → Option (List Chunk)
  | 0, _, _ => none
  | fuel + 1, start, chunks =>
    if start < utf8Len text.val ∧ chunks.length < maxChunks then
      (chunkRound text chunk_size overlap labelPrefix start chunks).bind fun r =>
        match r.2 with
        | none => some r.1
        | some next => chunkLoop fuel next r.1
    else some chunks

/-- `chunk_text` of `chunking.rs`. -/
def Chunking.chunkText : Option (List Chunk) :=
  if utf8Len text.val = 0 ∨ chunk_size = 0 then some []
  else chunkLoop text chunk_size overlap labelPrefix (utf8Len text.val + 1) 0 []

/-- `chunk_text` of `doc_chunk.rs`. -/
def DocChunk.chunkText : Option (List Chunk) :=
  if utf8Len text.val = 0 then some []
  else chunkLoop text chunk_size overlap labelPrefix (utf8Len text.val + 1) 0 []

end

/-! ### What the chunks are -/

/-- The text of the chunk stands in `text` at the offset of the chunk. -/
structure IsPiece (text : String) (chunk_size : ℕ) (c : Chunk) : Prop where
  exact : sliceBytes text c.offset (c.offset + c.length) = some c.text
  short : c.length ≤ chunk_size

/-- Every character before the offset `n` that is not whitespace is inside a chunk. -/
def CoversTo (text : String) (n : ℕ) (chunks : List Chunk) : Prop :=
  ∀ x c y, text.toList = x ++ c :: y → width Char.utf8Size x < n → isWhitespace c = false →
    ∃ k ∈ chunks, k.offset ≤ width Char.utf8Size x ∧
      width Char.utf8Size x + c.utf8Size ≤ k.offset + k.length

/-- All chunks start before `bound`, and the text is covered up to `reach`. -/
structure Chunked (text : String) (chunk_size bound reach : ℕ) (chunks : List Chunk) : Prop where
  pieces : ∀ c ∈ chunks, IsPiece text chunk_size c
  increasing : chunks.Pairwise fun c d => c.offset < d.offset
  before : ∀ c ∈ chunks, c.offset < bound
  covers : CoversTo text reach chunks

variable {text : Str} {chunk_size overlap : UInt64} {labelPrefix : String}

/-! ### Positions -/

/-- A character fits into what is left of a chunk. -/
lemma lt_floorCharBoundary {s : String} {start pos : ℕ} (hstart : IsCharBoundary s start)
    (hlt : start < utf8Len s) (hpos : start + 4 ≤ pos) : start < floorCharBoundary s pos := by
  rw [floorCharBoundary]
  by_cases h : pos ≥ utf8Len s
  · rwa [if_pos h]
  · rw [if_neg h]
    obtain ⟨j, hj, hij, hle⟩ :=
      exists_next_boundary Char.utf8Size_pos Char.utf8Size_le_four hstart hlt
    exact Nat.lt_of_lt_of_le hij (le_floorBoundary hj (Nat.le_trans hle hpos))

/-- The end of a piece is behind its start and a boundary. -/
lemma endOfLast_spec {text region : String} {start end_ : ℕ}
    (hregion : sliceBytes text start end_ = some region) (hlt : start < end_)
    (seps : List (String × ℕ)) (hseps : ∀ p ∈ seps, utf8Len p.1 = p.2 ∧ 0 < p.2) :
    IsCharBoundary text (endOfLast region start end_ seps) ∧
      start < endOfLast region start end_ seps ∧ endOfLast region start end_ seps ≤ end_ := by
  obtain ⟨x, y, htext, hx, hend⟩ := sliceBytes_eq_some_iff.mp hregion
  induction seps with
  | nil =>
    refine ⟨(isBoundary_iff Char.utf8Size_pos).mpr ⟨x ++ region.toList, y, ?_, ?_⟩, hlt, ?_⟩
    · rw [htext, List.append_assoc]
    · rw [width_append, hx, Nat.add_comm]
      exact hend
    · exact Nat.le_refl _
  | cons p seps ih =>
    obtain ⟨pat, skip⟩ := p
    have ih := ih fun q hq => hseps q (List.mem_cons_of_mem _ hq)
    obtain ⟨hskip, hpos⟩ := hseps _ List.mem_cons_self
    rw [endOfLast]
    cases hfind : rfind region pat with
    | none => exact ih
    | some pos =>
      obtain ⟨u, v, huv, hu⟩ := of_lastOccurrence_eq_some hfind
      simp only at hskip hpos
      have hwidth : pos + skip + width Char.utf8Size v = utf8Len region := by
        rw [utf8Len, huv, width_append, width_append, hu, ← hskip, utf8Len, Nat.add_assoc]
      dsimp only
      rw [if_pos (by omega)]
      refine ⟨(isBoundary_iff Char.utf8Size_pos).mpr
        ⟨x ++ (u ++ pat.toList), v ++ y, ?_, ?_⟩, by omega, by omega⟩
      · rw [htext, huv]
        simp
      · rw [width_append, width_append, hx, hu, ← hskip, utf8Len, Nat.add_assoc]

lemma findBoundary_spec {text : String} {start end_ : ℕ} (hstart : IsCharBoundary text start)
    (hend : IsCharBoundary text end_) (hlt : start < end_) :
    ∃ boundary, findBoundary text start end_ = some boundary ∧ IsCharBoundary text boundary ∧
      start < boundary ∧ boundary ≤ end_ := by
  obtain ⟨region, hregion⟩ := exists_sliceBytes (Nat.le_of_lt hlt) hstart hend
  refine ⟨endOfLast region start end_ separators, ?_, ?_⟩
  · rw [findBoundary, hregion]
    rfl
  · exact endOfLast_spec hregion hlt separators (by decide)

/-! ### Chunks -/

lemma Chunked.mono {text : String} {n bound bound' reach reach' : ℕ} {chunks : List Chunk}
    (h : Chunked text n bound reach chunks) (hbound : bound ≤ bound') (hreach : reach' ≤ reach) :
    Chunked text n bound' reach' chunks where
  pieces := h.pieces
  increasing := h.increasing
  before c hc := Nat.lt_of_lt_of_le (h.before c hc) hbound
  covers x c y htext hlt hc := h.covers x c y htext (Nat.lt_of_lt_of_le hlt hreach) hc

/-- Only whitespace is trimmed to nothing. -/
lemma trim_isEmpty_of_mem {cs : List Char} {c : Char} (hc : c ∈ cs) (hw : isWhitespace c = false) :
    (trim cs).isEmpty = false := by
  rw [List.isEmpty_eq_false_iff]
  intro hnil
  obtain ⟨pre, post, hcs, hpre, hpost⟩ := (surrounds_trimMatches isWhitespace cs).eq
  have htrim : trimMatches isWhitespace cs = [] := hnil
  rw [htrim, List.append_nil] at hcs
  rw [hcs, List.mem_append] at hc
  rcases hc with hc | hc
  · rw [hpre c hc] at hw
    cases hw
  · rw [hpost c hc] at hw
    cases hw

/-- A character that starts inside a piece belongs to it as a whole. -/
lemma mem_piece {text piece : String} {start boundary : ℕ} {x y : List Char} {c : Char}
    (hpiece : sliceBytes text start boundary = some piece) (hx : text.toList = x ++ c :: y)
    (hge : start ≤ width Char.utf8Size x) (hlt : width Char.utf8Size x < boundary) :
    c ∈ piece.toList ∧ width Char.utf8Size x + c.utf8Size ≤ boundary := by
  obtain ⟨p, q, htext, hp, hend⟩ := sliceBytes_eq_some_iff.mp hpiece
  obtain ⟨x', rfl⟩ := exists_append_of_width_le Char.utf8Size_pos (htext.symm.trans hx)
    (by rw [hp]; exact hge)
  rw [htext, List.append_assoc, List.append_cancel_left_eq] at hx
  rw [width_append] at hge hlt ⊢
  obtain ⟨m, hm⟩ := exists_append_of_width_le Char.utf8Size_pos hx.symm
    (by rw [utf8Len] at hend; omega)
  rw [hm, List.append_assoc, List.append_cancel_left_eq] at hx
  rw [utf8Len, hm, width_append] at hend
  cases m with
  | nil =>
    rw [width_nil] at hend
    omega
  | cons d m =>
    obtain rfl : d = c := by simpa using congrArg List.head? hx
    rw [width_cons] at hend
    exact ⟨by simp [hm], by omega⟩

variable (labelPrefix) in
/-- The next piece is pushed. -/
lemma Chunked.push {text piece : String} {n start boundary : ℕ} {chunks : List Chunk}
    (h : Chunked text n start start chunks) (hpiece : sliceBytes text start boundary = some piece)
    (hlt : start ≤ boundary) (hshort : boundary ≤ start + n) :
    Chunked text n (start + 1) boundary
      (pushChunk labelPrefix start (boundary - start) piece chunks) := by
  rw [pushChunk]
  by_cases hblank : (trim piece.toList).isEmpty = true
  · rw [if_pos hblank]
    refine ⟨h.pieces, h.increasing, fun c hc => Nat.lt_succ_of_lt (h.before c hc), ?_⟩
    intro x c y hx hless hc
    by_cases hold : width Char.utf8Size x < start
    · exact h.covers x c y hx hold hc
    · have hmem := (mem_piece hpiece hx (Nat.le_of_not_lt hold) hless).1
      rw [trim_isEmpty_of_mem hmem hc] at hblank
      cases hblank
  · rw [if_neg hblank]
    have hsum : start + (boundary - start) = boundary := Nat.add_sub_cancel' hlt
    refine ⟨?_, ?_, ?_, ?_⟩
    · rw [List.forall_mem_append, List.forall_mem_singleton]
      refine ⟨h.pieces, ⟨?_, Nat.sub_le_iff_le_add'.mpr hshort⟩⟩
      simp only [hsum]
      exact hpiece
    · rw [List.pairwise_append]
      refine ⟨h.increasing, List.pairwise_singleton _ _, fun c hc => ?_⟩
      rw [List.forall_mem_singleton]
      exact h.before c hc
    · rw [List.forall_mem_append, List.forall_mem_singleton]
      exact ⟨fun c hc => Nat.lt_succ_of_lt (h.before c hc), Nat.lt_succ_self _⟩
    · intro x c y hx hless hc
      by_cases hold : width Char.utf8Size x < start
      · obtain ⟨k, hk, hin⟩ := h.covers x c y hx hold hc
        exact ⟨k, List.mem_append_left _ hk, hin⟩
      · have hle := Nat.le_of_not_lt hold
        refine ⟨_, List.mem_append_right _ (List.mem_singleton.mpr rfl), hle, ?_⟩
        simp only [hsum]
        exact (mem_piece hpiece hx hle hless).2

/-! ### Rounds -/

/-- What holds before each round. The sum of start and chunk size is no overflow: a second round
needs a text that is longer than a chunk. -/
structure LoopInv (text : Str) (chunk_size : UInt64) (start : ℕ) (chunks : List Chunk) : Prop where
  chunked : Chunked text.val chunk_size.toNat start start chunks
  boundary : IsCharBoundary text.val start
  longer : 0 < start → chunk_size.toNat < utf8Len text.val

lemma LoopInv.init : LoopInv text chunk_size 0 [] where
  chunked := ⟨nofun, List.Pairwise.nil, nofun, nofun⟩
  boundary := isBoundary_zero _
  longer h := absurd h (Nat.lt_irrefl 0)

lemma LoopInv.checkedAdd {start : ℕ} {chunks : List Chunk}
    (h : LoopInv text chunk_size start chunks) (hlt : start < utf8Len text.val) :
    checkedAdd start chunk_size.toNat = some (start + chunk_size.toNat) := by
  have hfits := text.fits
  have hlonger := h.longer
  have hsize := chunk_size.toNat_lt
  rw [isizeMax] at hfits
  refine if_pos ?_
  rw [UInt64.size]
  omega

/-- The next round starts behind this one and not behind the piece. -/
lemma nextStart_spec {text : String} {start boundary : ℕ} (overlap : ℕ)
    (hboundary : IsCharBoundary text boundary) (hlt : start < boundary) :
    IsCharBoundary text (nextStart text start boundary overlap) ∧
      start < nextStart text start boundary overlap ∧
      nextStart text start boundary overlap ≤ boundary := by
  rw [nextStart]
  by_cases hback : overlap > 0 ∧ boundary > overlap
  · rw [if_pos hback]
    by_cases hstuck : floorCharBoundary text (boundary - overlap) ≤ start
    · rw [if_pos hstuck]
      exact ⟨hboundary, hlt, Nat.le_refl _⟩
    · rw [if_neg hstuck]
      refine ⟨isCharBoundary_floorCharBoundary _ _, Nat.lt_of_not_le hstuck, ?_⟩
      exact Nat.le_trans (floorCharBoundary_le _ _) (Nat.sub_le _ _)
  · rw [if_neg hback, if_neg (Nat.not_le_of_lt hlt)]
    exact ⟨hboundary, hlt, Nat.le_refl _⟩

variable (overlap labelPrefix) in
/-- A round cuts off the last piece, or it cuts off one piece and moves forward. -/
lemma LoopInv.round {start : ℕ} {chunks : List Chunk} (h : LoopInv text chunk_size start chunks)
    (hsize : 4 ≤ chunk_size.toNat) (hlt : start < utf8Len text.val) :
    ∃ r, chunkRound text chunk_size overlap labelPrefix start chunks = some r ∧
      match r.2 with
      | none => Chunked text.val chunk_size.toNat (start + 1) (utf8Len text.val) r.1
      | some next => start < next ∧ LoopInv text chunk_size next r.1 := by
  have hreach : min (start + chunk_size.toNat) (utf8Len text.val) ≤ start + chunk_size.toNat :=
    Nat.min_le_left _ _
  have hend := floorCharBoundary_le text.val (min (start + chunk_size.toNat) (utf8Len text.val))
  have hbound := isCharBoundary_floorCharBoundary text.val
    (min (start + chunk_size.toNat) (utf8Len text.val))
  rw [chunkRound, h.checkedAdd hlt]
  simp only [Option.bind_eq_bind, Option.bind_some]
  generalize hgen : floorCharBoundary text.val
    (min (start + chunk_size.toNat) (utf8Len text.val)) = end_ at hend hbound ⊢
  by_cases hlast : end_ ≥ utf8Len text.val
  · obtain ⟨piece, hpiece⟩ := exists_sliceBytes (Nat.le_of_lt hlt) h.boundary
      (isCharBoundary_utf8Len text.val)
    rw [if_pos hlast, hpiece]
    exact ⟨_, rfl, h.chunked.push labelPrefix hpiece (Nat.le_of_lt hlt) (by omega)⟩
  · have hshort : start + chunk_size.toNat < utf8Len text.val := by
      by_contra hlong
      rw [Nat.min_eq_right (Nat.le_of_not_lt hlong), floorCharBoundary, if_pos (Nat.le_refl _)]
        at hgen
      exact hlast (Nat.le_of_eq hgen)
    have hforward : start < end_ := by
      rw [← hgen, Nat.min_eq_left (Nat.le_of_lt hshort)]
      exact lt_floorCharBoundary h.boundary hlt (by omega)
    obtain ⟨boundary, hfind, hcut, hgt, hle⟩ := findBoundary_spec h.boundary hbound hforward
    obtain ⟨piece, hpiece⟩ := exists_sliceBytes (Nat.le_of_lt hgt) h.boundary hcut
    obtain ⟨hnextBoundary, hnextGt, hnextLe⟩ := nextStart_spec overlap.toNat hcut hgt
    rw [if_neg hlast, hfind, Option.bind_some, hpiece, Option.bind_some]
    refine ⟨_, rfl, hnextGt, ?_, hnextBoundary, fun _ => by omega⟩
    exact (h.chunked.push labelPrefix hpiece (Nat.le_of_lt hgt) (by omega)).mono hnextGt hnextLe

variable (overlap labelPrefix) in
/-- A round moves forward, so that the loop ends. -/
lemma LoopInv.loop {fuel start : ℕ} {chunks : List Chunk} (h : LoopInv text chunk_size start chunks)
    (hsize : 4 ≤ chunk_size.toNat) (hfuel : utf8Len text.val < start + fuel) :
    ∃ r reach, chunkLoop text chunk_size overlap labelPrefix fuel start chunks = some r ∧
      Chunked text.val chunk_size.toNat (utf8Len text.val) reach r ∧
      (r.length < maxChunks → reach = utf8Len text.val) := by
  have hstart : start ≤ utf8Len text.val := h.boundary.le_width Char.utf8Size_pos
  induction fuel generalizing start chunks with
  | zero => omega
  | succ fuel ih =>
    rw [chunkLoop]
    by_cases hmore : start < utf8Len text.val ∧ chunks.length < maxChunks
    · rw [if_pos hmore]
      obtain ⟨r, hr, hround⟩ :=
        h.round overlap labelPrefix hsize hmore.1
      rw [hr, Option.bind_some]
      cases hnext : r.2 with
      | none =>
        rw [hnext] at hround
        exact ⟨r.1, _, rfl, hround.mono hmore.1 (Nat.le_refl _), fun _ => rfl⟩
      | some next =>
        rw [hnext] at hround
        exact ih hround.2 (by omega) (hround.2.boundary.le_width Char.utf8Size_pos)
    · rw [if_neg hmore]
      refine ⟨chunks, start, rfl, h.chunked.mono hstart (Nat.le_refl _), fun hless => ?_⟩
      omega

/-- `chunk_text` ends without a panic. The chunks are pieces of the text, none is longer than
`chunk_size`, their offsets increase, and below the limit they hold every character that is not
whitespace. Both copies return the same chunks. -/
theorem chunkText_pieces (text : Str) (chunk_size overlap : UInt64) (labelPrefix : String)
    (hsize : 4 ≤ chunk_size.toNat) :
    ∃ chunks, Chunking.chunkText text chunk_size overlap labelPrefix = some chunks ∧
      DocChunk.chunkText text chunk_size overlap labelPrefix = some chunks ∧
      (∀ c ∈ chunks, IsPiece text.val chunk_size.toNat c) ∧
      (chunks.Pairwise fun c d => c.offset < d.offset) ∧
      (chunks.length < maxChunks → CoversTo text.val (utf8Len text.val) chunks) := by
  have hne : ¬ chunk_size = 0 := by
    rintro rfl
    exact absurd hsize (by decide)
  rw [Chunking.chunkText, DocChunk.chunkText]
  by_cases hempty : utf8Len text.val = 0
  · rw [if_pos (Or.inl hempty), if_pos hempty, hempty]
    exact ⟨[], rfl, rfl, nofun, List.Pairwise.nil, fun _ => nofun⟩
  · rw [if_neg (not_or.mpr ⟨hempty, hne⟩), if_neg hempty]
    obtain ⟨chunks, reach, hloop, hchunked, hreach⟩ :=
      LoopInv.init.loop overlap labelPrefix hsize (Nat.lt_add_left 0 (Nat.lt_succ_self _))
    refine ⟨chunks, hloop, hloop, hchunked.pieces, hchunked.increasing, fun hless => ?_⟩
    exact hreach hless ▸ hchunked.covers

theorem chunkText_pieces_hello :
    4 ≤ (8 : UInt64).toNat ∧
      ∃ chunks, Chunking.chunkText ⟨"Hello, wörld!", by decide⟩ 8 2 "t" = some chunks ∧
        ∀ c ∈ chunks, IsPiece "Hello, wörld!" 8 c :=
  have hsize : 4 ≤ (8 : UInt64).toNat := by decide
  let ⟨chunks, hchunks, _, hpieces, _⟩ :=
    chunkText_pieces ⟨"Hello, wörld!", by decide⟩ 8 2 "t" hsize
  ⟨hsize, chunks, hchunks, hpieces⟩

example : (Chunking.chunkText ⟨"Hello, wörld!", by decide⟩ 8 2 "t").map (·.map (·.text)) =
    some ["Hello, ", ", ", "wörld!"] := by decide

end Arbeiterfarm.Tools
