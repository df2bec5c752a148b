import Arbeiterfarm.Core.Text
import Arbeiterfarm.Foundation.Lines
import Arbeiterfarm.Foundation.Utf8
import Arbeiterfarm.Llm.Stream

/-!
# The readers of server-sent events

The three stream readers share their loop: a network chunk is decoded and appended to a buffer,
the complete lines are cut off, and the payload of every `data: ` line goes to the handler of the
provider, which emits stream chunks or ends the response. A line that no newline has ended stays
in the buffer, also when the stream ends.
-/

namespace Arbeiterfarm.Llm

open Foundation

/-- What a provider does with the payload of a `data: ` line: the chunks it emits, and its state
afterwards unless the reader returns. -/
structure SseHandler where
  State : Type
  init : State
  onData : State → List Char → List StreamChunk × Option State

namespace SseHandler

variable (H : SseHandler)

/-- A complete line; a reader that has returned reads no more. -/
def onLine (state : Option H.State) (line : List Char) : List StreamChunk × Option H.State :=
  match state with
  | none => ([], none)
  | some s =>
    let line := trim line
    if line.isEmpty || line.head? = some ':' then ([], some s)
    else
      match stripPrefix "data: ".toList line with
      | some data => H.onData s (trim data)
      | none => ([], some s)

def onLines : Option H.State → List (List Char) → List StreamChunk × Option H.State
  | state, [] => ([], state)
  | state, line :: lines =>
    ((H.onLine state line).1 ++ (onLines (H.onLine state line).2 lines).1,
      (onLines (H.onLine state line).2 lines).2)

/-- The reader between two network chunks. -/
structure Reader where
  buffer : List Char
  state : Option H.State
  emitted : List StreamChunk

def start : Reader H := ⟨[], some H.init, []⟩

/-- The body of the loop over `bytes_stream`. -/
def onChunk (r : Reader H) (chunk : List UInt8) : Reader H :=
  match r.state with
  | none => r
  | some s =>
    let buffer := r.buffer ++ Utf8.decode chunk
    let (lines, rest) := cutLines buffer
    let (chunks, state) := H.onLines (some s) lines
    ⟨rest, state, r.emitted ++ chunks⟩

/-- What a reader emits for a response that arrives in these chunks. -/
def read (chunks : List (List UInt8)) : List StreamChunk :=
  (chunks.foldl H.onChunk H.start).emitted

/-! ### The reader and the text -/

variable {H}

lemma onLines_none (lines : List (List Char)) : H.onLines none lines = ([], none) := by
  induction lines with
  | nil => rfl
  | cons line lines ih => simp [onLines, onLine, ih]

lemma onLines_append (state : Option H.State) (ls ms : List (List Char)) :
    H.onLines state (ls ++ ms) = ((H.onLines state ls).1 ++ (H.onLines (H.onLines state ls).2 ms).1,
      (H.onLines (H.onLines state ls).2 ms).2) := by
  induction ls generalizing state with
  | nil => simp [onLines]
  | cons line ls ih => simp [onLines, ih]

/-- The reader has handled the complete lines of the text and holds the open one. -/
structure Reader.Read (r : Reader H) (text : List Char) : Prop where
  emitted : r.emitted = (H.onLines (some H.init) (cutLines text).1).1
  state : r.state = (H.onLines (some H.init) (cutLines text).1).2
  buffer : r.state.isSome → r.buffer = (cutLines text).2

lemma start_read : H.start.Read [] := ⟨rfl, rfl, fun _ => rfl⟩

/-- One network chunk adds its text. -/
lemma Reader.Read.onChunk {r : Reader H} {text : List Char} (hr : r.Read text)
    (chunk : List UInt8) : (H.onChunk r chunk).Read (text ++ Utf8.decode chunk) := by
  have hlines := congrArg Prod.fst (cutLines_append text (Utf8.decode chunk))
  have hrest := congrArg Prod.snd (cutLines_append text (Utf8.decode chunk))
  simp only at hlines hrest
  cases hs : r.state with
  | none =>
    have hnone : (H.onLines (some H.init) (cutLines text).1).2 = none := hr.state ▸ hs
    refine ⟨?_, ?_, ?_⟩
    · simp only [SseHandler.onChunk, hs, hlines, onLines_append, hnone, onLines_none,
        List.append_nil]
      exact hr.emitted
    · simp only [SseHandler.onChunk, hs, hlines, onLines_append, hnone, onLines_none]
    · intro hsome
      simp [SseHandler.onChunk, hs] at hsome
  | some s =>
    have hbuffer : r.buffer = (cutLines text).2 := hr.buffer (by simp [hs])
    have hstate : (H.onLines (some H.init) (cutLines text).1).2 = some s := hr.state ▸ hs
    refine ⟨?_, ?_, ?_⟩
    · simp only [SseHandler.onChunk, hs, hlines, onLines_append, hstate, hbuffer, hr.emitted]
    · simp only [SseHandler.onChunk, hs, hlines, onLines_append, hstate, hbuffer]
    · intro _
      simp only [SseHandler.onChunk, hs, hrest, hbuffer]

/-- A reader emits what the complete lines of the decoded chunks carry. -/
theorem read_eq (chunks : List (List UInt8)) :
    H.read chunks = (H.onLines (some H.init) (cutLines (Utf8.decodePieces chunks)).1).1 := by
  have hread {r : Reader H} {text : List Char} (hr : r.Read text) :
      (chunks.foldl H.onChunk r).Read (text ++ Utf8.decodePieces chunks) := by
    induction chunks generalizing r text with
    | nil => simpa [Utf8.decodePieces] using hr
    | cons chunk chunks ih => simpa [Utf8.decodePieces] using ih (hr.onChunk chunk)
  exact (hread start_read).emitted

/-! ### Independence of the chunks -/

variable (H)

/-- The reader emits for these chunks what it emits when the bytes arrive in one piece that ends
in a newline. -/
def ChunkingIndependent (chunks : List (List UInt8)) : Prop :=
  H.read chunks = H.read [chunks.flatten ++ [10]]

/-- The line that no newline has ended, if there is one, carries no event that emits a chunk in
the state that the complete lines lead to. -/
def LastLineSilent (bytes : List UInt8) : Prop :=
  (H.onLine (H.onLines (some H.init) (cutLines (Utf8.decode bytes)).1).2
    (cutLines (Utf8.decode bytes)).2).1 = []

/-- As long as no cut lies inside a character, a reader is independent of the chunks exactly when
the unterminated last line is silent. -/
theorem chunkingIndependent_iff {chunks : List (List UInt8)} (hclean : Utf8.CutsClean chunks) :
    H.ChunkingIndependent chunks ↔ H.LastLineSilent chunks.flatten := by
  have hpieces := (Utf8.decodePieces_eq_iff chunks).mpr hclean
  have hwhole : Utf8.decodePieces [chunks.flatten ++ [10]] =
      Utf8.decode chunks.flatten ++ ['\n'] := by
    rw [Utf8.decodePieces, List.flatMap_singleton, Utf8.decode_append_ascii _ _ (by decide)]
    rfl
  rw [ChunkingIndependent, read_eq, read_eq, hpieces, hwhole, cutLines_append_newline,
    onLines_append, LastLineSilent]
  simp [onLines]

end SseHandler

end Arbeiterfarm.Llm
