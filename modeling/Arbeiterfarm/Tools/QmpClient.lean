import Arbeiterfarm.Core.Bytes
import Arbeiterfarm.Core.Json
import Arbeiterfarm.Core.Text

/-!
# The QMP client

The client of the QEMU machine protocol sends a command and reads lines until one of them is a
message that is no event. Blank lines are skipped. The end of the stream is read as an empty line,
so that it is skipped as well, again and again: a command is answered only if the rest of the stream
has a line that ends the loop. The socket is closed in the usual way: a read that fails otherwise
than by bytes that are no UTF-8 would end the loop with its error, and is left out.
-/

namespace Arbeiterfarm.Tools.Qmp

/-! ### The client -/

/-- `write` is what becomes of sending a text. -/
structure QmpLibs where
  parseJson : String → Except String Json
  printJson : Json → String
  write : String → Except String Unit

/-- The bytes up to a line feed and the bytes after it; at the end of the stream there are none. -/
def nextLine : List UInt8 → List UInt8 × List UInt8
  | [] => ([], [])
  | b :: bs =>
    if b = 10 then ([b], bs)
    else
      let (line, rest) := nextLine bs
      (b :: line, rest)

def readLine (input : List UInt8) : Except String (List Char) × List UInt8 :=
  let (line, rest) := nextLine input
  match fromUtf8 line with
  | some text => (.ok text, rest)
  | none      => (.error "QMP read error: stream did not contain valid UTF-8", rest)

/-- The loop, for at most `fuel` rounds. -/
def readResponse (libs : QmpLibs) :
    ℕ → List UInt8 → Option (Except String Json × List UInt8)
  | 0, _ => none
  | fuel + 1, input =>
    match readLine input with
    | (.error e, rest) => some (.error e, rest)
    | (.ok line, rest) =>
      if (trim line).isEmpty then readResponse libs fuel rest
      else
        match libs.parseJson (String.ofList line) with
        | .error e => some (.error ("QMP parse error: " ++ e), rest)
        | .ok val  =>
          if (val.get "event").isSome then readResponse libs fuel rest else some (.ok val, rest)

def sendCommand (libs : QmpLibs) (fuel : ℕ) (cmd : Json) (input : List UInt8) :
    Option (Except String Json × List UInt8) :=
  match libs.write (libs.printJson cmd ++ "\n") with
  | .error e => some (.error ("QMP write error: " ++ e), input)
  | .ok ()   => readResponse libs fuel input

def capabilities : Json := .obj [("execute", .str "qmp_capabilities")]

/-- The handshake on a stream that has been opened. -/
def connect (libs : QmpLibs) (fuel : ℕ) (input : List UInt8) :
    Option (Except String Unit × List UInt8) :=
  match readLine input with
  | (.error e, rest) => some (.error e, rest)
  | (.ok greeting, rest) =>
    if (splitAround "QMP".toList greeting).isNone then
      some (.error ("unexpected QMP greeting: " ++ String.ofList greeting), rest)
    else (sendCommand libs fuel capabilities rest).map fun (r, rest) => (r.map fun _ => (), rest)

/-! ### The lines of a stream -/

def linesOf : List UInt8 → List (List UInt8)
  | [] => []
  | b :: bs =>
    if b = 10 then [b] :: linesOf bs
    else
      match linesOf bs with
      | []            => [[b]]
      | line :: lines => (b :: line) :: lines

/-- A line that is skipped: it is blank, or an event. -/
def Skipped (libs : QmpLibs) (line : List UInt8) : Prop :=
  ∃ text, fromUtf8 line = some text ∧ ((trim text).isEmpty ∨
    ∃ val, libs.parseJson (String.ofList text) = .ok val ∧ (val.get "event").isSome)

/-- A line that is a message and no event. -/
def IsMessage (libs : QmpLibs) (line : List UInt8) (val : Json) : Prop :=
  ∃ text, fromUtf8 line = some text ∧ (trim text).isEmpty = false ∧
    libs.parseJson (String.ofList text) = .ok val ∧ val.get "event" = none

/-- The message is the first one of the input that is no event. -/
def FirstMessage (libs : QmpLibs) (input : List UInt8) (val : Json) (rest : List UInt8) : Prop :=
  ∃ before line after, linesOf input = before ++ line :: after ∧ (∀ l ∈ before, Skipped libs l) ∧
    IsMessage libs line val ∧ rest = after.flatten

/-- A command returns, and what it returns is the first message after it. -/
structure CommandEnds (libs : QmpLibs) (cmd : Json) (input : List UInt8) : Prop where
  returns : ∃ fuel, (sendCommand libs fuel cmd input).isSome
  response : ∀ fuel val rest, sendCommand libs fuel cmd input = some (.ok val, rest) →
    FirstMessage libs input val rest

def ConnectEnds (libs : QmpLibs) (input : List UInt8) : Prop :=
  ∃ fuel, (connect libs fuel input).isSome

/-- The command cannot be sent, or some line of the input is not skipped. -/
def HasAnswer (libs : QmpLibs) (cmd : Json) (input : List UInt8) : Prop :=
  (∃ e, libs.write (libs.printJson cmd ++ "\n") = .error e) ∨
    ∃ line ∈ linesOf input, ¬Skipped libs line

/-- The greeting is no text or not that of QMP. -/
def NoGreeting (line : List UInt8) : Prop :=
  ∀ text, fromUtf8 line = some text → ¬"QMP".toList <:+: text

/-! ### Lines -/

lemma linesOf_of_ne_nil {input : List UInt8} (h : input ≠ []) :
    linesOf input = (nextLine input).1 :: linesOf (nextLine input).2 := by
  induction input with
  | nil => exact absurd rfl h
  | cons b bs ih =>
    rw [linesOf, nextLine]
    by_cases hb : b = 10
    · rw [if_pos hb, if_pos hb]
    · rw [if_neg hb, if_neg hb]
      cases bs with
      | nil => rfl
      | cons c bs => rw [ih (List.cons_ne_nil c bs)]

lemma flatten_linesOf (input : List UInt8) : (linesOf input).flatten = input := by
  induction input with
  | nil => rfl
  | cons b bs ih =>
    rw [linesOf]
    by_cases hb : b = 10
    · rw [if_pos hb, List.flatten_cons, ih]
      rfl
    · rw [if_neg hb]
      cases hlines : linesOf bs with
      | nil =>
        rw [hlines, List.flatten_nil] at ih
        rw [← ih]
        rfl
      | cons line lines =>
        rw [hlines] at ih
        rw [← ih]
        rfl

section

variable {libs : QmpLibs} {input : List UInt8}

/-! ### One round -/

lemma readResponse_of_skipped {fuel : ℕ} (h : Skipped libs (nextLine input).1) :
    readResponse libs (fuel + 1) input = readResponse libs fuel (nextLine input).2 := by
  obtain ⟨text, htext, hblank | ⟨val, hparse, hevent⟩⟩ := h
  · rw [readResponse, readLine]
    simp only [htext]
    rw [if_pos hblank]
  · rw [readResponse, readLine]
    simp only [htext, hparse]
    by_cases hblank : (trim text).isEmpty
    · rw [if_pos hblank]
    · rw [if_neg hblank, if_pos hevent]

/-- A line that is not skipped ends the loop. -/
lemma readResponse_of_not_skipped (fuel : ℕ) (h : ¬Skipped libs (nextLine input).1) :
    ∃ r, readResponse libs (fuel + 1) input = some (r, (nextLine input).2) ∧
      ∀ val, r = .ok val → IsMessage libs (nextLine input).1 val := by
  rw [readResponse, readLine]
  cases htext : fromUtf8 (nextLine input).1 with
  | none =>
    simp only [htext]
    refine ⟨_, rfl, fun val hval => ?_⟩
    cases hval
  | some text =>
    have hblank : (trim text).isEmpty = false := by
      rw [Bool.eq_false_iff]
      exact fun hblank => h ⟨text, htext, .inl hblank⟩
    have hsolid : ¬(trim text).isEmpty = true := by simp [hblank]
    simp only [htext]
    rw [if_neg hsolid]
    cases hparse : libs.parseJson (String.ofList text) with
    | error e =>
      refine ⟨_, rfl, fun val hval => ?_⟩
      cases hval
    | ok v =>
      have hevent : ¬(v.get "event").isSome := fun hevent =>
        h ⟨text, htext, .inr ⟨v, hparse, hevent⟩⟩
      simp only
      rw [if_neg hevent]
      refine ⟨_, rfl, fun val hval => ?_⟩
      cases hval
      exact ⟨text, htext, hblank, hparse, Option.not_isSome_iff_eq_none.mp hevent⟩

lemma skipped_nil (libs : QmpLibs) : Skipped libs [] := ⟨[], fromUtf8_utf8 [], .inl rfl⟩

/-! ### The loop -/

/-- Without a line that ends it the loop goes on. -/
lemma readResponse_of_forall_skipped (h : ∀ line ∈ linesOf input, Skipped libs line) (fuel : ℕ) :
    readResponse libs fuel input = none := by
  induction fuel generalizing input with
  | zero => rfl
  | succ fuel ih =>
    by_cases hnil : input = []
    · subst hnil
      rw [readResponse_of_skipped (skipped_nil libs)]
      exact ih (by simp [nextLine, linesOf])
    · rw [linesOf_of_ne_nil hnil, List.forall_mem_cons] at h
      rw [readResponse_of_skipped h.1]
      exact ih h.2

/-- A line that is not skipped is reached. -/
lemma exists_readResponse (h : ∃ line ∈ linesOf input, ¬Skipped libs line) :
    ∃ fuel, (readResponse libs fuel input).isSome := by
  generalize hlines : linesOf input = lines at h
  induction lines generalizing input with
  | nil => simp at h
  | cons line lines ih =>
    have hnil : input ≠ [] := by
      rintro rfl
      cases hlines
    rw [linesOf_of_ne_nil hnil] at hlines
    obtain ⟨hfirst, hrest⟩ := List.cons.inj hlines
    by_cases hskip : Skipped libs line
    · obtain ⟨fuel, hfuel⟩ :=
        ih hrest (((List.exists_mem_cons_iff _ _ _).mp h).resolve_left (not_not_intro hskip))
      rw [← hfirst] at hskip
      exact ⟨fuel + 1, by rwa [readResponse_of_skipped hskip]⟩
    · rw [← hfirst] at hskip
      obtain ⟨r, hr, -⟩ := readResponse_of_not_skipped 0 hskip
      exact ⟨0 + 1, by rw [hr]; rfl⟩

/-- What is returned is the first message. -/
lemma firstMessage_of_readResponse {fuel : ℕ} {val : Json} {rest : List UInt8}
    (h : readResponse libs fuel input = some (.ok val, rest)) :
    FirstMessage libs input val rest := by
  induction fuel generalizing input with
  | zero => cases h
  | succ fuel ih =>
    have hnil : input ≠ [] := by
      rintro rfl
      rw [readResponse_of_forall_skipped (by simp [linesOf])] at h
      cases h
    by_cases hskip : Skipped libs (nextLine input).1
    · rw [readResponse_of_skipped hskip] at h
      obtain ⟨before, line, after, hlines, hbefore, hmessage, hrest⟩ := ih h
      refine ⟨(nextLine input).1 :: before, line, after, ?_,
        List.forall_mem_cons.mpr ⟨hskip, hbefore⟩, hmessage, hrest⟩
      rw [linesOf_of_ne_nil hnil, hlines]
      rfl
    · obtain ⟨r, hr, hmessage⟩ := readResponse_of_not_skipped fuel hskip
      rw [hr] at h
      cases h
      refine ⟨[], (nextLine input).1, linesOf (nextLine input).2, linesOf_of_ne_nil hnil,
        List.forall_mem_nil _, hmessage val rfl, (flatten_linesOf _).symm⟩

/-! ### Commands and the handshake -/

lemma exists_sendCommand_iff (cmd : Json) :
    (∃ fuel, (sendCommand libs fuel cmd input).isSome) ↔ HasAnswer libs cmd input := by
  rw [HasAnswer]
  simp only [sendCommand]
  cases hwrite : libs.write (libs.printJson cmd ++ "\n") with
  | error e => exact iff_of_true ⟨0, rfl⟩ (.inl ⟨e, rfl⟩)
  | ok u =>
    constructor
    · rintro ⟨fuel, hfuel⟩
      refine .inr ?_
      by_contra hno
      have hall : ∀ line ∈ linesOf input, Skipped libs line := by
        intro line hline
        by_contra hskip
        exact hno ⟨line, hline, hskip⟩
      simp only [readResponse_of_forall_skipped hall] at hfuel
      cases hfuel
    · rintro (⟨e, he⟩ | h)
      · cases he
      · exact exists_readResponse h

lemma commandEnds_iff (cmd : Json) :
    CommandEnds libs cmd input ↔ HasAnswer libs cmd input := by
  rw [← exists_sendCommand_iff]
  refine ⟨fun h => h.returns, fun h => ⟨h, fun fuel val rest hreturn => ?_⟩⟩
  rw [sendCommand] at hreturn
  cases hwrite : libs.write (libs.printJson cmd ++ "\n") with
  | error e => simp [hwrite] at hreturn
  | ok u =>
    rw [hwrite] at hreturn
    exact firstMessage_of_readResponse hreturn

lemma connectEnds_iff : ConnectEnds libs input ↔
    NoGreeting (nextLine input).1 ∨ HasAnswer libs capabilities (nextLine input).2 := by
  rw [ConnectEnds, ← exists_sendCommand_iff, NoGreeting]
  simp only [connect, readLine]
  cases htext : fromUtf8 (nextLine input).1 with
  | none => exact iff_of_true ⟨0, rfl⟩ (.inl (by simp))
  | some text =>
    simp only [Option.some.injEq, forall_eq']
    by_cases hqmp : "QMP".toList <:+: text
    · have hsome : ¬(splitAround "QMP".toList text).isNone := by
        rw [Option.isNone_iff_eq_none, splitAround_eq_none_iff]
        exact not_not_intro hqmp
      simp only [if_neg hsome, Option.isSome_map]
      exact (or_iff_right (not_not_intro hqmp)).symm
    · have hnone : (splitAround "QMP".toList text).isNone := by
        rw [Option.isNone_iff_eq_none, splitAround_eq_none_iff]
        exact hqmp
      simp only [if_pos hnone]
      exact iff_of_true ⟨0, rfl⟩ (.inl hqmp)

/-- A command and the handshake end if what they wait for is there. -/
theorem ends_iff_hasAnswer (libs : QmpLibs) (cmd : Json) (input : List UInt8) :
    (CommandEnds libs cmd input ↔ HasAnswer libs cmd input) ∧
      (ConnectEnds libs input ↔
        NoGreeting (nextLine input).1 ∨ HasAnswer libs capabilities (nextLine input).2) :=
  ⟨commandEnds_iff cmd, connectEnds_iff⟩

end

/-- The capabilities are accepted, and then the connection is cut. -/
def greetingLibs : QmpLibs where
  parseJson _ := .ok (.obj [("QMP", .obj [])])
  printJson _ := "\x7b\"execute\":\"qmp_capabilities\"\x7d"
  write _ := .ok ()

def greetingLine : List Char := "\x7b\"QMP\":\x7b\x7d\x7d\n".toList

/-- The greeting and nothing else: neither the handshake nor a command after it ends. -/
theorem not_ends_greeting :
    ¬ConnectEnds greetingLibs (utf8 greetingLine) ∧
      ¬CommandEnds greetingLibs capabilities [] := by
  constructor
  · rw [connectEnds_iff]
    rintro (h | ⟨e, he⟩ | ⟨line, hline, -⟩)
    · exact h greetingLine (by decide +kernel) (by decide)
    · cases he
    · have hnil : (nextLine (utf8 greetingLine)).2 = [] := by decide +kernel
      rw [hnil] at hline
      cases hline
  · rw [commandEnds_iff]
    rintro (⟨e, he⟩ | ⟨line, hline, -⟩)
    · cases he
    · cases hline

end Arbeiterfarm.Tools.Qmp
