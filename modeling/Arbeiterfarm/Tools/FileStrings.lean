import Arbeiterfarm.Core.Bytes
import Arbeiterfarm.Foundation.Runs
import Arbeiterfarm.Orchestrator.Signals
import Arbeiterfarm.Tools.FileGrep

/-!
# Strings of a file

`file.strings` lists the printable runs of a file in one pass, which ends at the last run it may
report. `strings.extract` takes the strings that another program has found and filters them. Both
say that a listing is truncated: the first one as soon as it is full, the second one by the length
of the list before the filter. So a full listing of everything counts as truncated, and so does a
long list of which everything that qualifies is shown.

The listing of `file.strings` is the first maximal runs of printable bytes that are long enough.
Whether one is left out is another question than the two flags answer: the one of `file.strings` is
right unless there are exactly as many runs as may be reported, and the one of the filter is right
unless the list before the filter is longer than the limit and the strings that qualify are not.
-/

namespace Arbeiterfarm.Tools

open Foundation.Runs Orchestrator

/-! ### Printable runs -/

def isPrintable (b : UInt8) : Bool := 0x20 ≤ b && b < 0x7f

/-- The state of the scan: the listing and the run that is open. -/
structure StringScan where
  strings : List (ℕ × List UInt8) := []
  current : List UInt8 := []
  current_offset : ℕ := 0

section

variable (min_length max_strings : ℕ)

/-- The loop over the bytes. It breaks when the listing is full, and leaves the last run as it
is then. -/
def scanStrings (i : ℕ) (s : StringScan) : List UInt8 → StringScan
  | [] => s
  | byte :: data =>
    if isPrintable byte then
      scanStrings (i + 1)
        { s with
          current_offset := if s.current.isEmpty then i else s.current_offset
          current := s.current ++ [byte] } data
    else if s.current.length ≥ min_length then
      let strings := s.strings ++ [(s.current_offset, s.current)]
      if strings.length ≥ max_strings then { s with strings := strings }
      else scanStrings (i + 1) { s with strings := strings, current := [] } data
    else scanStrings (i + 1) { s with current := [] } data

/-- The last run has no byte behind it. -/
def StringScan.finish (s : StringScan) : List (ℕ × List UInt8) :=
  if s.current.length ≥ min_length ∧ s.strings.length < max_strings then
    s.strings ++ [(s.current_offset, s.current)]
  else s.strings

end

structure FoundString where
  offset : ℕ
  string : String
  deriving DecidableEq

/-- The bytes of a run are ASCII, so that each of them is a character of the text. -/
def foundString (r : ℕ × List UInt8) : FoundString := ⟨r.1, String.ofList (r.2.map byteAsChar)⟩

structure StringsReport where
  file_size : ℕ
  min_length : ℕ
  truncated : Bool
  strings : List FoundString
  deriving DecidableEq

def extractStrings (min_length max_strings : ℕ) (data : List UInt8) : StringsReport :=
  let strings := (scanStrings min_length max_strings 0 {} data).finish min_length max_strings
  { file_size := data.length
    min_length := min_length
    truncated := strings.length ≥ max_strings
    strings := strings.map foundString }

/-! ### The tool -/

def FoundString.toJson (s : FoundString) : Json :=
  .obj [("offset", .num (.int s.offset)), ("string", .str s.string)]

/-- The content of the file with all strings. -/
def StringsReport.fullResult (report : StringsReport) (filename : String) : Json :=
  .obj [("filename", .str filename), ("file_size", .num (.int report.file_size)),
    ("min_length", .num (.int report.min_length)),
    ("strings_found", .num (.int report.strings.length)), ("truncated", .bool report.truncated),
    ("strings", .arr (report.strings.map FoundString.toJson))]

def StringsReport.output (report : StringsReport) (filename : String) : Json :=
  .obj [("filename", .str filename), ("file_size", .num (.int report.file_size)),
    ("total_strings", .num (.int report.strings.length)), ("truncated", .bool report.truncated),
    ("top_strings", .arr ((report.strings.take 20).map FoundString.toJson)),
    ("hint", .str "Full string list stored as artifact. Use file.grep to search.")]

def stringsFile (report : StringsReport) (filename : String) : ProducedFile where
  filename := "strings.json"
  path := "strings.json"
  mime_type := some "application/json"
  description :=
    let strings_found := report.strings.length
    let min_length := report.min_length
    some s!"Extracted strings from {filename}: {strings_found} strings (min_length={min_length})"

def minLength (input : Json) : ℕ := (input.u64Field "min_length").getD 4

def maxStrings (input : Json) : ℕ := (input.u64Field "max_strings").getD 1000

/-- `content` is what reading the file gives, and `written` tells whether the file with the strings
can be written. The second part is its content. -/
def fileStrings (content : Except String (List UInt8)) (written : Bool) (filename : String)
    (input : Json) : OopResult × Option Json :=
  match content with
  | .error e => (.error "io_error" ("failed to read file: " ++ e) false, none)
  | .ok data =>
    let report := extractStrings (minLength input) (maxStrings input) data
    if written then
      (.ok (report.output filename) [stringsFile report filename],
        some (report.fullResult filename))
    else (.ok (report.output filename) [], none)

/-! ### The filter -/

/-- The last line that is a JSON array or object. -/
def lastJsonLine (parseJson : String → Option Json) (stdout : String) : Option Json :=
  (lines stdout.toList).reverse.findSome? fun line =>
    let trimmed := trim line
    if trimmed.head? = some '{' || trimmed.head? = some '[' then parseJson (String.ofList trimmed)
    else none

def encodingOk (encoding str_type : String) : Bool :=
  match encoding with
  | "all"     => true
  | "ascii"   => str_type = "ascii" || str_type = ""
  | "utf8"    => str_type = "utf8" || str_type = "ascii" || str_type = ""
  | "utf16le" => str_type = "utf16le"
  | "utf16be" => str_type = "utf16be"
  | _         => true

/-- A string that is long enough and has the encoding. -/
def qualifies (min_length : ℕ) (encoding : String) (s : Json) : Bool :=
  utf8Len ((s.strField "string").getD "") ≥ min_length &&
    encodingOk encoding ((s.strField "type").getD "")

/-- The strings of the output, or a note on why there are none. -/
def stringsArray (parsed : Option Json) : Except String (List Json) :=
  match parsed with
  | some (.arr strings) => .ok strings
  | some (.obj fields) =>
    match (Json.obj fields).get "strings" with
    | some (.arr strings) => .ok strings
    | _                   => .error "unexpected rizin output format"
  | _ => .error "no parseable output from rizin"

def filterStrings (parseJson : String → Option Json) (stdout : String)
    (min_length max_strings : ℕ) (encoding : String) : Json :=
  match stringsArray (lastJsonLine parseJson stdout) with
  | .error note => .obj [("strings", .arr []), ("total", .num (.int 0)), ("note", .str note)]
  | .ok strings_array =>
    let filtered := (strings_array.filter (qualifies min_length encoding)).take max_strings
    .obj [("strings", .arr filtered), ("total", .num (.int filtered.length)),
      ("truncated", .bool (strings_array.length > max_strings))]

/-! ### What may be listed -/

/-- The maximal printable runs of at least the given length. -/
def qualifyingRuns (min_length : ℕ) (data : List UInt8) : List (ℕ × List UInt8) :=
  (runs isPrintable data).filter fun r => r.2.length ≥ min_length

lemma mem_qualifyingRuns_iff {min_length : ℕ} {data : List UInt8} {r : ℕ × List UInt8} :
    r ∈ qualifyingRuns min_length data ↔ IsRun isPrintable data r ∧ min_length ≤ r.2.length := by
  rw [qualifyingRuns, List.mem_filter, mem_runs_iff, decide_eq_true_iff]

lemma pairwise_qualifyingRuns (min_length : ℕ) (data : List UInt8) :
    (qualifyingRuns min_length data).Pairwise fun r s => r.1 < s.1 :=
  (pairwise_runs isPrintable data).filter _

/-- The text of a run has the bytes of the run. -/
lemma utf8_foundString {r : ℕ × List UInt8} (h : ∀ b ∈ r.2, isPrintable b) :
    utf8 (foundString r).string.toList = r.2 := by
  obtain ⟨o, bytes⟩ := r
  rw [foundString, String.toList_ofList]
  induction bytes with
  | nil => rfl
  | cons b bytes ih =>
    have hb : b.toNat < 128 := by
      have hlt := h b List.mem_cons_self
      rw [isPrintable, Bool.and_eq_true, decide_eq_true_iff, decide_eq_true_iff,
        UInt8.lt_iff_toNat_lt] at hlt
      exact Nat.lt_trans hlt.2 (by decide)
    have htail := ih fun c hc => h c (List.mem_cons_of_mem b hc)
    show utf8 (byteAsChar b :: bytes.map byteAsChar) = b :: bytes
    rw [← List.singleton_append, utf8_append, utf8_byteAsChar hb, htail]
    rfl

/-- The strings are the first runs that qualify, and the flag says whether one is left out. -/
structure FaithfulListing (min_length max_strings : ℕ) (data : List UInt8) : Prop where
  strings : (extractStrings min_length max_strings data).strings =
    ((qualifyingRuns min_length data).take max_strings).map foundString
  truncated : (extractStrings min_length max_strings data).truncated = true ↔
    (qualifyingRuns min_length data).drop max_strings ≠ []

/-- The strings before the filter. -/
def stringsBefore (parseJson : String → Option Json) (stdout : String) : List Json :=
  (stringsArray (lastJsonLine parseJson stdout)).toOption.getD []

/-- The strings are the first ones that qualify, and the flag says whether one is left out. -/
structure FaithfulFilter (parseJson : String → Option Json) (stdout : String)
    (min_length max_strings : ℕ) (encoding : String) : Prop where
  strings : (filterStrings parseJson stdout min_length max_strings encoding).get "strings" =
    some (.arr (((stringsBefore parseJson stdout).filter
      (qualifies min_length encoding)).take max_strings))
  truncated : (filterStrings parseJson stdout min_length max_strings encoding).get "truncated" =
      some (.bool true) ↔
    ((stringsBefore parseJson stdout).filter (qualifies min_length encoding)).drop max_strings ≠ []

lemma drop_ne_nil_iff {α : Type} {l : List α} {n : ℕ} : l.drop n ≠ [] ↔ n < l.length := by
  rw [ne_eq, List.drop_eq_nil_iff, Nat.not_le]

/-! ### The scan -/

section

variable {min_length max_strings : ℕ}

lemma finish_of_room {s : StringScan} (hmin : 1 ≤ min_length)
    (hroom : s.strings.length < max_strings) {o : ℕ}
    (hoffset : s.current ≠ [] → s.current_offset = o) :
    s.finish min_length max_strings = s.strings ++
      (closed o s.current).filter fun r => r.2.length ≥ min_length := by
  by_cases hlong : s.current.length ≥ min_length
  · have hne : s.current ≠ [] := List.length_pos_iff.mp (Nat.le_trans hmin hlong)
    rw [StringScan.finish, if_pos ⟨hlong, hroom⟩, closed_of_ne_nil hne, hoffset hne]
    simp [hlong]
  · rw [StringScan.finish, if_neg fun h => hlong h.1]
    by_cases hnil : s.current = []
    · simp [hnil]
    · simp [closed_of_ne_nil hnil, hlong]

/-- The listing holds the runs so far, and the scan adds those to come until it is full. -/
lemma finish_scanStrings (hmin : 1 ≤ min_length) (data : List UInt8) {i o : ℕ} {s : StringScan}
    (hroom : s.strings.length < max_strings) (hi : o + s.current.length = i)
    (hoffset : s.current ≠ [] → s.current_offset = o) :
    (scanStrings min_length max_strings i s data).finish min_length max_strings =
      (s.strings ++ (runsFrom isPrintable o s.current data).filter
        fun r => r.2.length ≥ min_length).take max_strings := by
  induction data generalizing i o s with
  | nil =>
    have hlen : (s.strings ++ (closed o s.current).filter
        fun r => r.2.length ≥ min_length).length ≤ max_strings := by
      have hone : ((closed o s.current).filter fun r => r.2.length ≥ min_length).length ≤ 1 := by
        refine Nat.le_trans (List.length_filter_le _ _) ?_
        by_cases hnil : s.current = []
        · simp [hnil]
        · simp [closed_of_ne_nil hnil]
      rw [List.length_append]
      omega
    rw [scanStrings, finish_of_room hmin hroom hoffset, runsFrom_nil, List.take_of_length_le hlen]
  | cons byte data ih =>
    rw [scanStrings]
    by_cases hbyte : isPrintable byte
    · rw [if_pos hbyte, runsFrom_cons_of_pos hbyte]
      refine ih hroom ?_ fun _ => ?_
      · rw [← hi]
        simp [Nat.add_assoc]
      · by_cases hnil : s.current = []
        · simp [hnil, ← hi]
        · simp [hnil, hoffset hnil]
    · rw [if_neg hbyte, runsFrom_cons_of_neg hbyte, hi, List.filter_append]
      by_cases hlong : s.current.length ≥ min_length
      · have hne : s.current ≠ [] := List.length_pos_iff.mp (Nat.le_trans hmin hlong)
        have hclosed : ((closed o s.current).filter fun r => r.2.length ≥ min_length) =
            [(s.current_offset, s.current)] := by
          rw [closed_of_ne_nil hne, hoffset hne]
          simp [hlong]
        rw [if_pos hlong, hclosed, ← List.append_assoc]
        by_cases hfull : (s.strings ++ [(s.current_offset, s.current)]).length ≥ max_strings
        · rw [if_pos hfull, StringScan.finish, if_neg fun h => absurd h.2 (Nat.not_lt.mpr hfull),
            List.take_left' (Nat.le_antisymm _ hfull)]
          rw [List.length_append]
          exact hroom
        · rw [if_neg hfull]
          exact ih (Nat.lt_of_not_le hfull) rfl fun h => absurd rfl h
      · have hclosed : ((closed o s.current).filter fun r => r.2.length ≥ min_length) = [] := by
          by_cases hnil : s.current = []
          · simp [hnil]
          · simp [closed_of_ne_nil hnil, hlong]
        rw [if_neg hlong, hclosed, List.nil_append]
        exact ih hroom rfl fun h => absurd rfl h

lemma finish_scanStrings_start (hmin : 1 ≤ min_length) (hmax : 1 ≤ max_strings)
    (data : List UInt8) :
    (scanStrings min_length max_strings 0 {} data).finish min_length max_strings =
      (qualifyingRuns min_length data).take max_strings :=
  finish_scanStrings (s := {}) hmin data hmax rfl fun h => absurd rfl h

lemma strings_extractStrings (hmin : 1 ≤ min_length) (hmax : 1 ≤ max_strings)
    (data : List UInt8) : (extractStrings min_length max_strings data).strings =
      ((qualifyingRuns min_length data).take max_strings).map foundString := by
  rw [extractStrings, finish_scanStrings_start hmin hmax]

lemma faithfulListing_iff (hmin : 1 ≤ min_length) (hmax : 1 ≤ max_strings) (data : List UInt8) :
    FaithfulListing min_length max_strings data ↔
      (qualifyingRuns min_length data).length ≠ max_strings := by
  have hflag : (extractStrings min_length max_strings data).truncated = true ↔
      max_strings ≤ (qualifyingRuns min_length data).length := by
    rw [extractStrings, finish_scanStrings_start hmin hmax, decide_eq_true_iff, List.length_take]
    omega
  have hiff : FaithfulListing min_length max_strings data ↔
      (max_strings ≤ (qualifyingRuns min_length data).length ↔
        max_strings < (qualifyingRuns min_length data).length) := by
    rw [← hflag, ← drop_ne_nil_iff]
    exact ⟨fun h => h.truncated, fun h => ⟨strings_extractStrings hmin hmax data, h⟩⟩
  rw [hiff]
  omega

end

/-! ### What is listed -/

/-- The offset and the bytes of a string that is listed. -/
def FoundString.run (s : FoundString) : ℕ × List UInt8 := (s.offset, utf8 s.string.toList)

/-- The strings are maximal runs in the order of the file, and a run that is left out comes behind
as many others as may be listed. -/
structure ListsRuns (min_length max_strings : ℕ) (data : List UInt8)
    (strings : List FoundString) : Prop where
  ascending : strings.Pairwise fun s t => s.offset < t.offset
  runs : ∀ s ∈ strings, IsRun isPrintable data s.run ∧ min_length ≤ s.run.2.length
  complete : ∀ r, IsRun isPrintable data r → min_length ≤ r.2.length →
    (∃ s ∈ strings, s.run = r) ∨ strings.length = max_strings ∧ ∀ s ∈ strings, s.offset < r.1

/-- Whatever a file holds, its strings are listed as they are. -/
theorem listsRuns_extractStrings {min_length max_strings : ℕ} (hmin : 1 ≤ min_length)
    (hmax : 1 ≤ max_strings) (data : List UInt8) :
    ListsRuns min_length max_strings data
      (extractStrings min_length max_strings data).strings := by
  rw [strings_extractStrings hmin hmax]
  have hrun {r : ℕ × List UInt8} (hr : r ∈ qualifyingRuns min_length data) :
      (foundString r).run = r :=
    Prod.ext rfl (utf8_foundString (mem_qualifyingRuns_iff.mp hr).1.all)
  have hsplit : (qualifyingRuns min_length data).take max_strings ++
      (qualifyingRuns min_length data).drop max_strings = qualifyingRuns min_length data :=
    List.take_append_drop max_strings _
  have hascending := pairwise_qualifyingRuns min_length data
  rw [← hsplit, List.pairwise_append] at hascending
  obtain ⟨hlisted, -, hbehind⟩ := hascending
  refine ⟨List.pairwise_map.mpr hlisted, ?_, ?_⟩
  · intro s hs
    obtain ⟨r, hr, rfl⟩ := List.mem_map.mp hs
    rw [hrun (List.mem_of_mem_take hr)]
    exact mem_qualifyingRuns_iff.mp (List.mem_of_mem_take hr)
  · intro r hr hlong
    have hmem : r ∈ qualifyingRuns min_length data := mem_qualifyingRuns_iff.mpr ⟨hr, hlong⟩
    have hcases := hmem
    rw [← hsplit, List.mem_append] at hcases
    rcases hcases with htake | hdrop
    · exact .inl ⟨foundString r, List.mem_map_of_mem htake, hrun hmem⟩
    · right
      have hfull := drop_ne_nil_iff.mp (List.ne_nil_of_mem hdrop)
      refine ⟨by simp [Nat.le_of_lt hfull], ?_⟩
      intro s hs
      obtain ⟨r', hr', rfl⟩ := List.mem_map.mp hs
      exact hbehind r' hr' r hdrop

/-- `hello`, a zero byte, and `wonder`. -/
theorem listsRuns_extractStrings_hello : ListsRuns 4 10
    [104, 101, 108, 108, 111, 0, 119, 111, 110, 100, 101, 114]
    (extractStrings 4 10 [104, 101, 108, 108, 111, 0, 119, 111, 110, 100, 101, 114]).strings :=
  listsRuns_extractStrings (by simp) (by simp) _

/-! ### The filter -/

lemma faithfulFilter_iff (parseJson : String → Option Json) (stdout : String)
    (min_length max_strings : ℕ) (encoding : String) :
    FaithfulFilter parseJson stdout min_length max_strings encoding ↔
      (stringsBefore parseJson stdout).length ≤ max_strings ∨ max_strings <
        ((stringsBefore parseJson stdout).filter (qualifies min_length encoding)).length := by
  have hle := List.length_filter_le (qualifies min_length encoding) (stringsBefore parseJson stdout)
  have hstrings : (filterStrings parseJson stdout min_length max_strings encoding).get "strings" =
      some (.arr (((stringsBefore parseJson stdout).filter
        (qualifies min_length encoding)).take max_strings)) := by
    rw [filterStrings, stringsBefore]
    cases stringsArray (lastJsonLine parseJson stdout) with
    | error note => simp [Json.get, Except.toOption]
    | ok strings_array => rfl
  have hflag : (filterStrings parseJson stdout min_length max_strings encoding).get "truncated" =
      some (.bool true) ↔ max_strings < (stringsBefore parseJson stdout).length := by
    rw [filterStrings, stringsBefore]
    cases stringsArray (lastJsonLine parseJson stdout) with
    | error note => simp [Json.get, Except.toOption, List.lookup_cons]
    | ok strings_array => simp [Json.get, Except.toOption, List.lookup_cons]
  have hiff : FaithfulFilter parseJson stdout min_length max_strings encoding ↔
      (max_strings < (stringsBefore parseJson stdout).length ↔ max_strings <
        ((stringsBefore parseJson stdout).filter (qualifies min_length encoding)).length) := by
    rw [← hflag, ← drop_ne_nil_iff (l := (stringsBefore parseJson stdout).filter _)]
    exact ⟨fun h => h.truncated, fun h => ⟨hstrings, h⟩⟩
  rw [hiff]
  omega

/-- The listing is right and its flag too, unless there are exactly as many runs as may be
reported; the flag of the filter is right unless it counts strings that do not qualify. -/
theorem faithful_iff_limits (input : Json) (data : List UInt8) (hmin : 1 ≤ minLength input)
    (hmax : 1 ≤ maxStrings input) (parseJson : String → Option Json) (stdout : String)
    (min_length max_strings : ℕ) (encoding : String) :
    (FaithfulListing (minLength input) (maxStrings input) data ↔
      (qualifyingRuns (minLength input) data).length ≠ maxStrings input) ∧
    (FaithfulFilter parseJson stdout min_length max_strings encoding ↔
      (stringsBefore parseJson stdout).length ≤ max_strings ∨ max_strings <
        ((stringsBefore parseJson stdout).filter (qualifies min_length encoding)).length) :=
  ⟨faithfulListing_iff hmin hmax data,
    faithfulFilter_iff parseJson stdout min_length max_strings encoding⟩

/-- One string, and room for one. -/
def oneString : Json := .obj [("max_strings", .num (.int 1))]

/-- Of two strings, one is too short. -/
def shortStringText : String := "[\x7b\"string\":\"hello\"\x7d,\x7b\"string\":\"ab\"\x7d]"

def shortString : Json :=
  .arr [.obj [("string", .str "hello")], .obj [("string", .str "ab")]]

theorem faithful_iff_limits_hello :
    (FaithfulListing 4 1 [104, 101, 108, 108, 111] ↔
      (qualifyingRuns 4 [104, 101, 108, 108, 111]).length ≠ 1) ∧
    (FaithfulFilter (fun _ => some shortString) shortStringText 4 1 "all" ↔
      (stringsBefore (fun _ => some shortString) shortStringText).length ≤ 1 ∨ 1 <
        ((stringsBefore (fun _ => some shortString) shortStringText).filter
          (qualifies 4 "all")).length) :=
  faithful_iff_limits oneString [104, 101, 108, 108, 111] (by decide) (by decide)
    (fun _ => some shortString) shortStringText 4 1 "all"

/-- `hello`, and at most one string; the strings `hello` and `ab`, and at most one of at least
four characters. -/
theorem not_faithful_hello :
    ¬FaithfulListing (minLength oneString) (maxStrings oneString) [104, 101, 108, 108, 111] ∧
      ¬FaithfulFilter (fun _ => some shortString) shortStringText 4 1 "all" := by
  constructor
  · rw [faithfulListing_iff (by decide) (by decide)]
    decide
  · rw [faithfulFilter_iff]
    decide +kernel

end Arbeiterfarm.Tools
