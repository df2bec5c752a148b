import Arbeiterfarm.Core.Envelope
import Arbeiterfarm.Foundation.Fallible
import Arbeiterfarm.Foundation.Ranges
import Arbeiterfarm.Foundation.Utf8
import Mathlib.Algebra.Group.Nat.Defs
import Mathlib.Data.List.Sort

/-!
# Searching a file

`file.grep` finds the matching lines in a first pass, which ends at the last match to be reported,
and reads the lines around them in a second one. Lines are counted up to where the first pass has
ended, so a context never goes beyond it.
-/

namespace Arbeiterfarm.Tools

open Foundation Foundation.Ranges

/-! ### Lines of a file -/

/-- A line feed ends a line, and a carriage return before it belongs to the end. -/
def stripCr (line : List Utf8.Byte) : List Utf8.Byte :=
  if line.getLast? = some 13 then line.dropLast else line

/-- `BufRead::lines`; a line that is not UTF-8 has a text of its own. -/
def readLines (content : List Utf8.Byte) : List String :=
  let pieces := content.splitOn 10
  let last := pieces.getLastD []
  (pieces.dropLast.map stripCr ++ if last = [] then [] else [last]).map fun line =>
    (String.fromUTF8? ⟨line.toArray⟩).getD "<non-utf8>"

/-! ### The two passes -/

/-- An error of a tool; none of these is retryable. -/
structure OopError where
  code : String
  message : String
  retryable : Bool := false
  deriving DecidableEq

def maxScanLines : ℕ := 2000000

def fileTooLarge : OopError where
  code := "file_too_large"
  message := let max := maxScanLines
    s!"file exceeds {max} lines — use file.read_range instead"

structure ContextLine where
  line_number : ℕ
  content : String
  is_match : Bool
  deriving DecidableEq

structure GrepMatch where
  line_number : ℕ
  line : String
  context : List ContextLine
  deriving DecidableEq

structure GrepReport where
  total_lines : ℕ
  truncated : Bool
  found : List GrepMatch
  deriving DecidableEq

section

variable (is_match : String → Bool) (context_lines max_matches : UInt64)

/-- The first pass: the matching lines with their numbers, and how many lines were counted. -/
def scanLines : List String → ℕ → List (String × ℕ) → Except OopError (List (String × ℕ) × ℕ)
  | [], total_lines, found => .ok (found, total_lines)
  | line :: lines, total_lines, found =>
    if is_match line then
      let found := found ++ [(line, total_lines)]
      if found.length ≥ max_matches.toNat then .ok (found, total_lines + 1)
      else if total_lines + 1 ≥ maxScanLines then .error fileTooLarge
      else scanLines lines (total_lines + 1) found
    else if total_lines + 1 ≥ maxScanLines then .error fileTooLarge
    else scanLines lines (total_lines + 1) found

/-- The lines around a match; the end is computed modulo 2^64. -/
def contextRange (total_lines line_num : ℕ) : Range :=
  (line_num - context_lines.toNat,
    min ((line_num + context_lines.toNat + 1) % 2 ^ 64) total_lines)

/-- The order of pairs. -/
def RangeLe (x y : Range) : Prop := x.1 < y.1 ∨ x.1 = y.1 ∧ x.2 ≤ y.2

instance : DecidableRel RangeLe := fun x y =>
  inferInstanceAs (Decidable (x.1 < y.1 ∨ x.1 = y.1 ∧ x.2 ≤ y.2))

/-- The second pass reads the lines of the merged ranges. -/
def lineCache (lines : List String) (total_lines : ℕ) (found : List (String × ℕ)) :
    List (ℕ × String) :=
  let needed_ranges := found.map fun p => contextRange context_lines total_lines p.2
  pick (mergeRanges (needed_ranges.insertionSort RangeLe)) 0 lines

def matchContext (line_cache : List (ℕ × String)) (total_lines line_num : ℕ) :
    List ContextLine :=
  let range := contextRange context_lines total_lines line_num
  (List.range' range.1 (range.2 - range.1)).map fun j =>
    ⟨j + 1, (line_cache.lookup j).getD "<unavailable>", j = line_num⟩

/-- The report about the lines of a file. -/
def grepLines (lines : List String) : Except OopError GrepReport := do
  let (found, total_lines) ← scanLines is_match max_matches lines 0 []
  if found.isEmpty then .ok ⟨total_lines, false, []⟩
  else
    let line_cache := lineCache context_lines lines total_lines found
    .ok ⟨total_lines, found.length ≥ max_matches.toNat, found.map fun p =>
      ⟨p.2 + 1, p.1, matchContext context_lines line_cache total_lines p.2⟩⟩

end

/-! ### The tool -/

def ContextLine.toJson (c : ContextLine) : Json :=
  .obj [("line_number", .num (.int c.line_number)), ("content", .str c.content),
    ("is_match", .bool c.is_match)]

def GrepMatch.toJson (m : GrepMatch) : Json :=
  .obj [("line_number", .num (.int m.line_number)), ("line", .str m.line),
    ("context", .arr (m.context.map ContextLine.toJson))]

def GrepReport.summary (report : GrepReport) (filename pattern : String) : List (String × Json) :=
  [("filename", .str filename), ("pattern", .str pattern),
    ("total_lines", .num (.int report.total_lines)),
    ("matches_found", .num (.int report.found.length)), ("truncated", .bool report.truncated)]

/-- The output, and the content of the file with all matches. -/
def GrepReport.result (report : GrepReport) (filename pattern : String) :
    Json × Option Json :=
  let all := report.found.map GrepMatch.toJson
  if report.found.isEmpty then
    (.obj (report.summary filename pattern ++ [("matches", .arr [])]), none)
  else
    (.obj (report.summary filename pattern ++ [("top_matches", .arr (all.take 5)),
      ("hint", .str "Full grep results stored as artifact. Use file.read_range to inspect.")]),
      some (.obj (report.summary filename pattern ++ [("matches", .arr all)])))

/-- The file that holds all matches. -/
def grepResultsFile (report : GrepReport) (filename pattern : String) : ProducedFile where
  filename := "grep_results.json"
  path := "grep_results.json"
  mime_type := some "application/json"
  description :=
    let matches_found := report.found.length
    some s!"Grep results for '{pattern}': {matches_found} matches in {filename}"

/-- `regexNew` compiles a pattern, `content` is what opening the file gives, and `written` tells
whether the file with the matches can be written. -/
def execute (regexNew : String → Except String (String → Bool))
    (content : Except String (List Utf8.Byte)) (written : Bool) (filename : String)
    (input : Json) : OopResult :=
  match input.strField "pattern" with
  | none => .error "invalid_input" "missing 'pattern' field" false
  | some pattern =>
    let context_lines := UInt64.ofNat ((input.u64Field "context_lines").getD 2)
    let max_matches := UInt64.ofNat ((input.u64Field "max_matches").getD 100)
    match regexNew pattern with
    | .error e => .error "invalid_pattern" ("invalid regex: " ++ e) false
    | .ok re =>
      match content with
      | .error e => .error "io_error" ("failed to open file: " ++ e) false
      | .ok bytes =>
        match grepLines re context_lines max_matches (readLines bytes) with
        | .error e => .error e.code e.message e.retryable
        | .ok report =>
          let (output, full_result) := report.result filename pattern
          .ok output (if full_result.isSome && written then
            [grepResultsFile report filename pattern] else [])

end Arbeiterfarm.Tools
