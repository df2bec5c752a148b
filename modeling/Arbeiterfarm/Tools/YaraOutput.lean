import Arbeiterfarm.Core.Json
import Arbeiterfarm.Orchestrator.Signals
import Arbeiterfarm.Tools.Renames

/-!
# The output of a YARA scan

The output has a line for each rule that matches a file, and after it a line for each string of the
rule in the file. A rule is kept open until the next one begins. Of the line of a rule only the name
and the tags are read, so that a line break in the path of the file begins another rule.
-/

namespace Arbeiterfarm.Tools.Yara

open Orchestrator

/-! ### The parser -/

/-- The name of a rule and its tags. -/
def parseRuleLine (line : List Char) : List Char × List (List Char) :=
  let (name, rest) := (splitAround [' '] line).getD (line, [])
  match rest with
  | '[' :: body =>
    match splitAround [']'] body with
    | some (inside, _) => (name, ((inside.splitOn ',').map trim).filter (!·.isEmpty))
    | none             => (name, [])
  | _ => (name, [])

/-- A string with its offset, its name and its data. -/
def matchJson (offset string_id data : List Char) : Json :=
  .obj [("offset", .str (String.ofList offset)), ("string_id", .str (String.ofList string_id)),
    ("data", .str (String.ofList data))]

def parseMatchLine (line : List Char) : Option Json :=
  (splitAround [':'] line).bind fun (offset, rest) =>
    (splitAround [':'] rest).map fun (string_id, data) =>
      matchJson offset (trim string_id) (trim data)

structure PendingRule where
  name : List Char
  tags : List (List Char)
  found : List Json

def PendingRule.toJson (r : PendingRule) : Json :=
  .obj [("rule", .str (String.ofList r.name)),
    ("tags", .arr (r.tags.map fun t => .str (String.ofList t))), ("matches", .arr r.found),
    ("match_count", .num (.int r.found.length))]

structure YaraParser where
  rules : List Json := []
  current_rule : Option PendingRule := none

/-- The rules with the one that is open. -/
def YaraParser.flush (s : YaraParser) : List Json :=
  s.rules ++ (s.current_rule.map PendingRule.toJson).toList

/-- A line without the blanks around it. -/
def YaraParser.onTrimmed (s : YaraParser) (line : List Char) : YaraParser :=
  if line.isEmpty then s
  else if ['0', 'x'].isPrefixOf line then
    match s.current_rule, parseMatchLine line with
    | some rule, some m => { s with current_rule := some { rule with found := rule.found ++ [m] } }
    | _, _              => s
  else
    let (name, tags) := parseRuleLine line
    { rules := s.flush
      current_rule := if name.isEmpty then none else some ⟨name, tags, []⟩ }

def YaraParser.onLine (s : YaraParser) (line : List Char) : YaraParser := s.onTrimmed (trim line)

def scanJson (rules : List Json) : Json :=
  .obj [("total_rules_matched", .num (.int rules.length)), ("rules", .arr rules)]

def parseYaraOutput (stdout : String) : Json :=
  scanJson ((lines stdout.toList).foldl YaraParser.onLine {}).flush

/-! ### What is printed -/

/-- `[0-9A-Fa-f]`. -/
def isHexCode (n : ℕ) : Bool :=
  (48 ≤ n && n ≤ 57) || (65 ≤ n && n ≤ 70) || (97 ≤ n && n ≤ 102)

/-- Letters, digits and underscores that do not begin with a digit. -/
def isIdentifier (s : List Char) : Bool :=
  s.head?.any (fun c => !c.isDigit) && s.all isNameChar

/-- The offset `0x…` of a string `$…` and its data. -/
structure StringMatch where
  digits : List Char
  id : List Char
  data : List Char
  hex : digits ≠ [] ∧ ∀ c ∈ digits, isHexCode c.toNat
  named : ∀ c ∈ id, isNameChar c
  trimmed : trim data = data
  oneLine : '\n' ∉ data

/-- A rule, and the absolute path of the file. -/
structure MatchedRule where
  name : List Char
  tags : List (List Char)
  path : List Char
  found : List StringMatch
  named : isIdentifier name
  tagged : ∀ t ∈ tags, isIdentifier t
  absolute : path.head? = some '/'

def StringMatch.offset (m : StringMatch) : List Char := '0' :: 'x' :: m.digits

def StringMatch.line (m : StringMatch) : List Char :=
  m.offset ++ ':' :: ('$' :: m.id ++ ':' :: ' ' :: m.data)

/-- The tags in brackets, if there are any. -/
def tagsText (tags : List (List Char)) : List Char :=
  if tags.isEmpty then [] else '[' :: ([','].intercalate tags ++ [']', ' '])

def MatchedRule.line (r : MatchedRule) : List Char := r.name ++ ' ' :: (tagsText r.tags ++ r.path)

/-- The lines of the rules and of their strings. -/
def printedLines (rules : List MatchedRule) : List (List Char) :=
  rules.flatMap fun r => r.line :: r.found.map StringMatch.line

/-- The output: every line ends with a line feed. -/
def printed (rules : List MatchedRule) : String :=
  String.ofList ((printedLines rules).flatMap fun line => line ++ ['\n'])

def StringMatch.toJson (m : StringMatch) : Json := matchJson m.offset ('$' :: m.id) m.data

def MatchedRule.toJson (r : MatchedRule) : Json :=
  PendingRule.toJson ⟨r.name, r.tags, r.found.map StringMatch.toJson⟩

/-- The rules come back in order. -/
def RoundTrips (rules : List MatchedRule) : Prop :=
  parseYaraOutput (printed rules) = scanJson (rules.map MatchedRule.toJson)

end Arbeiterfarm.Tools.Yara
