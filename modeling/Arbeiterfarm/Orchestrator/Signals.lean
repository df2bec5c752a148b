import Arbeiterfarm.Core.Text

/-!
# Agent signals

Agents influence the remaining workflow by markers `signal:<kind>:<agent>:<reason>` in their
output. Text is scanned as a list of characters.
-/

namespace Arbeiterfarm.Orchestrator

inductive SignalKind where
  /-- Add the agent to the next group. -/
  | request
  /-- Remove the agent from all future groups. -/
  | skip
  /-- Move the agent from a later group to the next group. -/
  | priority
  deriving DecidableEq, Repr

structure AgentSignal where
  kind : SignalKind
  target_agent : String
  reason : String
  source_agent : String
  deriving DecidableEq, Repr

/-! ### Text -/

/-- The lines of a text; `line` is the current one, last character first. -/
def lines.go (line : List Char) : List Char → List (List Char)
  | [] => if line.isEmpty then [] else [line.reverse]
  | '\n' :: cs =>
    let line := if line.head? = some '\r' then line.tail else line
    line.reverse :: go [] cs
  | c :: cs => go (c :: line) cs

def lines (cs : List Char) : List (List Char) := lines.go [] cs

/-- The text before the first `sep`, and the text after it if there is one. -/
def splitOnce (sep : Char) : List Char → List Char × Option (List Char)
  | [] => ([], none)
  | c :: cs =>
    if c = sep then ([], some cs)
    else
      let (before, after) := splitOnce sep cs
      (c :: before, after)

/-! ### Parsing -/

def signalKind? (kind : String) : Option SignalKind :=
  if kind = "request" then some .request
  else if kind = "skip" then some .skip
  else if kind = "priority" then some .priority
  else none

def isAgentChar (c : Char) : Bool := c.isAlphanum || c = '-' || c = '_'

/-- `rest` is the marker after `signal:`, say `request:decompiler:Found packed UPX binary`. -/
def parseOneSignal (rest : List Char) (source_agent : String) : Option AgentSignal := do
  let (kind_str, afterKind) := splitOnce ':' rest
  let (target, afterTarget) := splitOnce ':' (← afterKind)
  let kind ← signalKind? (String.ofList kind_str)
  let reason := trim (afterTarget.getD [])
  if target.isEmpty || !target.all isAgentChar || reason.isEmpty then none
  else some ⟨kind, String.ofList target, String.ofList reason, source_agent⟩

def isTrailing (c : Char) : Bool := c = '`' || c = '\'' || c = '"' || c = ',' || c = '.'

/-- The signals of a line: one candidate at each occurrence of `signal:`. Occurrences do not
overlap, so that every suffix of the line is looked at. -/
def lineSignals (line : List Char) (source_agent : String) : List AgentSignal :=
  line.tails.filterMap fun suffix =>
    if "signal:".toList.isPrefixOf suffix then
      parseOneSignal ((trimEndMatches isTrailing suffix).drop "signal:".length) source_agent
    else none

def parseSignals (content source_agent : String) : List AgentSignal :=
  (lines content.toList).flatMap fun line => lineSignals line source_agent

/-! ### Conflicts -/

/-- The first signal for each target and kind. -/
def firstPerKind (signals : List AgentSignal) : List AgentSignal :=
  signals.foldl (fun result sig =>
    if result.any fun s => s.target_agent = sig.target_agent ∧ s.kind = sig.kind then result
    else result ++ [sig]) []

/-- A request wins over a skip of the same target. -/
def resolveConflicts (signals : List AgentSignal) : List AgentSignal :=
  let result := firstPerKind signals
  let request_targets := (result.filter fun s => s.kind = .request).map (·.target_agent)
  result.filter fun s => !(s.kind = .skip && request_targets.contains s.target_agent)

example : parseSignals "Found it. `signal:request:intel:Suspicious domain found`" "surface" =
    [⟨.request, "intel", "Suspicious domain found", "surface"⟩] := by decide

end Arbeiterfarm.Orchestrator
