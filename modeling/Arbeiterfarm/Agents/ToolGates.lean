import Arbeiterfarm.Agents.History
import Arbeiterfarm.Agents.Levenshtein
import Mathlib.Data.String.Basic

/-!
# The checks on a tool call

A tool call of the model passes five checks before it is dispatched: the configuration of the
agent, the native tool set of local models, the restrictions of the user, the budget of the tool
and the syntax of its arguments. A call that fails one of them is answered by an error text. Before
the checks a misspelt name is replaced by a registered one, if only one is close to it.
-/

namespace Arbeiterfarm.Agents

open Foundation.EditDistance

/-! ### Tool names -/

structure ToolSpec where
  name : String
  max_calls_per_run : ℕ
  deriving DecidableEq, Repr

/-- The latest specification of each tool, in the order in which the registry lists them. -/
abbrev ToolSpecRegistry := List ToolSpec

namespace ToolSpecRegistry

def getLatest (specs : ToolSpecRegistry) (name : String) : Option ToolSpec :=
  specs.find? fun spec => spec.name = name

def names (specs : ToolSpecRegistry) : List String := specs.map (·.name)

end ToolSpecRegistry

/-- A name or a pattern with the suffix `.*` for a namespace. -/
def patternMatches (pattern tool_name : String) : Bool :=
  pattern = tool_name || pattern = "*" ||
    (".*".toList.isSuffixOf pattern.toList &&
      (pattern.toList.dropLast.dropLast ++ ['.']).isPrefixOf tool_name.toList)

def isToolAllowedByConfig (tool_name : String) (allowed : List String) : Bool :=
  allowed.any fun pattern => patternMatches pattern tool_name

/-- The restricted tools and the grants of the user. -/
structure RestrictionCache where
  restricted : List String
  grants : List String

def RestrictionCache.isAllowed (rc : RestrictionCache) (tool_name : String) : Bool :=
  if rc.restricted.any fun pattern => patternMatches pattern tool_name then
    rc.grants.any fun pattern => patternMatches pattern tool_name
  else true

/-- The cache of a run: there is none without a user, or when no tool is restricted. -/
def loadRestrictions (user_id : Option Uuid) (restricted : List String)
    (grants : Uuid → List String) : Option RestrictionCache :=
  match user_id with
  | none => none
  | some uid => if restricted.isEmpty then none else some ⟨restricted, grants uid⟩

/-- A restricted tool that the cache of a user allows is granted to the user. -/
lemma granted_of_isAllowed {uid : Uuid} {restricted : List String} {grants : Uuid → List String}
    {tool_name : String}
    (h : ∀ rc ∈ loadRestrictions (some uid) restricted grants, rc.isAllowed tool_name = true)
    (hrestricted : (restricted.any fun pattern => patternMatches pattern tool_name) = true) :
    ((grants uid).any fun pattern => patternMatches pattern tool_name) = true := by
  have hsome : loadRestrictions (some uid) restricted grants = some ⟨restricted, grants uid⟩ := by
    cases restricted with
    | nil => cases hrestricted
    | cons => rfl
  have hallowed := h _ hsome
  simpa only [RestrictionCache.isAllowed, hrestricted, if_true] using hallowed

/-- The last segment of a tool name. -/
def toolSuffix (full_name : String) : String :=
  String.ofList (full_name.toList.reverse.takeWhile (· ≠ '.')).reverse

/-- Repair a name that the registry does not know, if there is exactly one candidate. -/
def fixupToolName (name : String) (specs : ToolSpecRegistry) : String :=
  if (specs.getLatest name).isSome then name
  else
    match (if '.' ∈ name.toList then [] else specs.names.filter fun n => toolSuffix n = name),
      specs.names.filter fun n => levenshtein name n ≤ 2 with
    | [full_name], _ => full_name
    | _, [close]     => close
    | _, _           => name

/-! ### Misspelt names -/

/-- At most two edits of bytes make the one name of the other. -/
def Close (a b : String) : Prop := ∃ n ≤ 2, Edits (utf8 a.toList) (utf8 b.toList) n

lemma close_iff {a b : String} : Close a b ↔ levenshtein a b ≤ 2 := by
  rw [levenshtein_eq_editDistance]
  constructor
  · rintro ⟨n, hn, h⟩
    exact (editDistance_le h).trans hn
  · intro h
    exact ⟨_, h, edits_editDistance _ _⟩

/-- The only one of the names that meets a condition. -/
lemma mem_of_filter_eq_singleton {names : List String} {p : String → Prop} [DecidablePred p]
    {n : String} (h : names.filter (fun m => p m) = [n]) :
    n ∈ names ∧ p n ∧ ∀ m ∈ names, p m → m = n := by
  have hmem (m : String) : m ∈ names ∧ p m ↔ m = n := by
    rw [← List.mem_singleton, ← h, List.mem_filter, decide_eq_true_eq]
  obtain ⟨hn, hp⟩ := (hmem n).mpr rfl
  exact ⟨hn, hp, fun m hm hpm => (hmem m).mp ⟨hm, hpm⟩⟩

lemma close_of_filter_eq_singleton {name n : String} {names : List String}
    (h : names.filter (fun m => levenshtein name m ≤ 2) = [n]) :
    n ∈ names ∧ Close name n ∧ ∀ m ∈ names, Close name m → m = n := by
  simp only [close_iff]
  exact mem_of_filter_eq_singleton h

lemma isSome_getLatest {specs : ToolSpecRegistry} {name : String} :
    (specs.getLatest name).isSome ↔ name ∈ specs.names := by
  simp [ToolSpecRegistry.getLatest, ToolSpecRegistry.names]

/-- The tool that is meant by a name: the one of this name, else the only one whose last segment it
is or the only one that is close to it; any other name is kept. -/
inductive Meant (specs : ToolSpecRegistry) (called : String) : String → Prop
  | registered (hknown : called ∈ specs.names) : Meant specs called called
  | suffix {name : String} (hunknown : called ∉ specs.names) (hmem : name ∈ specs.names)
      (hsuffix : toolSuffix name = called)
      (honly : ∀ n ∈ specs.names, toolSuffix n = called → n = name) : Meant specs called name
  | close {name : String} (hunknown : called ∉ specs.names) (hmem : name ∈ specs.names)
      (hclose : Close called name)
      (honly : ∀ n ∈ specs.names, Close called n → n = name) : Meant specs called name
  | kept (hunknown : called ∉ specs.names) : Meant specs called called

lemma meant_fixupToolName (called : String) (specs : ToolSpecRegistry) :
    Meant specs called (fixupToolName called specs) := by
  rw [fixupToolName]
  simp only [isSome_getLatest]
  split_ifs with hknown hdot
  · exact .registered hknown
  · -- a name with a dot is not looked for among the suffixes
    split
    · next hsuffix => cases hsuffix
    · next n hclose _ =>
      obtain ⟨hn, hedits, honly⟩ := close_of_filter_eq_singleton hclose
      exact .close hknown hn hedits honly
    · exact .kept hknown
  · split
    · next n hsuffix =>
      obtain ⟨hn, hends, honly⟩ := mem_of_filter_eq_singleton hsuffix
      exact .suffix hknown hn hends honly
    · next n hclose _ =>
      obtain ⟨hn, hedits, honly⟩ := close_of_filter_eq_singleton hclose
      exact .close hknown hn hedits honly
    · exact .kept hknown

/-! ### Error texts -/

/-- At most ten names, and how many there are beyond them. -/
def displayNames (more : ℕ → String) (names : List String) : String :=
  if 10 < names.length then
    String.intercalate ", " (names.take 10) ++ ", ... (" ++ more (names.length - 10) ++ ")"
  else String.intercalate ", " names

def DistanceLe (a b : String × ℕ) : Prop := a.2 ≤ b.2

instance : DecidableRel DistanceLe := fun a b => inferInstanceAs (Decidable (a.2 ≤ b.2))

def NameLe (a b : String) : Prop := a.toList ≤ b.toList

instance : DecidableRel NameLe := fun a b => inferInstanceAs (Decidable (a.toList ≤ b.toList))

def suggestSimilarTools (name : String) (specs : ToolSpecRegistry) (allowed : List String)
    (max max_dist : ℕ) : List String :=
  let scored := (specs.names.filter fun n => isToolAllowedByConfig n allowed).map fun n =>
    (n, levenshtein name n)
  (((scored.filter fun s => s.2 ≤ max_dist).insertionSort DistanceLe).take max).map (·.1)

def toolNotAllowedMessage (tool_name : String) (specs : ToolSpecRegistry)
    (allowed : List String) : String :=
  let current_tools :=
    (specs.names.filter fun n => isToolAllowedByConfig n allowed).insertionSort NameLe
  let tools_display := displayNames
    (fun n => toString n ++ " more, use tools.discover for full list") current_tools
  let tail := "Your current tools: " ++ tools_display ++
    "\nRe-issue exactly one tool call with a correct tool name, or answer without tools."
  if (specs.getLatest tool_name).isSome then
    "TOOL ERROR: Tool '" ++ tool_name ++ "' is not allowed for this agent.\n" ++ tail
  else
    let suggestions := suggestSimilarTools tool_name specs allowed 3 4
    let did_you_mean :=
      if suggestions.isEmpty then ""
      else "Did you mean: " ++ String.intercalate ", " suggestions ++ "?\n"
    "TOOL ERROR: Tool '" ++ tool_name ++ "' does not exist.\n" ++ did_you_mean ++ tail

def toolNotEnabledMessage (name : String) (native : List String) : String :=
  "TOOL ERROR: Tool '" ++ name ++ "' is not enabled. Call tools.discover('" ++ name ++
    "') first to enable it.\nYour current tools: " ++
    displayNames (fun n => toString n ++ " more") native

def malformedArgumentsMessage (error args : String) : String :=
  "TOOL ERROR: Malformed tool call arguments (JSON parse error): " ++ error ++
    "\nRaw input: " ++ String.ofList (args.toList.take 200) ++
    "\nPlease retry with valid JSON arguments."

def maxConsecutiveErrors : ℕ := 3

/-- Ask the model to stop after too many errors, and remind a local model of its task. -/
def appendErrorBudgetWarning (msg : String) (consecutive_errors : ℕ)
    (memory_pairs : List (String × String)) (is_local : Bool) : String :=
  let msg :=
    if maxConsecutiveErrors ≤ consecutive_errors then
      msg ++ "\nYou have failed " ++ toString consecutive_errors ++ " consecutive tool calls. " ++
        "Provide your best answer using the information you already have, without calling any " ++
        "more tools."
    else msg
  match is_local, memory_pairs.lookup "goal" with
  | true, some goal => msg ++ "\nYour original task: " ++ goal
  | _, _ => msg

/-! ### The checks -/

/-- What a run of the loop is configured with. -/
structure LoopConfig where
  specs : ToolSpecRegistry
  allowed_tools : List String
  restriction_cache : Option RestrictionCache := none
  /-- The backend is local, and only native tools may be called. -/
  is_local : Bool
  use_cwc : Bool := false
  tool_call_budget : Option ℕ := none
  agent_name : Option String := none
  system_prompt : String
  max_llm_tokens_per_day : Option ℤ := none
  max_output : ℕ
  /-- The JSON parser, with the text of its error. -/
  parseJson : String → Except String Json

/-- How often each tool has been called; the first entry of a name counts. -/
abbrev ToolCounts := List (String × ℕ)

def ToolCounts.get (counts : ToolCounts) (name : String) : ℕ := (counts.lookup name).getD 0

def ToolCounts.bump (counts : ToolCounts) (name : String) : ToolCounts :=
  (name, counts.get name + 1) :: counts

/-- The call is counted, also when it exceeds the budget. -/
def checkPerToolBudget (tool_name : String) (counts : ToolCounts) (specs : ToolSpecRegistry) :
    Option String × ToolCounts :=
  let counts := counts.bump tool_name
  let error := (specs.getLatest tool_name).bind fun spec =>
    if spec.max_calls_per_run < counts.get tool_name then
      some ("tool '" ++ tool_name ++ "' exceeded per-run call limit (" ++
        toString (counts.get tool_name) ++ "/" ++ toString spec.max_calls_per_run ++ ")")
    else none
  (error, counts)

/-- Discovery is always allowed for local models. -/
def LoopConfig.allows (cfg : LoopConfig) (name : String) : Bool :=
  (cfg.is_local && name = "tools.discover") || isToolAllowedByConfig name cfg.allowed_tools

/-- The checks on a repaired name, in order, with the error that answers the call if it fails
one. -/
def checkGates (cfg : LoopConfig) (native : List String) (counts : ToolCounts) (name : String) :
    Except String Unit × ToolCounts :=
  if cfg.allows name = false then
    (.error (toolNotAllowedMessage name cfg.specs cfg.allowed_tools), counts)
  else if cfg.is_local ∧ name ∉ native then
    (.error (toolNotEnabledMessage name native), counts)
  else if (cfg.restriction_cache.any fun rc => !rc.isAllowed name) then
    (.error ("Error: Tool '" ++ name ++ "' requires a grant from your administrator"), counts)
  else
    match checkPerToolBudget name counts cfg.specs with
    | (some error, counts) => (.error ("TOOL ERROR: " ++ error), counts)
    | (none, counts) => (.ok (), counts)

/-- The checks on a call with a repaired name, in order: the error that answers it, or its
arguments. -/
def checkCall (cfg : LoopConfig) (native : List String) (counts : ToolCounts)
    (name args : String) : Except String Json × ToolCounts :=
  if cfg.allows name = false then
    (.error (toolNotAllowedMessage name cfg.specs cfg.allowed_tools), counts)
  else if cfg.is_local ∧ name ∉ native then
    (.error (toolNotEnabledMessage name native), counts)
  else if (cfg.restriction_cache.any fun rc => !rc.isAllowed name) then
    (.error ("Error: Tool '" ++ name ++ "' requires a grant from your administrator"), counts)
  else
    match checkPerToolBudget name counts cfg.specs with
    | (some error, counts) => (.error ("TOOL ERROR: " ++ error), counts)
    | (none, counts) =>
      match cfg.parseJson args with
      | .error e => (.error (malformedArgumentsMessage e args), counts)
      | .ok arguments => (.ok arguments, counts)

/-- The arguments are parsed last. -/
lemma checkCall_eq (cfg : LoopConfig) (native : List String) (counts : ToolCounts)
    (name args : String) : checkCall cfg native counts name args =
      match checkGates cfg native counts name with
      | (.error e, counts) => (.error e, counts)
      | (.ok (), counts) =>
        match cfg.parseJson args with
        | .error e => (.error (malformedArgumentsMessage e args), counts)
        | .ok arguments => (.ok arguments, counts) := by
  simp only [checkCall, checkGates]
  split_ifs
  · rfl
  · rfl
  · rfl
  · obtain ⟨error, counts⟩ := checkPerToolBudget name counts cfg.specs
    cases error <;> rfl

/-- What a dispatched name has passed, besides the budget of the tool. -/
structure PassesGates (cfg : LoopConfig) (native : List String) (name : String) : Prop where
  allowed : cfg.allows name = true
  native : cfg.is_local = true → name ∈ native
  granted : ∀ rc ∈ cfg.restriction_cache, rc.isAllowed name = true

lemma checkPerToolBudget_snd (name : String) (counts : ToolCounts) (specs : ToolSpecRegistry) :
    (checkPerToolBudget name counts specs).2 = counts.bump name := rfl

lemma checkPerToolBudget_eq_none {name : String} {counts : ToolCounts} {specs : ToolSpecRegistry}
    (h : (checkPerToolBudget name counts specs).1 = none) :
    ∀ spec ∈ specs.getLatest name, (counts.bump name).get name ≤ spec.max_calls_per_run := by
  intro spec hspec
  rw [Option.mem_def] at hspec
  simp only [checkPerToolBudget, hspec, Option.bind_some] at h
  split_ifs at h with hexceeds
  exact Nat.le_of_not_lt hexceeds

/-- Whatever the outcome, a call is counted once at most. -/
lemma checkGates_counts (cfg : LoopConfig) (native : List String) (counts : ToolCounts)
    (name : String) : (checkGates cfg native counts name).2 = counts ∨
      (checkGates cfg native counts name).2 = counts.bump name := by
  have hbump := checkPerToolBudget_snd name counts cfg.specs
  simp only [checkGates]
  split_ifs
  · exact .inl rfl
  · exact .inl rfl
  · exact .inl rfl
  · right
    generalize checkPerToolBudget name counts cfg.specs = result at hbump ⊢
    obtain ⟨error, counts'⟩ := result
    cases error <;> exact hbump

/-- A name that passes is counted, and the count is within the budget of the tool. -/
lemma checkGates_ok {cfg : LoopConfig} {native : List String} {counts counts' : ToolCounts}
    {name : String} (h : checkGates cfg native counts name = (.ok (), counts')) :
    PassesGates cfg native name ∧ counts' = counts.bump name ∧
      ∀ spec ∈ cfg.specs.getLatest name, (counts.bump name).get name ≤ spec.max_calls_per_run := by
  have hbump := checkPerToolBudget_snd name counts cfg.specs
  have hbudget (hnone : (checkPerToolBudget name counts cfg.specs).1 = none) :=
    checkPerToolBudget_eq_none hnone
  simp only [checkGates] at h
  split_ifs at h with hallowed hnative hgranted
  · cases h
  · cases h
  · cases h
  · generalize checkPerToolBudget name counts cfg.specs = result at h hbump hbudget
    obtain ⟨error, counts''⟩ := result
    cases error with
    | some error => cases h
    | none =>
      cases h
      refine ⟨⟨?_, ?_, ?_⟩, hbump, hbudget rfl⟩
      · simpa using hallowed
      · intro hlocal
        by_contra hmem
        exact hnative ⟨hlocal, hmem⟩
      · intro rc hrc
        rw [Option.mem_def] at hrc
        simpa [hrc] using hgranted

end Arbeiterfarm.Agents
