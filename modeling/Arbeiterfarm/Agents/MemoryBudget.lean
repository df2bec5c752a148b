import Arbeiterfarm.Agents.History
import Arbeiterfarm.Core.Bytes
import Arbeiterfarm.Core.Text

/-!
# The size of the thread memory

The values that are remembered of a thread are cut at character boundaries when they are extracted,
and the rendered memory always begins with the goal. Lines of findings are added while the text
stays below its limit, but the conclusion and the last line are added in any case.
-/

namespace Arbeiterfarm.Agents

open Foundation.Offsets

/-! ### Extraction -/

def truncateValueWithCap (s : String) (cap : ℕ) : Option String :=
  let s := String.ofList (trim s.toList)
  if utf8Len s ≤ cap then some s
  else (firstBytes s (floorCharBoundary s cap)).map (· ++ "...")

def maxEntryValueLen : ℕ := 256

def maxHighValueEntryLen : ℕ := 512

def truncateValue (s : String) : Option String := truncateValueWithCap s maxEntryValueLen

structure MemoryEntry where
  key : String
  value : String
  deriving DecidableEq, Repr

def highValueTools : List String :=
  ["ghidra.decompile", "sandbox.trace", "sandbox.hook", "yara.generate"]

/-- The keys of the tools that are known. -/
def curatedKeys : List (String × String) :=
  [("rizin.bininfo", "finding:rizin_bininfo"), ("file.info", "finding:file_info"),
    ("ghidra.analyze", "finding:ghidra_analyze"), ("ghidra.decompile", "finding:ghidra_decompile"),
    ("strings.extract", "finding:strings"), ("file.strings", "finding:strings"),
    ("sandbox.trace", "finding:sandbox_trace"), ("sandbox.hook", "finding:sandbox_hook"),
    ("vt.file_report", "finding:vtotal"), ("file.grep", "finding:grep"),
    ("rizin.disasm", "finding:rizin_disasm"), ("rizin.xrefs", "finding:rizin_xrefs"),
    ("file.hexdump", "finding:hexdump"), ("yara.scan", "finding:yara_scan"),
    ("yara.test", "finding:yara_test"), ("yara.generate", "finding:yara_generate")]

/-- Tools that only navigate leave no memory. -/
def navigationalTools : List String :=
  ["file.read_range", "embed.search", "embed.text", "embed.list", "meta.read_thread",
    "meta.list_agents", "meta.list_artifacts", "meta.read_artifact", "dedup.prior_analysis"]

def entryUnlessEmpty (key value : String) : List MemoryEntry :=
  if value = "" then [] else [⟨key, value⟩]

def safeName (tool_name : String) : String :=
  String.ofList (tool_name.toList.map fun c => if c = '.' then '_' else c)

def extractFromToolResult (tool_name result : String) : Option (List MemoryEntry) :=
  match curatedKeys.find? fun p => p.1 = tool_name with
  | some (_, key) =>
    let cap := if tool_name ∈ highValueTools then maxHighValueEntryLen else maxEntryValueLen
    (truncateValueWithCap result cap).map (entryUnlessEmpty key)
  | none =>
    if tool_name ∈ navigationalTools then some []
    else
      (truncateValueWithCap result maxEntryValueLen).map
        (entryUnlessEmpty ("finding:" ++ safeName tool_name))

def extractGoal (first_user_message : String) : Option (List MemoryEntry) :=
  (truncateValue first_user_message).map (entryUnlessEmpty "goal")

def extractLatestRequest (user_message : String) : Option (List MemoryEntry) :=
  (truncateValue user_message).map (entryUnlessEmpty "latest_request")

/-- A conclusion is stored even if it is empty. -/
def extractConclusion (final_text : String) : Option (List MemoryEntry) :=
  (truncateValue final_text).map fun value => [⟨"conclusion", value⟩]

/-- What entries are extracted from. -/
inductive MemorySource where
  | toolResult (tool_name result : String)
  | firstUserMessage (text : String)
  | userMessage (text : String)
  | finalText (text : String)
  deriving DecidableEq, Repr

namespace MemorySource

def text : MemorySource → String
  | toolResult _ result => result
  | firstUserMessage text => text
  | userMessage text => text
  | finalText text => text

/-- The entries of a source; `none` stands for a panic. -/
def extract : MemorySource → Option (List MemoryEntry)
  | toolResult tool_name result => extractFromToolResult tool_name result
  | firstUserMessage text => extractGoal text
  | userMessage text => extractLatestRequest text
  | finalText text => extractConclusion text

/-- The entry comes from the source. -/
def Extracts (src : MemorySource) (e : String × String) : Prop :=
  ∃ entries ∈ src.extract, ⟨e.1, e.2⟩ ∈ entries

/-- The value is the text of the source, or the characters that it begins with. -/
def CutsAtChar (src : MemorySource) (e : String × String) : Prop :=
  e.2 = String.ofList (trim src.text.toList) ∨
    ∃ text, text <+: trim src.text.toList ∧ e.2 = String.ofList text ++ "..."

end MemorySource

/-! ### Values -/

section

variable {cs : List Char} {cap : ℕ} {s v : String}

/-- Truncation does not panic; the dots come on top of the cap. -/
lemma truncateValueWithCap_eq (s : String) (cap : ℕ) :
    ∃ v, truncateValueWithCap s cap = some v ∧ v.utf8ByteSize ≤ cap + 3 ∧
      (v = String.ofList (trim s.toList) ∨
        ∃ text, text <+: trim s.toList ∧ v = String.ofList text ++ "...") := by
  simp only [truncateValueWithCap]
  split_ifs with hshort
  · refine ⟨_, rfl, ?_, .inl rfl⟩
    rw [utf8ByteSize_eq]
    exact Nat.le_add_right_of_le hshort
  · obtain ⟨text, hslice, hprefix, hlen⟩ :=
      exists_firstBytes_floorCharBoundary (String.ofList (trim s.toList)) cap
    rw [String.toList_ofList] at hprefix
    refine ⟨text ++ "...", by rw [hslice]; rfl, ?_, .inr ⟨text.toList, hprefix, ?_⟩⟩
    · rw [String.utf8ByteSize_append, utf8ByteSize_eq]
      exact Nat.add_le_add_right hlen 3
    · rw [String.ofList_toList]

lemma of_mem_entryUnlessEmpty {key : String} {es : List MemoryEntry} {e : MemoryEntry}
    (h : (truncateValueWithCap s cap).map (entryUnlessEmpty key) = some es) (he : e ∈ es) :
    e.key = key ∧ truncateValueWithCap s cap = some e.value := by
  obtain ⟨value, hvalue, rfl⟩ := Option.map_eq_some_iff.mp h
  rw [entryUnlessEmpty] at he
  split_ifs at he
  · cases he
  · rw [List.mem_singleton.mp he]
    exact ⟨rfl, hvalue⟩

lemma startsWith_curatedKeys : ∀ p ∈ curatedKeys, startsWith p.2 "finding:" := by
  decide +kernel

/-- The value of an extracted entry is one that truncation made. -/
lemma MemorySource.Extracts.exists_cap {src : MemorySource} {e : String × String}
    (h : src.Extracts e) : ∃ cap, truncateValueWithCap src.text cap = some e.2 ∧
      (¬ startsWith e.1 "finding:" → cap = maxEntryValueLen) := by
  obtain ⟨es, hes, he⟩ := h
  cases src with
  | toolResult tool_name result =>
    rw [MemorySource.extract, extractFromToolResult, Option.mem_def] at hes
    cases hfind : curatedKeys.find? fun p => p.1 = tool_name with
    | some p =>
      rw [hfind] at hes
      obtain ⟨hkey, hvalue⟩ := of_mem_entryUnlessEmpty hes he
      refine ⟨_, hvalue, fun hnot => absurd ?_ hnot⟩
      rw [show e.1 = p.2 from hkey]
      exact startsWith_curatedKeys p (List.mem_of_find?_eq_some hfind)
    | none =>
      rw [hfind] at hes
      simp only at hes
      split_ifs at hes with hnavigational
      · cases hes
        cases he
      · obtain ⟨hkey, hvalue⟩ := of_mem_entryUnlessEmpty hes he
        exact ⟨_, hvalue, fun _ => rfl⟩
  | firstUserMessage text =>
    rw [MemorySource.extract, extractGoal, truncateValue, Option.mem_def] at hes
    exact ⟨_, (of_mem_entryUnlessEmpty hes he).2, fun _ => rfl⟩
  | userMessage text =>
    rw [MemorySource.extract, extractLatestRequest, truncateValue, Option.mem_def] at hes
    exact ⟨_, (of_mem_entryUnlessEmpty hes he).2, fun _ => rfl⟩
  | finalText text =>
    rw [MemorySource.extract, extractConclusion, truncateValue, Option.mem_def] at hes
    obtain ⟨value, hvalue, rfl⟩ := Option.map_eq_some_iff.mp hes
    have heq := List.mem_singleton.mp he
    rw [show e.2 = value from congrArg MemoryEntry.value heq]
    exact ⟨_, hvalue, fun _ => rfl⟩

lemma MemorySource.Extracts.cutsAtChar {src : MemorySource} {e : String × String}
    (h : src.Extracts e) : src.CutsAtChar e := by
  obtain ⟨cap, hvalue, -⟩ := h.exists_cap
  obtain ⟨v, hv, -, hcut⟩ := truncateValueWithCap_eq src.text cap
  rw [hvalue] at hv
  cases hv
  exact hcut

/-- What is no finding is short. -/
lemma MemorySource.Extracts.size_le {src : MemorySource} {e : String × String}
    (h : src.Extracts e) (hkey : ¬ startsWith e.1 "finding:") : e.2.utf8ByteSize ≤ 259 := by
  obtain ⟨cap, hvalue, hcap⟩ := h.exists_cap
  obtain ⟨v, hv, hsize, -⟩ := truncateValueWithCap_eq src.text cap
  rw [hvalue] at hv
  cases hv
  rwa [hcap hkey] at hsize

end

/-! ### Rendering -/

section

variable {entries : List (String × String)}

/-- The findings in the order in which they are rendered. -/
def sortedFindings (entries : List (String × String)) : List (String × String) :=
  (entries.filterMap finding?).insertionSort KeyLe

def findingLine (f : String × String) : String := "- " ++ f.1 ++ ": " ++ f.2 ++ "\n"

def findingLines : List (String × String) → String
  | [] => ""
  | f :: findings => findingLine f ++ findingLines findings

def labelled (label : String) : Option String → String
  | some v => label ++ v ++ "\n"
  | none => ""

/-- The text before the findings. -/
def memoryHead (entries : List (String × String)) : String :=
  let result := "[Thread Memory]\n" ++ labelled "TASK: " (entries.lookup "goal")
    ++ labelled "CURRENT: " (entries.lookup "latest_request")
  if (sortedFindings entries).isEmpty then result else result ++ "\nFINDINGS:\n"

/-- The text after the findings. -/
def memoryTail (entries : List (String × String)) : String :=
  labelled "\nCONCLUSION: " (entries.lookup "conclusion") ++
    "\nUse these findings. Do not repeat completed work."

lemma renderMemory_eq (h : entries ≠ []) : renderMemory entries =
    appendFindings (memoryHead entries) (sortedFindings entries) ++ memoryTail entries := by
  have hempty : ¬ entries.isEmpty = true := fun hnil => h (List.isEmpty_iff.mp hnil)
  rw [renderMemory, if_neg hempty, memoryHead, memoryTail, ← String.append_assoc]
  show (if (sortedFindings entries).isEmpty = true then _ else _) ++ _ ++ _ = _
  by_cases hfindings : (sortedFindings entries).isEmpty = true
  · rw [if_pos hfindings, if_pos hfindings, List.isEmpty_iff.mp hfindings]
    rfl
  · rw [if_neg hfindings, if_neg hfindings]
    rfl

/-- As many findings are kept as fit. -/
lemma appendFindings_eq (result : String) (findings : List (String × String)) :
    ∃ kept, kept <+: findings ∧ appendFindings result findings = result ++ findingLines kept ∧
      (result.utf8ByteSize ≤ maxMemorySize →
        result.utf8ByteSize + (findingLines kept).utf8ByteSize ≤ maxMemorySize) ∧
      ∀ p, p <+: findings →
        result.utf8ByteSize + (findingLines p).utf8ByteSize ≤ maxMemorySize →
          (findingLines p).utf8ByteSize ≤ (findingLines kept).utf8ByteSize := by
  induction findings generalizing result with
  | nil =>
    refine ⟨[], List.nil_prefix, String.append_empty.symm, id, ?_⟩
    intro p hp _
    rw [List.prefix_nil.mp hp]
  | cons f findings ih =>
    obtain ⟨k, v⟩ := f
    rw [appendFindings]
    by_cases hfull : result.utf8ByteSize + (findingLine (k, v)).utf8ByteSize > maxMemorySize
    · refine ⟨[], List.nil_prefix, ?_, id, ?_⟩
      · rw [findingLines, String.append_empty]
        exact if_pos hfull
      · intro p hp hfits
        cases p with
        | nil => exact le_rfl
        | cons f p =>
          obtain ⟨rfl, -⟩ := List.cons_prefix_cons.mp hp
          rw [findingLines, String.utf8ByteSize_append] at hfits
          omega
    · obtain ⟨kept, hkept, heq, hfits, hmost⟩ := ih (result ++ findingLine (k, v))
      rw [String.utf8ByteSize_append] at hfits hmost
      refine ⟨(k, v) :: kept, (List.prefix_cons_inj _).mpr hkept, ?_, ?_, ?_⟩
      · rw [findingLines]
        exact (if_neg hfull).trans (heq.trans String.append_assoc)
      · intro _
        rw [findingLines, String.utf8ByteSize_append]
        have := hfits (by omega)
        omega
      · intro p hp hp'
        cases p with
        | nil => exact Nat.zero_le _
        | cons f p =>
          obtain ⟨rfl, hprefix⟩ := List.cons_prefix_cons.mp hp
          rw [findingLines, String.utf8ByteSize_append] at hp' ⊢
          rw [findingLines, String.utf8ByteSize_append]
          exact Nat.add_le_add_left (hmost p hprefix (by omega)) _

lemma size_labelled_le (label : String) {key : String} {n : ℕ}
    (h : ∀ v, entries.lookup key = some v → v.utf8ByteSize ≤ n) :
    (labelled label (entries.lookup key)).utf8ByteSize ≤ label.utf8ByteSize + n + 1 := by
  cases hvalue : entries.lookup key with
  | none => exact Nat.zero_le _
  | some v =>
    have hle := h v hvalue
    rw [labelled, String.utf8ByteSize_append, String.utf8ByteSize_append]
    exact Nat.add_le_add_right (Nat.add_le_add_left hle _) 1

/-- Without findings the memory is short. -/
lemma head_tail_le (h : ∀ e ∈ entries, ∃ src : MemorySource, src.Extracts e) :
    (memoryHead entries).utf8ByteSize + (memoryTail entries).utf8ByteSize ≤ maxMemorySize := by
  have hshort (key : String) (hkey : ¬ startsWith key "finding:") (v : String)
      (hv : entries.lookup key = some v) : v.utf8ByteSize ≤ 259 := by
    obtain ⟨before, after, heq, -⟩ := List.lookup_eq_some_iff.mp hv
    obtain ⟨src, hsrc⟩ := h (key, v) (by rw [heq]; exact List.mem_append_right _ List.mem_cons_self)
    exact hsrc.size_le hkey
  have hgoal := size_labelled_le "TASK: " (hshort "goal" (by decide))
  have hlatest := size_labelled_le "CURRENT: " (hshort "latest_request" (by decide))
  have hconclusion := size_labelled_le "\nCONCLUSION: " (hshort "conclusion" (by decide))
  have htail : (memoryTail entries).utf8ByteSize ≤ 323 := by
    rw [memoryTail, String.utf8ByteSize_append]
    exact Nat.add_le_add_right hconclusion _
  have hresult : ("[Thread Memory]\n" ++ labelled "TASK: " (entries.lookup "goal") ++
      labelled "CURRENT: " (entries.lookup "latest_request")).utf8ByteSize ≤ 551 := by
    rw [String.utf8ByteSize_append, String.utf8ByteSize_append]
    exact Nat.add_le_add (Nat.add_le_add_left hgoal _) hlatest
  have hhead : (memoryHead entries).utf8ByteSize ≤ 562 := by
    rw [memoryHead]
    split_ifs
    · exact hresult.trans (by decide)
    · rw [String.utf8ByteSize_append]
      exact Nat.add_le_add_right hresult _
  rw [maxMemorySize]
  omega

/-- The goal comes first. -/
lemma memoryHead_goal {goal : String} (h : entries.lookup "goal" = some goal) :
    ∃ rest, memoryHead entries = "[Thread Memory]\nTASK: " ++ goal ++ "\n" ++ rest := by
  have htask : "[Thread Memory]\n" ++ labelled "TASK: " (entries.lookup "goal") =
      "[Thread Memory]\nTASK: " ++ goal ++ "\n" := by
    rw [h, labelled, ← String.append_assoc, ← String.append_assoc]
    rfl
  rw [memoryHead, htask]
  split_ifs
  · exact ⟨_, rfl⟩
  · exact ⟨_, String.append_assoc⟩

end

/-- What the memory is for: a text within the limit, from values that are cut between characters,
with the goal in it. It is that just when findings that fit leave room for the last lines. -/
theorem renderMemory_fits_iff {entries : List (String × String)}
    (hentries : ∀ e ∈ entries, ∃ src : MemorySource, src.Extracts e) :
    ((renderMemory entries).utf8ByteSize ≤ maxMemorySize ∧
      (∀ e ∈ entries, ∀ src : MemorySource, src.Extracts e → src.CutsAtChar e) ∧
      ∀ goal, entries.lookup "goal" = some goal →
        ∃ rest, renderMemory entries = "[Thread Memory]\nTASK: " ++ goal ++ "\n" ++ rest) ↔
    ∀ p, p <+: sortedFindings entries →
      (memoryHead entries ++ findingLines p).utf8ByteSize ≤ maxMemorySize →
        (memoryHead entries ++ findingLines p ++ memoryTail entries).utf8ByteSize ≤
          maxMemorySize := by
  have hroom := head_tail_le hentries
  simp only [String.utf8ByteSize_append]
  by_cases hempty : entries = []
  · subst hempty
    constructor
    · intro _ p hp _
      rw [List.prefix_nil.mp hp]
      exact hroom
    · intro _
      refine ⟨Nat.zero_le _, fun e he => absurd he List.not_mem_nil, ?_⟩
      rintro goal ⟨⟩
  · obtain ⟨kept, hkept, heq, hfits, hmost⟩ :=
      appendFindings_eq (memoryHead entries) (sortedFindings entries)
    have hrender := renderMemory_eq hempty
    rw [heq] at hrender
    have hsize : (renderMemory entries).utf8ByteSize = (memoryHead entries).utf8ByteSize +
        (findingLines kept).utf8ByteSize + (memoryTail entries).utf8ByteSize := by
      rw [hrender, String.utf8ByteSize_append, String.utf8ByteSize_append]
    constructor
    · rintro ⟨hle, -, -⟩ p hp hp'
      have := hmost p hp hp'
      omega
    · intro hleaves
      refine ⟨?_, fun e _ src hsrc => hsrc.cutsAtChar, ?_⟩
      · rw [hsize]
        exact hleaves kept hkept (hfits (by omega))
      · intro goal hgoal
        obtain ⟨rest, hhead⟩ := memoryHead_goal hgoal
        refine ⟨rest ++ findingLines kept ++ memoryTail entries, ?_⟩
        rw [hrender, hhead]
        simp only [String.append_assoc]

/-! ### Four findings and a conclusion -/

/-- A text of characters with four bytes each. -/
def repeated (n : ℕ) : String := String.ofList (List.replicate n '😀')

lemma truncateValueWithCap_repeated {n cap : ℕ} (h : n * 4 ≤ cap) :
    truncateValueWithCap (repeated n) cap = some (repeated n) := by
  have hspace : isWhitespace '😀' = false := by decide
  have htrim : trim (List.replicate n '😀') = List.replicate n '😀' := by
    have hdrop : (List.replicate n '😀').dropWhile isWhitespace = List.replicate n '😀' := by
      rw [List.dropWhile_replicate, hspace]
      rfl
    rw [trim, trimEndMatches, hdrop, List.reverse_replicate, hdrop, List.reverse_replicate]
  have hlen : utf8Len (repeated n) = n * 4 := by
    rw [utf8Len, repeated, String.toList_ofList, width_replicate]
    rfl
  have hsame : String.ofList (trim (repeated n).toList) = repeated n := by
    rw [repeated, String.toList_ofList, htrim]
  simp only [truncateValueWithCap, hsame]
  exact if_pos (hlen.trans_le h)

/-- A goal, a conclusion and what four tools have found. -/
def fourFindings : List (String × String) :=
  [("goal", repeated 36), ("conclusion", repeated 64), ("finding:rizin_bininfo", repeated 64),
    ("finding:ghidra_decompile", repeated 128), ("finding:sandbox_trace", repeated 128),
    ("finding:sandbox_hook", repeated 128)]

lemma mem_entryUnlessEmpty (key : String) (n : ℕ) :
    ⟨key, repeated (n + 1)⟩ ∈ entryUnlessEmpty key (repeated (n + 1)) := by
  have hne : repeated (n + 1) ≠ "" := by
    intro hempty
    have hchars := congrArg String.toList hempty
    rw [repeated, String.toList_ofList] at hchars
    cases hchars
  rw [entryUnlessEmpty, if_neg hne]
  exact List.mem_cons_self

/-- What a known tool returns is remembered under its key. -/
lemma extracts_toolResult (tool_name : String) {key : String} {n : ℕ}
    (hfind : (curatedKeys.find? fun p => p.1 = tool_name) = some (tool_name, key))
    (h : (n + 1) * 4 ≤
      if tool_name ∈ highValueTools then maxHighValueEntryLen else maxEntryValueLen) :
    (MemorySource.toolResult tool_name (repeated (n + 1))).Extracts (key, repeated (n + 1)) := by
  refine ⟨entryUnlessEmpty key (repeated (n + 1)), ?_, mem_entryUnlessEmpty key n⟩
  rw [Option.mem_def, MemorySource.extract, extractFromToolResult, hfind]
  simp only
  rw [truncateValueWithCap_repeated h]
  rfl

lemma extracts_fourFindings : ∀ e ∈ fourFindings, ∃ src : MemorySource, src.Extracts e := by
  have hgoal : (MemorySource.firstUserMessage (repeated 36)).Extracts ("goal", repeated 36) := by
    refine ⟨entryUnlessEmpty "goal" (repeated 36), ?_, mem_entryUnlessEmpty "goal" 35⟩
    rw [Option.mem_def, MemorySource.extract, extractGoal, truncateValue,
      truncateValueWithCap_repeated (by decide)]
    rfl
  have hconclusion :
      (MemorySource.finalText (repeated 64)).Extracts ("conclusion", repeated 64) := by
    refine ⟨[⟨"conclusion", repeated 64⟩], ?_, List.mem_cons_self⟩
    rw [Option.mem_def, MemorySource.extract, extractConclusion, truncateValue,
      truncateValueWithCap_repeated (by decide)]
    rfl
  simp only [fourFindings, List.forall_mem_cons]
  exact ⟨⟨_, hgoal⟩, ⟨_, hconclusion⟩,
    ⟨_, extracts_toolResult "rizin.bininfo" (by decide) (by decide)⟩,
    ⟨_, extracts_toolResult "ghidra.decompile" (by decide) (by decide)⟩,
    ⟨_, extracts_toolResult "sandbox.trace" (by decide) (by decide)⟩,
    ⟨_, extracts_toolResult "sandbox.hook" (by decide) (by decide)⟩,
    fun _ he => absurd he List.not_mem_nil⟩

theorem renderMemory_fits_iff_fourFindings :
    ((renderMemory fourFindings).utf8ByteSize ≤ maxMemorySize ∧
      (∀ e ∈ fourFindings, ∀ src : MemorySource, src.Extracts e → src.CutsAtChar e) ∧
      ∀ goal, fourFindings.lookup "goal" = some goal →
        ∃ rest, renderMemory fourFindings = "[Thread Memory]\nTASK: " ++ goal ++ "\n" ++ rest) ↔
    ∀ p, p <+: sortedFindings fourFindings →
      (memoryHead fourFindings ++ findingLines p).utf8ByteSize ≤ maxMemorySize →
        (memoryHead fourFindings ++ findingLines p ++ memoryTail fourFindings).utf8ByteSize ≤
          maxMemorySize :=
  renderMemory_fits_iff extracts_fourFindings

/-- All findings fit, and the conclusion makes the text too long. -/
theorem fourFindings_too_long :
    (∀ e ∈ fourFindings, ∃ src : MemorySource, src.Extracts e) ∧
      (renderMemory fourFindings).utf8ByteSize = 2364 ∧ maxMemorySize = 2048 :=
  ⟨extracts_fourFindings, by decide +kernel, rfl⟩

end Arbeiterfarm.Agents
