import Arbeiterfarm.Agents.ArtifactContext
import Arbeiterfarm.Core.Numbers
import Arbeiterfarm.Core.Text
import Mathlib.Data.List.Nodup
import Mathlib.Data.List.Perm.Basic

/-!
# References to artifacts by number

The prompt lists the artifacts of a project under numbers, each sample with what was generated from
it, and the model may refer to an artifact as `#k`. The index map takes the numbers back to the
artifacts they were printed for.
-/

namespace Arbeiterfarm.Agents

/-! ### The prompt -/

/-- How an artifact is listed. -/
inductive Heading where
  | sample (target : Bool)
  | child
  | orphan
  deriving DecidableEq, Repr

/-- A piece of the prompt. -/
inductive PromptPiece where
  | text (s : String)
  | artifact (heading : Heading) (idx : ℕ) (a : ArtifactCtx)
  deriving DecidableEq, Repr

/-- How the number of an artifact is written. -/
def indexRef (idx : ℕ) : String := "#" ++ toString idx

def PromptPiece.render : PromptPiece → String
  | .text s => s
  | .artifact (.sample target) idx a =>
    let target_tag := if target then " [TARGET]" else ""
    match a.description with
    | some desc =>
      "### " ++ indexRef idx ++ target_tag ++ " | " ++ a.filename ++ " | " ++ desc ++ "\n"
    | none => "### " ++ indexRef idx ++ target_tag ++ " | " ++ a.filename ++ "\n"
  | .artifact .child idx a =>
    "  - " ++ indexRef idx ++ " | " ++ a.description.getD a.filename ++ "\n"
  | .artifact .orphan idx a =>
    "- " ++ indexRef idx ++ " | " ++ a.description.getD a.filename ++ "\n"

/-- What has been added to the prompt, and the artifacts that have got a number. -/
structure ArtifactPrompt where
  pieces : List PromptPiece
  index_map : List Uuid
  deriving DecidableEq, Repr

namespace ArtifactPrompt

def pushText (p : ArtifactPrompt) (s : String) : ArtifactPrompt :=
  { p with pieces := p.pieces ++ [.text s] }

/-- The artifact gets the next number. -/
def pushArtifact (heading : Heading) (p : ArtifactPrompt) (a : ArtifactCtx) : ArtifactPrompt where
  index_map := p.index_map ++ [a.id]
  pieces := p.pieces ++ [.artifact heading (p.index_map.length + 1) a]

def render (p : ArtifactPrompt) : String := String.join (p.pieces.map PromptPiece.render)

end ArtifactPrompt

section

variable (artifacts : List ArtifactCtx) (target_artifact_id : Option Uuid)

def uploaded : List ArtifactCtx := artifacts.filter fun a => a.source_tool_run_id.isNone

def generated : List ArtifactCtx := artifacts.filter fun a => a.source_tool_run_id.isSome

/-- What was generated from a sample. -/
def childrenOf (id : Uuid) : List ArtifactCtx :=
  (generated artifacts).filter fun a => a.parent_sample_id = some id

/-- What was generated from no listed sample. -/
def orphans : List ArtifactCtx :=
  (generated artifacts).filter fun a =>
    match a.parent_sample_id with
    | none => true
    | some pid => !((uploaded artifacts).map (·.id)).contains pid

/-- A sample, with its children if it has any. -/
def pushSample (p : ArtifactPrompt) (a : ArtifactCtx) : ArtifactPrompt :=
  let p := p.pushArtifact (.sample (target_artifact_id = some a.id)) a
  let children := childrenOf artifacts a.id
  let p :=
    if children.isEmpty then p
    else
      children.foldl (ArtifactPrompt.pushArtifact .child)
        (p.pushText "Generated (use file.read_range to inspect):\n")
  p.pushText "\n"

def pushOrphans (p : ArtifactPrompt) : ArtifactPrompt :=
  if (orphans artifacts).isEmpty then p
  else
    ((orphans artifacts).foldl (ArtifactPrompt.pushArtifact .orphan)
      (p.pushText "### Other generated artifacts\n")).pushText "\n"

/-- An instruction about the target, if it is listed. -/
def pushTarget (p : ArtifactPrompt) : ArtifactPrompt :=
  match target_artifact_id with
  | some tid =>
    match p.index_map.findIdx? (· = tid) with
    | some pos =>
      p.pushText ("This thread targets sample " ++ indexRef (pos + 1) ++
        " [TARGET]. Focus your analysis on this sample.\n")
    | none => p
  | none => p

/-- What is appended to the prompt, and the index map. -/
def appendArtifactContext : ArtifactPrompt :=
  if artifacts.isEmpty then ⟨[], []⟩
  else
    let p : ArtifactPrompt := ⟨[.text "\n## Available Artifacts\n\n",
      .text "Reference artifacts by their # number when calling tools (e.g. artifact_id: #1).\n\n"],
      []⟩
    let p := (uploaded artifacts).foldl (pushSample artifacts target_artifact_id) p
    let p := pushTarget target_artifact_id (pushOrphans artifacts p)
    p.pushText "Use the # numbers above in tool calls. Do NOT ask the user for artifact IDs.\n"

end

/-! ### The resolver -/

def resolveArtifactRef (s : String) (index_map : List Uuid) : Option Uuid := do
  let trimmed ← stripPrefix ['#'] (trim s.toList)
  -- a number that is too large for `usize` is not found either way: no list is that long
  let idx ← parseDecimal trimmed
  if 1 ≤ idx ∧ idx ≤ index_map.length then index_map[idx - 1]? else none

/-! ### Numbers and positions -/

def PromptPiece.numbered : PromptPiece → Option (ArtifactCtx × ℕ)
  | .text _ => none
  | .artifact _ idx a => some (a, idx)

/-- The artifacts of the prompt with their numbers. -/
def ArtifactPrompt.numbered (p : ArtifactPrompt) : List (ArtifactCtx × ℕ) :=
  p.pieces.filterMap PromptPiece.numbered

/-- The artifact is printed under the reference. -/
def ArtifactPrompt.PrintedUnder (p : ArtifactPrompt) (ref : String) (a : ArtifactCtx) : Prop :=
  ∃ heading idx, .artifact heading idx a ∈ p.pieces ∧ indexRef idx = ref

/-- The prompt lists the artifacts in this order, and the index map follows it. -/
structure ArtifactPrompt.Lists (p : ArtifactPrompt) (order : List ArtifactCtx) : Prop where
  numbered : p.numbered = order.zipIdx 1
  index_map : p.index_map = order.map (·.id)

namespace ArtifactPrompt.Lists

variable {p : ArtifactPrompt} {order artifacts : List ArtifactCtx}
  {target_artifact_id : Option Uuid}

lemma pushText (h : p.Lists order) (s : String) : (p.pushText s).Lists order := by
  refine ⟨?_, h.index_map⟩
  rw [ArtifactPrompt.numbered, ArtifactPrompt.pushText, List.filterMap_append]
  exact (List.append_nil _).trans h.numbered

lemma pushArtifact (h : p.Lists order) (heading : Heading) (a : ArtifactCtx) :
    (p.pushArtifact heading a).Lists (order ++ [a]) := by
  constructor
  · have hnext : p.index_map.length + 1 = 1 + order.length := by
      rw [h.index_map, List.length_map, Nat.add_comm]
    rw [ArtifactPrompt.numbered, ArtifactPrompt.pushArtifact, List.filterMap_append, hnext,
      List.zipIdx_append, ← h.numbered]
    rfl
  · rw [List.map_append, ← h.index_map]
    rfl

lemma foldl_pushArtifact (h : p.Lists order) (heading : Heading) (as : List ArtifactCtx) :
    (as.foldl (ArtifactPrompt.pushArtifact heading) p).Lists (order ++ as) := by
  induction as generalizing p order with
  | nil => rwa [List.append_nil]
  | cons a as ih =>
    rw [List.append_cons]
    exact ih (h.pushArtifact heading a)

lemma pushSample (h : p.Lists order) (a : ArtifactCtx) :
    (pushSample artifacts target_artifact_id p a).Lists
      (order ++ a :: childrenOf artifacts a.id) := by
  rw [Agents.pushSample, List.append_cons]
  apply pushText
  have hsample := h.pushArtifact (.sample (target_artifact_id = some a.id)) a
  split_ifs with hnone
  · rwa [List.isEmpty_iff.mp hnone, List.append_nil]
  · exact (hsample.pushText _).foldl_pushArtifact .child _

lemma foldl_pushSample (h : p.Lists order) (as : List ArtifactCtx) :
    (as.foldl (Agents.pushSample artifacts target_artifact_id) p).Lists
      (order ++ as.flatMap fun a => a :: childrenOf artifacts a.id) := by
  induction as generalizing p order with
  | nil => rwa [List.flatMap_nil, List.append_nil]
  | cons a as ih =>
    rw [List.flatMap_cons, ← List.append_assoc]
    exact ih (h.pushSample a)

lemma pushOrphans (h : p.Lists order) :
    (pushOrphans artifacts p).Lists (order ++ orphans artifacts) := by
  rw [Agents.pushOrphans]
  split_ifs with hnone
  · rwa [List.isEmpty_iff.mp hnone, List.append_nil]
  · exact ((h.pushText _).foldl_pushArtifact .orphan _).pushText _

lemma pushTarget (h : p.Lists order) : (pushTarget target_artifact_id p).Lists order := by
  cases target_artifact_id with
  | none => exact h
  | some tid =>
    rw [Agents.pushTarget]
    split
    · exact h.pushText _
    · exact h

end ArtifactPrompt.Lists

/-- The order in which the artifacts are listed. -/
def listingOrder (artifacts : List ArtifactCtx) : List ArtifactCtx :=
  ((uploaded artifacts).flatMap fun a => a :: childrenOf artifacts a.id) ++ orphans artifacts

lemma lists_appendArtifactContext (artifacts : List ArtifactCtx)
    (target_artifact_id : Option Uuid) :
    (appendArtifactContext artifacts target_artifact_id).Lists (listingOrder artifacts) := by
  rw [appendArtifactContext]
  split_ifs with hempty
  · rw [List.isEmpty_iff.mp hempty]
    exact ⟨rfl, rfl⟩
  · have hstart : ArtifactPrompt.Lists ⟨[.text "\n## Available Artifacts\n\n", .text
        "Reference artifacts by their # number when calling tools (e.g. artifact_id: #1).\n\n"],
        []⟩ [] := ⟨rfl, rfl⟩
    exact ((hstart.foldl_pushSample _).pushOrphans.pushTarget).pushText _

/-! ### Every artifact is listed once -/

section

variable {α ι : Type} {p : ι → α → Bool}

/-- Each element goes to the only class that it is in, or is left over. -/
lemma flatMap_classes_perm (is : List ι) (l : List α)
    (hdisjoint : is.Pairwise fun i j => ∀ a, p i a = true → p j a = false) :
    ((is.flatMap fun i => l.filter (p i)) ++ l.filter fun a => !is.any fun i => p i a).Perm l := by
  induction is generalizing l with
  | nil =>
    rw [List.flatMap_nil, List.nil_append]
    exact List.Perm.of_eq (List.filter_true l)
  | cons i is ih =>
    obtain ⟨hi, hdisjoint⟩ := List.pairwise_cons.mp hdisjoint
    have hrest := ih (l.filter fun a => !p i a) hdisjoint
    have hclasses : (is.flatMap fun j => (l.filter fun a => !p i a).filter (p j)) =
        is.flatMap fun j => l.filter (p j) := by
      apply List.flatMap_congr
      intro j hj
      rw [List.filter_filter]
      apply List.filter_congr
      intro a _
      cases hclass : p i a with
      | true => rw [hi j hj a hclass, Bool.false_and]
      | false => rw [Bool.not_false, Bool.and_true]
    have hleft : (l.filter fun a => !p i a).filter (fun a => !is.any fun j => p j a) =
        l.filter fun a => !(i :: is).any fun j => p j a := by
      rw [List.filter_filter]
      apply List.filter_congr
      intro a _
      rw [List.any_cons, Bool.not_or, Bool.and_comm]
    rw [hclasses, hleft] at hrest
    rw [List.flatMap_cons, List.append_assoc]
    exact (hrest.append_left _).trans (List.filter_append_perm (p i) l)

end

lemma orphans_eq (artifacts : List ArtifactCtx) :
    orphans artifacts = (generated artifacts).filter fun a =>
      !(uploaded artifacts).any fun u => a.parent_sample_id = some u.id := by
  rw [orphans]
  apply List.filter_congr
  intro a _
  cases a.parent_sample_id with
  | none => simp
  | some pid =>
    simp only [Bool.not_inj_iff, Option.some.injEq, List.contains_eq_any_beq, List.any_map]
    rfl

lemma listingOrder_perm {artifacts : List ArtifactCtx} (hids : (artifacts.map (·.id)).Nodup) :
    (listingOrder artifacts).Perm artifacts := by
  have hdisjoint : (uploaded artifacts).Pairwise fun u v => ∀ a : ArtifactCtx,
      decide (a.parent_sample_id = some u.id) = true →
        decide (a.parent_sample_id = some v.id) = false := by
    have hdistinct : (uploaded artifacts).Pairwise fun u v => u.id ≠ v.id :=
      List.pairwise_map.mp (hids.sublist (List.filter_sublist.map _))
    apply hdistinct.imp
    intro u v hne a hparent
    rw [of_decide_eq_true hparent, decide_eq_false_iff_not, Option.some.injEq]
    exact hne
  have hgenerated := flatMap_classes_perm (uploaded artifacts) (generated artifacts) hdisjoint
  rw [← orphans_eq] at hgenerated
  have hsamples := List.map_append_flatMap_perm (uploaded artifacts) id
    fun u => childrenOf artifacts u.id
  rw [List.map_id] at hsamples
  have hsplit : (uploaded artifacts ++ generated artifacts).Perm artifacts := by
    have hnot : generated artifacts =
        artifacts.filter fun a => !a.source_tool_run_id.isNone := by
      simp only [generated, Option.not_isNone]
    rw [hnot]
    exact List.filter_append_perm _ artifacts
  have happend := (hsamples.symm.append_right (orphans artifacts)).trans
    (List.append_assoc _ _ _ ▸ hgenerated.append_left (uploaded artifacts))
  exact happend.trans hsplit

/-! ### Reading a reference -/

lemma parseDecimal_toDigits (n : ℕ) : parseDecimal (Nat.toDigits 10 n) = some n := by
  have hdigits : ∀ c ∈ Nat.toDigits 10 n, c.isDigit = true := fun c hc =>
    Nat.isDigit_of_mem_toDigits (by decide) (by decide) hc
  rw [parseDecimal_of_digits Nat.toDigits_ne_nil hdigits, Nat.ofDigitChars_ten_toDigits]

lemma toList_indexRef (n : ℕ) : (indexRef n).toList = '#' :: Nat.toDigits 10 n := by
  have hdigits : (toString n).toList = Nat.toDigits 10 n := Nat.toList_repr
  rw [indexRef, String.toList_append, hdigits]
  rfl

lemma trim_indexRef (n : ℕ) : trim (indexRef n).toList = '#' :: Nat.toDigits 10 n := by
  have hsurrounds : Surrounds isWhitespace ('#' :: Nat.toDigits 10 n)
      ('#' :: Nat.toDigits 10 n) := by
    refine ⟨⟨[], [], by simp, by simp, by simp⟩, ?_, ?_⟩
    · intro c hc
      cases hc
      decide
    · intro c hc
      rw [List.getLast?_cons_of_ne_nil Nat.toDigits_ne_nil] at hc
      exact not_isWhitespace_of_isDigit
        (Nat.isDigit_of_mem_toDigits (by decide) (by decide) (List.mem_of_getLast? hc))
  rw [toList_indexRef]
  exact hsurrounds.trimMatches_eq (List.cons_ne_nil _ _)

lemma resolveArtifactRef_indexRef (n : ℕ) (index_map : List Uuid) :
    resolveArtifactRef (indexRef n) index_map = if 1 ≤ n then index_map[n - 1]? else none := by
  have hstrip : stripPrefix ['#'] ('#' :: Nat.toDigits 10 n) = some (Nat.toDigits 10 n) :=
    stripPrefix_eq_some_iff.mpr rfl
  have hread : resolveArtifactRef (indexRef n) index_map =
      if 1 ≤ n ∧ n ≤ index_map.length then index_map[n - 1]? else none := by
    rw [resolveArtifactRef, trim_indexRef, hstrip]
    simp only [bind, Option.bind_some]
    rw [parseDecimal_toDigits, Option.bind_some]
  rw [hread]
  by_cases hpos : 1 ≤ n
  · rw [if_pos hpos]
    by_cases hle : n ≤ index_map.length
    · rw [if_pos ⟨hpos, hle⟩]
    · rw [if_neg fun h => hle h.2, List.getElem?_eq_none (by omega)]
  · rw [if_neg hpos, if_neg fun h => hpos h.1]

/-! ### The round trip -/

lemma indexRef_injective {m n : ℕ} (h : indexRef m = indexRef n) : m = n := by
  have hdigits := congrArg String.toList h
  rw [toList_indexRef, toList_indexRef] at hdigits
  have hparse := parseDecimal_toDigits m
  rw [(List.cons.inj hdigits).2, parseDecimal_toDigits] at hparse
  exact (Option.some.inj hparse).symm

lemma printedUnder_iff {p : ArtifactPrompt} {order : List ArtifactCtx} (h : p.Lists order) (k : ℕ)
    (a : ArtifactCtx) : p.PrintedUnder (indexRef k) a ↔ 1 ≤ k ∧ order[k - 1]? = some a := by
  rw [← List.mk_mem_zipIdx_iff_le_and_getElem?_sub, ← h.numbered, ArtifactPrompt.numbered,
    List.mem_filterMap]
  constructor
  · rintro ⟨heading, idx, hpiece, href⟩
    rw [indexRef_injective href] at hpiece
    exact ⟨_, hpiece, rfl⟩
  · rintro ⟨piece, hpiece, hnumbered⟩
    cases piece with
    | text s => cases hnumbered
    | artifact heading idx a' =>
      cases hnumbered
      exact ⟨heading, k, hpiece, rfl⟩

/-- The index map numbers every artifact once, and a number leads to the artifact that is printed
under it. -/
theorem resolveArtifactRef_printed {artifacts : List ArtifactCtx}
    (hids : (artifacts.map (·.id)).Nodup) (target_artifact_id : Option Uuid) :
    (appendArtifactContext artifacts target_artifact_id).index_map.Perm (artifacts.map (·.id)) ∧
    ∀ k a, (appendArtifactContext artifacts target_artifact_id).PrintedUnder (indexRef k) a ↔
      a ∈ artifacts ∧ resolveArtifactRef (indexRef k)
        (appendArtifactContext artifacts target_artifact_id).index_map = some a.id := by
  have hlists := lists_appendArtifactContext artifacts target_artifact_id
  have hperm := listingOrder_perm hids
  constructor
  · rw [hlists.index_map]
    exact hperm.map _
  · intro k a
    rw [printedUnder_iff hlists, resolveArtifactRef_indexRef, hlists.index_map, List.getElem?_map]
    constructor
    · rintro ⟨hpos, ha⟩
      refine ⟨hperm.mem_iff.mp (List.mem_of_getElem? ha), ?_⟩
      rw [if_pos hpos, ha]
      rfl
    · rintro ⟨ha, hresolve⟩
      split_ifs at hresolve with hpos
      obtain ⟨a', ha', hid⟩ := Option.map_eq_some_iff.mp hresolve
      have hmem : a' ∈ artifacts := hperm.mem_iff.mp (List.mem_of_getElem? ha')
      rw [← List.inj_on_of_nodup_map hids hmem ha hid]
      exact ⟨hpos, ha'⟩

/-- A sample, a trace that was generated from it, and a report without a sample. -/
def threeArtifacts : List ArtifactCtx :=
  [⟨11, "sample.exe", none, none, none⟩, ⟨12, "report.json", none, some 1, none⟩,
    ⟨13, "trace.json", some "API trace", some 2, some 11⟩]

theorem resolveArtifactRef_printed_threeArtifacts :
    (appendArtifactContext threeArtifacts none).index_map.Perm [11, 12, 13] ∧
    ∀ k a, (appendArtifactContext threeArtifacts none).PrintedUnder (indexRef k) a ↔
      a ∈ threeArtifacts ∧ resolveArtifactRef (indexRef k)
        (appendArtifactContext threeArtifacts none).index_map = some a.id :=
  resolveArtifactRef_printed (by decide) none

example : (appendArtifactContext threeArtifacts none).index_map = [11, 13, 12] := by decide

end Arbeiterfarm.Agents
