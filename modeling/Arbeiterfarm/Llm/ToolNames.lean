import Arbeiterfarm.Cli.LocalTools
import Arbeiterfarm.Foundation.Substitution
import Arbeiterfarm.Llm.AnthropicBody
import Arbeiterfarm.Llm.OpenAi

/-!
# Tool names and their sanitized forms

A request offers tools under sanitized names, and a map that is built from the request takes them
back. For OpenAI the map also knows the names of the tools that were called before; a later name
takes the place of an earlier one with the same sanitized form.
-/

namespace Arbeiterfarm.Llm

open Foundation

/-! ### Sanitized names -/

/-- One name comes from the other by exchanging dots and triple underscores. -/
def Interchangeable (x y : String) : Prop := Exchangeable '.' "___".toList x.toList y.toList

lemma dot_notMem_underscores : '.' ∉ "___".toList := by decide

lemma sanitizeToolName_eq_writeAs (name : String) :
    sanitizeToolName name = String.ofList (writeAs '.' "___".toList name.toList) := rfl

lemma sanitizeToolName_eq_iff {x y : String} :
    sanitizeToolName x = sanitizeToolName y ↔ Interchangeable x y := by
  rw [sanitizeToolName_eq_writeAs, sanitizeToolName_eq_writeAs, String.ofList_inj]
  exact writeAs_eq_iff_exchangeable dot_notMem_underscores

lemma sanitizeToolName_eq_self_iff {name : String} :
    sanitizeToolName name = name ↔ '.' ∉ name.toList := by
  rw [← String.toList_inj, sanitizeToolName_eq_writeAs, String.toList_ofList]
  exact writeAs_eq_self_iff dot_notMem_underscores

/-! ### The maps -/

def NameMap.insertName (map : NameMap) (name : String) : NameMap :=
  let sanitized := sanitizeToolName name
  if sanitized ≠ name then Function.update map sanitized (some name) else map

section

variable {F : Type}

def CompletionRequest.toolNames (request : CompletionRequest F) : List String :=
  request.tools.map (·.name)

/-- The names of the calls in the messages. -/
def CompletionRequest.calledNames (request : CompletionRequest F) : List String :=
  request.messages.flatMap fun msg => msg.tool_calls.map (·.name)

def Anthropic.buildNameMap (request : CompletionRequest F) : NameMap :=
  request.toolNames.foldl NameMap.insertName fun _ => none

def OpenAi.buildNameMap (request : CompletionRequest F) : NameMap :=
  request.calledNames.foldl NameMap.insertName
    (request.toolNames.foldl NameMap.insertName fun _ => none)

end

/-- The name is dotted, and it is sent as `sanitized`. -/
def SentAs (sanitized name : String) : Prop :=
  '.' ∈ name.toList ∧ sanitizeToolName name = sanitized

instance (sanitized name : String) : Decidable (SentAs sanitized name) :=
  inferInstanceAs (Decidable (_ ∧ _))

namespace NameMap

lemma insertName_apply (map : NameMap) (name sanitized : String) :
    map.insertName name sanitized = if SentAs sanitized name then some name else map sanitized := by
  rw [insertName]
  by_cases hdot : '.' ∈ name.toList
  · have hne : sanitizeToolName name ≠ name :=
      mt sanitizeToolName_eq_self_iff.mp (not_not_intro hdot)
    simp [hne, SentAs, hdot, Function.update_apply, eq_comm]
  · have heq : sanitizeToolName name = name := sanitizeToolName_eq_self_iff.mpr hdot
    simp [heq, SentAs, hdot]

/-- The last name that is sent as `sanitized` stays in the map. -/
lemma foldl_insertName (names : List String) (map : NameMap) (sanitized : String) :
    names.foldl insertName map sanitized =
      (names.reverse.find? fun name => SentAs sanitized name).or (map sanitized) := by
  induction names using List.reverseRecOn with
  | nil => rfl
  | append_singleton names name ih =>
    rw [List.foldl_append, List.foldl_cons, List.foldl_nil, insertName_apply, List.reverse_append,
      List.reverse_singleton, List.singleton_append, List.find?_cons]
    by_cases h : SentAs sanitized name
    · simp [h]
    · simp [h, ih]

end NameMap

/-! ### Reversible names -/

/-- A request that offers tools of the local-tool loader, each of them once. -/
structure LocalRequest (F : Type) where
  request : CompletionRequest F
  accepted : ∀ name ∈ request.toolNames, ∃ path, Cli.validateName name path = .ok ()
  nodup : request.toolNames.Nodup

/-- The last of the names that are dotted and interchangeable with `name`. -/
def IsLastLike (name : String) (names : List String) (last : String) : Prop :=
  ∃ before after, names = before ++ last :: after ∧
    ('.' ∈ last.toList ∧ Interchangeable last name) ∧
    ∀ c ∈ after, '.' ∈ c.toList → ¬Interchangeable c name

lemma isLastLike_iff_find {name last : String} {names : List String} :
    IsLastLike name names last ↔
      (names.reverse.find? fun c => SentAs (sanitizeToolName name) c) = some last := by
  have hsent (c : String) : SentAs (sanitizeToolName name) c ↔
      '.' ∈ c.toList ∧ Interchangeable c name :=
    and_congr_right fun _ => sanitizeToolName_eq_iff
  rw [List.find?_eq_some_iff_append, IsLastLike]
  simp only [hsent, decide_eq_true_eq, Bool.not_eq_true', decide_eq_false_iff_not, not_and]
  constructor
  · rintro ⟨before, after, rfl, hlast, hafter⟩
    exact ⟨hlast, after.reverse, before.reverse, by simp,
      fun c hc => hafter c (List.mem_reverse.mp hc)⟩
  · rintro ⟨hlast, after, before, heq, hafter⟩
    refine ⟨before.reverse, after.reverse, ?_, hlast,
      fun c hc => hafter c (List.mem_reverse.mp hc)⟩
    rw [← List.reverse_reverse names, heq]
    simp

section

variable {F : Type} (offered : LocalRequest F)

/-- The sanitized names are distinct, and the maps take each of them to the name that was offered
under it. -/
def Reversible : Prop :=
  (offered.request.toolNames.map sanitizeToolName).Nodup ∧
    ∀ name ∈ offered.request.toolNames,
      unsanitizeToolName (sanitizeToolName name) (OpenAi.buildNameMap offered.request) = name ∧
        unsanitizeToolName (sanitizeToolName name) (Anthropic.buildNameMap offered.request) = name

/-- No two names that are offered are interchangeable, and none is with another name that was
called after its own last call. -/
def Unambiguous : Prop :=
  (∀ x ∈ offered.request.toolNames, ∀ y ∈ offered.request.toolNames,
      Interchangeable x y → x = y) ∧
    ∀ name ∈ offered.request.toolNames, ∀ last,
      IsLastLike name offered.request.calledNames last → last = name

variable {offered}

lemma dot_mem_of_offered {name : String} (h : name ∈ offered.request.toolNames) :
    '.' ∈ name.toList := by
  obtain ⟨path, hpath⟩ := offered.accepted name h
  exact (Cli.validateName_eq_ok_iff.mp hpath).1

/-- The offered tools alone take a sanitized name back if no other one is interchangeable. -/
lemma Anthropic.buildNameMap_sanitize
    (hdistinct : ∀ x ∈ offered.request.toolNames, ∀ y ∈ offered.request.toolNames,
      Interchangeable x y → x = y)
    {name : String} (h : name ∈ offered.request.toolNames) :
    Anthropic.buildNameMap offered.request (sanitizeToolName name) = some name := by
  rw [Anthropic.buildNameMap, NameMap.foldl_insertName, Option.or_none]
  cases hfind : offered.request.toolNames.reverse.find? fun c =>
      SentAs (sanitizeToolName name) c with
  | none =>
    have hself := List.find?_eq_none.mp hfind name (List.mem_reverse.mpr h)
    exact absurd (decide_eq_true ⟨dot_mem_of_offered h, rfl⟩) hself
  | some c =>
    have hsent : SentAs (sanitizeToolName name) c := by simpa using List.find?_some hfind
    have hmem : c ∈ offered.request.toolNames :=
      List.mem_reverse.mp (List.mem_of_find?_eq_some hfind)
    rw [hdistinct c hmem name h (sanitizeToolName_eq_iff.mp hsent.2)]

lemma OpenAi.buildNameMap_apply (request : CompletionRequest F) (sanitized : String) :
    OpenAi.buildNameMap request sanitized =
      (request.calledNames.reverse.find? fun c => SentAs sanitized c).or
        (Anthropic.buildNameMap request sanitized) := by
  rw [OpenAi.buildNameMap, NameMap.foldl_insertName]
  rfl

theorem reversible_iff_unambiguous (offered : LocalRequest F) :
    Reversible offered ↔ Unambiguous offered := by
  constructor
  · rintro ⟨hnodup, hback⟩
    refine ⟨fun x hx y hy h => ?_, fun name hname last hlast => ?_⟩
    · exact List.inj_on_of_nodup_map hnodup hx hy (sanitizeToolName_eq_iff.mpr h)
    · have hname := (hback name hname).1
      rw [unsanitizeToolName, OpenAi.buildNameMap_apply, isLastLike_iff_find.mp hlast] at hname
      exact hname
  · rintro ⟨hdistinct, hlast⟩
    refine ⟨offered.nodup.map_on fun x hx y hy h => ?_, fun name hname => ⟨?_, ?_⟩⟩
    · exact hdistinct x hx y hy (sanitizeToolName_eq_iff.mp h)
    · rw [unsanitizeToolName, OpenAi.buildNameMap_apply,
        Anthropic.buildNameMap_sanitize hdistinct hname]
      cases hfind : offered.request.calledNames.reverse.find? fun c =>
          SentAs (sanitizeToolName name) c with
      | none => rfl
      | some last => exact hlast name hname last (isLastLike_iff_find.mpr hfind)
    · rw [unsanitizeToolName, Anthropic.buildNameMap_sanitize hdistinct hname, Option.getD_some]

/-- Both names are sent as `a___b___c`. -/
def crossedRequest : LocalRequest F where
  request :=
    { messages := []
      tools := [⟨"a.b.c", "", emptyObject⟩, ⟨"a___b.c", "", emptyObject⟩]
      max_tokens := none
      temperature := none }
  accepted := List.forall_mem_cons.mpr ⟨⟨"", by decide +kernel⟩,
    List.forall_mem_singleton.mpr ⟨"", by decide +kernel⟩⟩
  nodup := by simp [CompletionRequest.toolNames]

theorem not_reversible_crossed : ¬Reversible (crossedRequest : LocalRequest Unit) := by
  rintro ⟨hnodup, -⟩
  revert hnodup
  decide +kernel

end

end Arbeiterfarm.Llm
