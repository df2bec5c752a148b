import Arbeiterfarm.Llm.OpenAi

/-!
# Think tags in deltas

The content of a response comes in deltas, and each delta is searched for think tags on its own. A
tag that is divided between two deltas is not seen, so that what is reasoning and what is answer
depends on how a text with tags is split. Where no delta ends inside a tag it does not.
-/

namespace Arbeiterfarm.Llm

def StreamChunk.reasoningChars : StreamChunk → List Char
  | .reasoning text => text.toList
  | _ => []

def StreamChunk.answerChars : StreamChunk → List Char
  | .token text => text.toList
  | _ => []

/-- The reasoning text and the answer text of a stream. -/
def thinkTexts (chunks : List StreamChunk) : List Char × List Char :=
  (chunks.flatMap StreamChunk.reasoningChars, chunks.flatMap StreamChunk.answerChars)

/-- An event that carries a delta of the content. -/
def contentEvent (delta : List Char) : Json :=
  .obj [("choices", .arr [.obj [("delta", .obj [("content", .str (String.ofList delta))])]])]

/-- The chunks for the events of a stream. -/
def parseSseEvents (name_map : NameMap) (s : OpenAiState) : List Json → List StreamChunk
  | [] => []
  | event :: events =>
    let (chunks, s) := parseSseEvent name_map s event
    chunks ++ parseSseEvents name_map s events

/-- The texts of a response whose content comes in these deltas. -/
def streamedTexts (name_map : NameMap) (deltas : List (List Char)) : List Char × List Char :=
  thinkTexts (parseSseEvents name_map {} (deltas.map contentEvent))

/-! ### The texts of one delta -/

section

variable {in_think : Bool} {cs pre post before after : List Char}

def joinTexts (a b : List Char × List Char) : List Char × List Char := (a.1 ++ b.1, a.2 ++ b.2)

lemma joinTexts_assoc (a b c : List Char × List Char) :
    joinTexts (joinTexts a b) c = joinTexts a (joinTexts b c) := by
  simp only [joinTexts, List.append_assoc]

lemma thinkTexts_append (chunks chunks' : List StreamChunk) :
    thinkTexts (chunks ++ chunks') = joinTexts (thinkTexts chunks) (thinkTexts chunks') := by
  simp only [thinkTexts, joinTexts, List.flatMap_append]

/-- The tag that ends the current block. -/
def sought (in_think : Bool) : List Char := if in_think then thinkEnd else thinkStart

/-- Text of the current block. -/
def inBlock (in_think : Bool) (cs : List Char) : List Char × List Char :=
  if in_think then (cs, []) else ([], cs)

lemma inBlock_append : inBlock in_think (pre ++ post) =
    joinTexts (inBlock in_think pre) (inBlock in_think post) := by
  cases in_think <;> rfl

lemma inBlock_nil : inBlock in_think [] = ([], []) := by
  cases in_think <;> rfl

lemma sought_ne_nil : sought in_think ≠ [] := by
  cases in_think <;> decide

/-- The texts that a delta adds. -/
def textsOf (in_think : Bool) (cs : List Char) : List Char × List Char :=
  thinkTexts (classifyThinkContent in_think cs).1

/-- Whether a delta ends inside a reasoning block. -/
def endsIn (in_think : Bool) (cs : List Char) : Bool := (classifyThinkContent in_think cs).2

lemma thinkTexts_textChunk :
    thinkTexts (textChunk (if in_think then .reasoning else .token) cs) = inBlock in_think cs := by
  cases cs with
  | nil => rw [inBlock_nil, textChunk, List.isEmpty_nil, if_pos rfl, thinkTexts,
      List.flatMap_nil, List.flatMap_nil]
  | cons c cs =>
    rw [textChunk, List.isEmpty_cons, if_neg Bool.false_ne_true]
    cases in_think <;>
      simp [thinkTexts, inBlock, StreamChunk.reasoningChars, StreamChunk.answerChars]

/-- Inside and outside a reasoning block the same is done, with the tag that ends the block. -/
lemma classify_of_ne_nil (hne : cs ≠ []) : classifyThinkContent in_think cs =
    match splitAround (sought in_think) cs with
    | some (before, after) =>
      (textChunk (if in_think then .reasoning else .token) before ++
        (classifyThinkContent (!in_think) after).1, (classifyThinkContent (!in_think) after).2)
    | none => (textChunk (if in_think then .reasoning else .token) cs, in_think) := by
  rw [classifyThinkContent, if_neg (by simpa using hne)]
  cases in_think with
  | true =>
    rw [if_pos rfl, sought, if_pos rfl]
    split <;> next hsplit => simp only [hsplit, if_true, Bool.not_true]
  | false =>
    rw [if_neg Bool.false_ne_true, sought, if_neg Bool.false_ne_true]
    split <;> next hsplit => simp only [hsplit, Bool.false_eq_true, if_false, Bool.not_false]

/-- A delta in which the block does not end. -/
lemma classify_of_none (h : splitAround (sought in_think) cs = none) :
    classifyThinkContent in_think cs =
      (textChunk (if in_think then .reasoning else .token) cs, in_think) := by
  by_cases hnil : cs = []
  · rw [hnil, classifyThinkContent, if_pos List.isEmpty_nil, textChunk, if_pos List.isEmpty_nil]
  · rw [classify_of_ne_nil hnil, h]

/-- A delta in which the block ends. -/
lemma classify_of_some (h : splitAround (sought in_think) cs = some (before, after)) :
    classifyThinkContent in_think cs =
      (textChunk (if in_think then .reasoning else .token) before ++
        (classifyThinkContent (!in_think) after).1,
        (classifyThinkContent (!in_think) after).2) := by
  have hne : cs ≠ [] := by
    rintro rfl
    rw [splitAround, if_neg (by simpa using sought_ne_nil)] at h
    cases h
  rw [classify_of_ne_nil hne, h]

lemma textsOf_of_none (h : splitAround (sought in_think) cs = none) :
    textsOf in_think cs = inBlock in_think cs := by
  rw [textsOf, classify_of_none h, thinkTexts_textChunk]

lemma textsOf_of_some (h : splitAround (sought in_think) cs = some (before, after)) :
    textsOf in_think cs = joinTexts (inBlock in_think before) (textsOf (!in_think) after) := by
  rw [textsOf, classify_of_some h, thinkTexts_append, thinkTexts_textChunk, textsOf]

lemma endsIn_of_none (h : splitAround (sought in_think) cs = none) :
    endsIn in_think cs = in_think := by
  rw [endsIn, classify_of_none h]

lemma endsIn_of_some (h : splitAround (sought in_think) cs = some (before, after)) :
    endsIn in_think cs = endsIn (!in_think) after := by
  rw [endsIn, classify_of_some h, endsIn]

lemma straddles_of_suffix {pat pre' : List Char} (hsuffix : pre' <:+ pre)
    (h : ¬ Straddles pat pre post) : ¬ Straddles pat pre' post := by
  rintro ⟨x, y, hx, hy, heq, hpre, hpost⟩
  exact h ⟨x, y, hx, hy, heq, hpre.trans hsuffix, hpost⟩

/-- Two deltas say together what their text says, if no tag is divided between them. -/
lemma classify_append (hcut : ∀ in_think, ¬ Straddles (sought in_think) pre post) :
    textsOf in_think (pre ++ post) =
        joinTexts (textsOf in_think pre) (textsOf (endsIn in_think pre) post) ∧
      endsIn in_think (pre ++ post) = endsIn (endsIn in_think pre) post := by
  induction hlen : pre.length using Nat.strong_induction_on generalizing in_think pre with
  | _ n ih =>
    cases hpre : splitAround (sought in_think) pre with
    | none =>
      rw [textsOf_of_none hpre, endsIn_of_none hpre]
      have happend := splitAround_append_of_none hpre (hcut in_think)
      cases hpost : splitAround (sought in_think) post with
      | none =>
        rw [hpost] at happend
        rw [textsOf_of_none happend, endsIn_of_none happend, textsOf_of_none hpost,
          endsIn_of_none hpost]
        exact ⟨inBlock_append, rfl⟩
      | some found =>
        obtain ⟨before, after⟩ := found
        rw [hpost] at happend
        rw [textsOf_of_some happend, endsIn_of_some happend, textsOf_of_some hpost,
          endsIn_of_some hpost, inBlock_append, joinTexts_assoc]
        exact ⟨rfl, rfl⟩
    | some found =>
      obtain ⟨before, after⟩ := found
      have happend := splitAround_append_of_some sought_ne_nil hpre post
      have hshorter : after.length < n := by
        have hsplit := length_of_splitAround hpre
        have hpos : 0 < (sought in_think).length := List.length_pos_of_ne_nil sought_ne_nil
        omega
      have hsuffix : after <:+ pre := ⟨_, (eq_of_splitAround hpre).symm⟩
      have hrest : ∀ b, ¬ Straddles (sought b) after post :=
        fun b => straddles_of_suffix hsuffix (hcut b)
      obtain ⟨htexts, hends⟩ :
          textsOf (!in_think) (after ++ post) =
              joinTexts (textsOf (!in_think) after) (textsOf (endsIn (!in_think) after) post) ∧
            endsIn (!in_think) (after ++ post) = endsIn (endsIn (!in_think) after) post :=
        ih after.length hshorter hrest rfl
      rw [textsOf_of_some happend, endsIn_of_some happend, textsOf_of_some hpre,
        endsIn_of_some hpre, htexts, hends, joinTexts_assoc]
      exact ⟨rfl, rfl⟩

/-! ### The texts of a response -/

/-- The texts that deltas add. -/
def deltaTexts (in_think : Bool) : List (List Char) → List Char × List Char
  | [] => ([], [])
  | delta :: deltas =>
    joinTexts (textsOf in_think delta) (deltaTexts (endsIn in_think delta) deltas)

lemma parseSseEvent_contentEvent (name_map : NameMap) (s : OpenAiState) (delta : List Char) :
    parseSseEvent name_map s (contentEvent delta) =
      ((classifyThinkContent s.in_think delta).1,
        ⟨s.active_tool_calls, endsIn s.in_think delta⟩) := by
  have hcontent : ((String.ofList delta).toList) = delta := String.toList_ofList
  have hevent : parseSseEvent name_map s (contentEvent delta) =
      ((classifyThinkContent s.in_think (String.ofList delta).toList).1 ++ [] ++ [] ++ [] ++ [],
        ⟨s.active_tool_calls, (classifyThinkContent s.in_think (String.ofList delta).toList).2⟩) :=
    rfl
  rw [hevent, hcontent]
  simp only [List.append_nil, endsIn]

lemma thinkTexts_parseSseEvents (name_map : NameMap) (s : OpenAiState)
    (deltas : List (List Char)) :
    thinkTexts (parseSseEvents name_map s (deltas.map contentEvent)) =
      deltaTexts s.in_think deltas := by
  induction deltas generalizing s with
  | nil => rfl
  | cons delta deltas ih =>
    rw [List.map_cons, parseSseEvents, parseSseEvent_contentEvent]
    simp only
    rw [thinkTexts_append, ih, deltaTexts, textsOf]

lemma streamedTexts_eq (name_map : NameMap) (deltas : List (List Char)) :
    streamedTexts name_map deltas = deltaTexts false deltas :=
  thinkTexts_parseSseEvents name_map {} deltas

lemma deltaTexts_singleton : deltaTexts in_think [cs] = textsOf in_think cs := by
  simp only [deltaTexts, joinTexts, List.append_nil]

/-- No delta ends inside a tag. -/
def TagsWhole (deltas : List (List Char)) : Prop :=
  ∀ pre post, pre ++ post = deltas →
    ∀ tag ∈ [thinkStart, thinkEnd], ¬ Straddles tag pre.flatten post.flatten

lemma TagsWhole.tail {delta : List Char} {deltas : List (List Char)}
    (h : TagsWhole (delta :: deltas)) : TagsWhole deltas := by
  intro pre post heq tag htag
  refine straddles_of_suffix ?_ (h (delta :: pre) post (by rw [List.cons_append, heq]) tag htag)
  exact List.suffix_append delta pre.flatten

lemma deltaTexts_of_tagsWhole {deltas : List (List Char)} (h : TagsWhole deltas) :
    deltaTexts in_think deltas = textsOf in_think deltas.flatten := by
  induction deltas generalizing in_think with
  | nil =>
    have hnone : splitAround (sought in_think) [] = none := by
      rw [splitAround_eq_none_iff, List.infix_nil]
      exact sought_ne_nil
    rw [List.flatten_nil, textsOf_of_none hnone, inBlock_nil, deltaTexts]
  | cons delta deltas ih =>
    have hcut (b : Bool) : ¬ Straddles (sought b) delta deltas.flatten := by
      have hfirst := h [delta] deltas rfl (sought b) (by cases b <;> decide)
      rwa [List.flatten_singleton] at hfirst
    rw [deltaTexts, ih h.tail, List.flatten_cons, (classify_append hcut).1]

/-- Outside of tags everything is answer. -/
lemma deltaTexts_of_no_tag {deltas : List (List Char)}
    (h : ∀ delta ∈ deltas, ¬ thinkStart <:+: delta) :
    deltaTexts false deltas = ([], deltas.flatten) := by
  induction deltas with
  | nil => rfl
  | cons delta deltas ih =>
    obtain ⟨hdelta, hdeltas⟩ := List.forall_mem_cons.mp h
    have hnone : splitAround (sought false) delta = none := splitAround_eq_none_iff.mpr hdelta
    rw [deltaTexts, textsOf_of_none hnone, endsIn_of_none hnone, ih hdeltas]
    rfl

lemma length_textsOf_le : (textsOf in_think cs).2.length ≤ cs.length := by
  induction hlen : cs.length using Nat.strong_induction_on generalizing in_think cs with
  | _ n ih =>
    cases hsplit : splitAround (sought in_think) cs with
    | none =>
      rw [textsOf_of_none hsplit, ← hlen]
      cases in_think
      · exact le_rfl
      · exact Nat.zero_le _
    | some found =>
      obtain ⟨before, after⟩ := found
      have heq := length_of_splitAround hsplit
      have hpos : 0 < (sought in_think).length := List.length_pos_of_ne_nil sought_ne_nil
      have hafter : (textsOf (!in_think) after).2.length ≤ after.length :=
        ih after.length (by omega) rfl
      have hbefore : (inBlock in_think before).2.length ≤ before.length := by
        cases in_think
        · exact le_rfl
        · exact Nat.zero_le _
      rw [textsOf_of_some hsplit, joinTexts, List.length_append]
      omega

/-- A tag is left out of the texts. -/
lemma length_textsOf_lt (h : thinkStart <:+: cs) : (textsOf false cs).2.length < cs.length := by
  cases hsplit : splitAround (sought false) cs with
  | none => exact absurd h (splitAround_eq_none_iff.mp hsplit)
  | some found =>
    obtain ⟨before, after⟩ := found
    have heq := length_of_splitAround hsplit
    have hpos : 0 < (sought false).length := List.length_pos_of_ne_nil sought_ne_nil
    have hafter : (textsOf (!false) after).2.length ≤ after.length := length_textsOf_le
    rw [textsOf_of_some hsplit, joinTexts, List.length_append]
    have hbefore : (inBlock false before).2.length = before.length := rfl
    omega

end

/-- What is reasoning and what is answer does not depend on how the text is split just when it has
no start tag; and all splittings of a text that divide no tag agree. -/
theorem streamedTexts_split_iff (name_map : NameMap) (text : List Char) :
    ((∀ deltas deltas', deltas.flatten = text → deltas'.flatten = text →
        streamedTexts name_map deltas = streamedTexts name_map deltas') ↔
      ¬ thinkStart <:+: text) ∧
    ∀ deltas, deltas.flatten = text → TagsWhole deltas →
      streamedTexts name_map deltas = streamedTexts name_map [text] := by
  simp only [streamedTexts_eq]
  refine ⟨⟨?_, ?_⟩, ?_⟩
  · intro hagree htag
    -- No character is a tag, so that a text in single characters is all answer.
    have hchars : (text.map fun c => [c]).flatten = text := List.flatMap_singleton' text
    have hsingle : ∀ delta ∈ text.map fun c => [c], ¬ thinkStart <:+: delta := by
      intro delta hdelta hinfix
      obtain ⟨c, -, rfl⟩ := List.mem_map.mp hdelta
      have hle := hinfix.length_le
      rw [length_thinkStart, List.length_singleton] at hle
      omega
    have heq := hagree _ [text] hchars List.flatten_singleton
    rw [deltaTexts_of_no_tag hsingle, hchars, deltaTexts_singleton] at heq
    have hlt := length_textsOf_lt htag
    rw [← heq] at hlt
    exact lt_irrefl _ hlt
  · intro hnone
    have hall (deltas : List (List Char)) (heq : deltas.flatten = text) :
        deltaTexts false deltas = ([], text) := by
      rw [deltaTexts_of_no_tag, heq]
      intro delta hdelta hinfix
      exact hnone (heq ▸ hinfix.trans (List.infix_of_mem_flatten hdelta))
    intro deltas deltas' heq heq'
    rw [hall deltas heq, hall deltas' heq']
  · rintro deltas rfl hwhole
    rw [deltaTexts_of_tagsWhole hwhole, deltaTexts_singleton]

/-- The start tag is divided: the reasoning becomes part of the answer. -/
theorem divided_tag_is_answer :
    streamedTexts (fun _ => none) ["<think>a</think>b".toList] = (['a'], ['b']) ∧
    streamedTexts (fun _ => none) ["<thi".toList, "nk>a</think>b".toList] =
      ([], "<think>a</think>b".toList) := by
  decide +kernel

end Arbeiterfarm.Llm
