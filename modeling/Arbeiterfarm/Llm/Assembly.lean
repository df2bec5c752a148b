import Arbeiterfarm.Llm.OpenAi

/-!
# Assembling streamed tool calls

The receiving loop puts the tool calls of a stream together by their ids: a fragment goes to the
first call with its id. The arguments of a streamed call are parsed when the call is made, and a
call whose arguments do not parse is not made; a complete response decodes such arguments to an
empty object. So both decoders agree exactly when no two calls share an id and every call has
arguments that parse.
-/

namespace Arbeiterfarm.Llm

/-! ### Assembling the calls -/

/-- What a chunk does to the calls collected so far. -/
def assemble (calls : List StreamedCall) : StreamChunk → List StreamedCall
  | .toolCallStart id name => calls ++ [⟨id, name, ""⟩]
  | .toolCallDelta id delta => appendDelta id delta calls
  | _ => calls

/-- The calls that the receiving loop has after these chunks. -/
def collect (chunks : List StreamChunk) : List StreamedCall :=
  (chunks.foldl Collected.onChunk {}).tool_calls

def isCallChunk : StreamChunk → Bool
  | .toolCallStart .. | .toolCallDelta .. => true
  | _ => false

lemma tool_calls_foldl (chunks : List StreamChunk) (c : Collected) :
    (chunks.foldl Collected.onChunk c).tool_calls = chunks.foldl assemble c.tool_calls := by
  induction chunks generalizing c with
  | nil => rfl
  | cons chunk chunks ih =>
    rw [List.foldl_cons, List.foldl_cons, ih]
    cases chunk <;> rfl

/-- Text, reasoning and usage make no difference to the calls. -/
lemma collect_filter (chunks : List StreamChunk) :
    collect chunks = (chunks.filter isCallChunk).foldl assemble [] := by
  have hfilter (calls : List StreamedCall) :
      chunks.foldl assemble calls = (chunks.filter isCallChunk).foldl assemble calls := by
    induction chunks generalizing calls with
    | nil => rfl
    | cons chunk chunks ih =>
      cases chunk <;> simp [List.filter_cons, isCallChunk, assemble, ih]
  rw [collect, tool_calls_foldl]
  exact hfilter []

/-- The chunks carry these calls: each call starts once, and the fragments of a call carry its
id. -/
inductive Streams : List StreamedCall → List StreamChunk → Prop
  | nil : Streams [] []
  | start {acc chunks} (id name) (h : Streams acc chunks) :
    Streams (acc ++ [⟨id, name, ""⟩]) (chunks ++ [.toolCallStart id name])
  | delta {acc chunks} (i tc text) (h : Streams acc chunks) (hi : acc[i]? = some tc) :
    Streams (acc.modify i (.pushArgs text)) (chunks ++ [.toolCallDelta tc.id text])

/-- How the collected calls stand to the calls that the chunks carry: they are the same unless
two calls share an id, and then the later one has no arguments. -/
structure Assembles (acc calls : List StreamedCall) : Prop where
  ids : calls.map (·.id) = acc.map (·.id)
  eq_of_nodup : (acc.map (·.id)).Nodup → calls = acc
  later : calls.Pairwise fun a b => a.id = b.id → b.args = ""

@[simp] lemma pushArgs_id (delta : String) (tc : StreamedCall) :
    (tc.pushArgs delta).id = tc.id := rfl

lemma map_modify {α β : Type} {f : α → β} {g : α → α} {h : β → β} (hfg : ∀ x, f (g x) = h (f x))
    (l : List α) (i : ℕ) : (l.modify i g).map f = (l.map f).modify i h := by
  induction l generalizing i with
  | nil => simp
  | cons a l ih =>
    cases i with
    | zero => simp [hfg]
    | succ i => simp [ih]

lemma map_id_modify (calls : List StreamedCall) (i : ℕ) (delta : String) :
    (calls.modify i (.pushArgs delta)).map (·.id) = calls.map (·.id) := by
  have hid (tc : StreamedCall) : (tc.pushArgs delta).id = id tc.id := rfl
  rw [map_modify hid, List.modify_id]

/-- The call at the end is the one at the position that the list before it has as its length. -/
lemma modify_length_append {α : Type} (l : List α) (a : α) (f : α → α) :
    (l ++ [a]).modify l.length f = l ++ [f a] := by
  induction l with
  | nil => rfl
  | cons b l ih => simp [ih]

/-- A fragment goes to the first call with its id. -/
lemma appendDelta_eq {id : String} {calls : List StreamedCall} (h : id ∈ calls.map (·.id))
    (delta : String) : ∃ l tc m, calls = l ++ tc :: m ∧ tc.id = id ∧ id ∉ l.map (·.id) ∧
      appendDelta id delta calls = l ++ tc.pushArgs delta :: m ∧
      appendDelta id delta calls = calls.modify l.length (.pushArgs delta) := by
  induction calls with
  | nil => simp at h
  | cons a calls ih =>
    by_cases ha : a.id = id
    · refine ⟨[], a, calls, rfl, ha, by simp, ?_, ?_⟩ <;>
        simp [appendDelta, List.findIdx?_cons, ha]
    · obtain ⟨l, tc, m, rfl, htc, hl, hpush, hmodify⟩ := ih (by simpa [Ne.symm ha] using h)
      have hcons : appendDelta id delta (a :: (l ++ tc :: m)) =
          a :: appendDelta id delta (l ++ tc :: m) := by
        have hfound : ((l ++ tc :: m).findIdx? fun tc => tc.id = id).isSome := by
          simp [List.findIdx?_isSome, htc]
        obtain ⟨i, hi⟩ := Option.isSome_iff_exists.mp hfound
        simp [appendDelta, List.findIdx?_cons, ha, hi]
      refine ⟨a :: l, tc, m, rfl, htc, by simpa [Ne.symm ha] using hl, ?_, ?_⟩
      · rw [hcons, hpush]
        rfl
      · rw [hcons, hmodify]
        rfl

lemma Assembles.start {acc calls : List StreamedCall} (h : Assembles acc calls)
    (id name : String) : Assembles (acc ++ [⟨id, name, ""⟩]) (calls ++ [⟨id, name, ""⟩]) := by
  refine ⟨?_, ?_, ?_⟩
  · simp [h.ids]
  · intro hnodup
    rw [List.map_append, List.nodup_append] at hnodup
    rw [h.eq_of_nodup hnodup.1]
  · rw [List.pairwise_append]
    refine ⟨h.later, List.pairwise_singleton _ _, ?_⟩
    intro a _ b hb _
    rw [List.mem_singleton.mp hb]

lemma Assembles.delta {acc calls : List StreamedCall} (h : Assembles acc calls) {i : ℕ}
    {tc : StreamedCall} (hi : acc[i]? = some tc) (text : String) :
    Assembles (acc.modify i (.pushArgs text)) (appendDelta tc.id text calls) := by
  have hmem : tc.id ∈ calls.map (·.id) := by
    rw [h.ids]
    exact List.mem_map_of_mem (List.mem_of_getElem? hi)
  obtain ⟨l, tc', m, hcalls, htc', hl, hpush, hmodify⟩ := appendDelta_eq hmem text
  refine ⟨?_, ?_, ?_⟩
  · rw [hmodify, map_id_modify, map_id_modify, h.ids]
  · intro hnodup
    rw [map_id_modify] at hnodup
    obtain rfl := h.eq_of_nodup hnodup
    -- ids are unique, so the first call with this id is the call itself
    have hpos : l.length = i := by
      have hl' : (calls.map (·.id))[l.length]? = some tc.id := by simp [hcalls, htc']
      have hi' : (calls.map (·.id))[i]? = some tc.id := by simp [hi]
      exact (List.getElem?_inj (List.getElem?_eq_some_iff.mp hl').1 hnodup).mp (hl'.trans hi'.symm)
    rw [hmodify, hpos]
  · have hlater := h.later
    rw [hpush]
    rw [hcalls, List.pairwise_append, List.pairwise_cons] at hlater
    rw [List.pairwise_append, List.pairwise_cons]
    refine ⟨hlater.1, ⟨hlater.2.1.1, hlater.2.1.2⟩, ?_⟩
    intro a ha b hb
    rcases List.mem_cons.mp hb with rfl | hb
    · intro heq
      exact absurd (List.mem_map.mpr ⟨a, ha, heq.trans htc'⟩) hl
    · exact hlater.2.2 a ha b (List.mem_cons_of_mem _ hb)

/-- A fragment of a call, which emits nothing when it is empty. -/
lemma Streams.fragment {acc : List StreamedCall} {chunks : List StreamChunk}
    (h : Streams acc chunks) (i : ℕ) (tc : StreamedCall) (hi : acc[i]? = some tc) (text : String) :
    Streams (acc.modify i (.pushArgs text))
      (chunks ++ if text = "" then [] else [.toolCallDelta tc.id text]) := by
  by_cases htext : text = ""
  · have hid : StreamedCall.pushArgs text = id := by
      funext tc
      simp [StreamedCall.pushArgs, htext]
    rw [if_pos htext, hid, List.modify_id, List.append_nil]
    exact h
  · rw [if_neg htext]
    exact .delta i tc text h hi

/-- A call that starts with a first fragment. -/
lemma Streams.startFragment {acc : List StreamedCall} {chunks : List StreamChunk}
    (h : Streams acc chunks) (id name text : String) :
    Streams (acc ++ [⟨id, name, text⟩])
      (chunks ++ .toolCallStart id name :: if text = "" then [] else [.toolCallDelta id text]) := by
  have hstart := (h.start id name).fragment acc.length ⟨id, name, ""⟩ (by simp) text
  rw [modify_length_append, List.append_assoc] at hstart
  simpa [StreamedCall.pushArgs] using hstart

lemma Streams.assembles {acc : List StreamedCall} {chunks : List StreamChunk}
    (h : Streams acc chunks) : Assembles acc (chunks.foldl assemble []) := by
  induction h with
  | nil => exact ⟨rfl, fun _ => rfl, List.Pairwise.nil⟩
  | start id name h ih =>
    rw [List.foldl_append]
    exact ih.start id name
  | delta i tc text h hi ih =>
    rw [List.foldl_append]
    exact ih.delta hi text

/-! ### Decoding the arguments -/

section

variable (parseJson : String → Option Json)

/-- A streamed call as it is made; nothing is called with arguments that do not parse. -/
def decodeCall (tc : StreamedCall) : Option ToolCallResponse :=
  (parseJson tc.args).map fun arguments => ⟨tc.id, tc.name, arguments⟩

/-- The calls that the receiving loop makes of the chunks. -/
def streamedCalls (chunks : List StreamChunk) : List (Option ToolCallResponse) :=
  (collect chunks).map (decodeCall parseJson)

variable {parseJson}

lemma decodeCall_of_empty (hempty : parseJson "" = none) {tc : StreamedCall}
    (h : tc.args = "") : decodeCall parseJson tc = none := by
  simp [decodeCall, h, hempty]

/-- The calls of the chunks are decoded like those of the complete response exactly when they
have distinct ids and are decoded so one by one. -/
lemma streamedCalls_eq_iff (hempty : parseJson "" = none) {chunks : List StreamChunk}
    {acc : List StreamedCall} (h : Streams acc (chunks.filter isCallChunk))
    (complete : List ToolCallResponse) :
    streamedCalls parseJson chunks = complete.map some ↔
      (acc.map (·.id)).Nodup ∧ acc.map (decodeCall parseJson) = complete.map some := by
  have hasm := h.assembles
  rw [streamedCalls, collect_filter]
  constructor
  · intro heq
    have hnodup : (acc.map (·.id)).Nodup := by
      rw [← hasm.ids, List.Nodup, List.pairwise_map]
      refine hasm.later.imp_of_mem ?_
      intro a b _ hb hlater hid
      have hnone : none ∈ complete.map some := by
        rw [← heq, ← decodeCall_of_empty hempty (hlater hid)]
        exact List.mem_map_of_mem hb
      simp at hnone
    refine ⟨hnodup, ?_⟩
    rw [← heq, hasm.eq_of_nodup hnodup]
  · rintro ⟨hnodup, heq⟩
    rw [hasm.eq_of_nodup hnodup, heq]

end

/-- A stream of events: each one emits its chunks and leaves the state for the next one. -/
def runEvents {σ : Type} (onEvent : σ → Json → List StreamChunk × σ) :
    σ → List Json → List StreamChunk
  | _, [] => []
  | s, event :: events => (onEvent s event).1 ++ runEvents onEvent (onEvent s event).2 events

/-- The state that a stream of events leaves. -/
def stateAfter {σ : Type} (onEvent : σ → Json → List StreamChunk × σ) (s : σ)
    (events : List Json) : σ :=
  events.foldl (fun s event => (onEvent s event).2) s

lemma runEvents_concat {σ : Type} (onEvent : σ → Json → List StreamChunk × σ) (s : σ)
    (events : List Json) (event : Json) :
    runEvents onEvent s (events ++ [event]) =
      runEvents onEvent s events ++ (onEvent (stateAfter onEvent s events) event).1 := by
  induction events generalizing s with
  | nil => simp [runEvents, stateAfter]
  | cons e events ih => simp [runEvents, stateAfter, ih]

lemma filter_textChunk (chunk : String → StreamChunk) (h : ∀ s, isCallChunk (chunk s) = false)
    (text : List Char) : (textChunk chunk text).filter isCallChunk = [] := by
  simp only [textChunk]
  split_ifs
  · rfl
  · simp [h]

end Arbeiterfarm.Llm
