import Arbeiterfarm.Llm.Vertex
import Arbeiterfarm.Llm.Assembly

/-!
# Tool calls of the Vertex API, streamed and complete

A function call is printed into the stream and parsed again when it is made; a call without
`args` has no text in a stream, and is no call then.
-/

namespace Arbeiterfarm.Llm

section Vertex

variable (printJson : Json → String) (freshId : ℕ → String)

/-- The function calls of these parts. -/
def functionCalls (parts : List Json) : List Json := parts.filterMap (·.get "functionCall")

lemma functionCalls_cons_of_none {part : Json} (h : part.get "functionCall" = none)
    (parts : List Json) : functionCalls (part :: parts) = functionCalls parts :=
  List.filterMap_cons_none h

lemma functionCalls_cons_of_some {part fc : Json} (h : part.get "functionCall" = some fc)
    (parts : List Json) : functionCalls (part :: parts) = fc :: functionCalls parts :=
  List.filterMap_cons_some h

/-- The function calls of an event. -/
def eventCalls (event : Json) : List Json :=
  (((event.get "candidates").bind Json.asArray).getD []).flatMap fun candidate =>
    functionCalls (partsOf candidate)

/-- The function calls of a complete response. -/
def responseCalls (resp : Json) : List Json :=
  (((resp.get "candidates").bind (·.index 0)).map fun candidate =>
    functionCalls (partsOf candidate)).getD []

/-- Function calls with the ids that they are given. -/
def withIds (used : ℕ) : List Json → List (String × Json)
  | [] => []
  | fc :: fcs => (freshId used, fc) :: withIds (used + 1) fcs

lemma withIds_append (used : ℕ) (fcs fcs' : List Json) :
    withIds freshId used (fcs ++ fcs') =
      withIds freshId used fcs ++ withIds freshId (used + fcs.length) fcs' := by
  induction fcs generalizing used with
  | nil => rfl
  | cons fc fcs ih =>
    rw [List.cons_append, withIds, withIds, ih, List.length_cons, List.cons_append,
      Nat.add_assoc, Nat.add_comm 1]

/-! ### Streams of calls -/

/-- The argument text of a function call. -/
def argsText (fc : Json) : String := ((fc.get "args").map printJson).getD ""

/-- The call that a stream collects. -/
def vertexStreamed (call : String × Json) : StreamedCall :=
  ⟨call.1, (call.2.strField "name").getD "", argsText printJson call.2⟩

/-- The chunks of function calls. -/
def callChunks (calls : List (String × Json)) : List StreamChunk :=
  calls.flatMap fun call => functionCallChunks printJson call.1 call.2

lemma callChunks_append (calls calls' : List (String × Json)) :
    callChunks printJson (calls ++ calls') =
      callChunks printJson calls ++ callChunks printJson calls' := List.flatMap_append

lemma Streams.callChunks {acc : List StreamedCall} {chunks : List StreamChunk}
    (h : Streams acc chunks) (calls : List (String × Json)) :
    Streams (acc ++ calls.map (vertexStreamed printJson))
      (chunks ++ callChunks printJson calls) := by
  induction calls generalizing acc chunks with
  | nil => simpa [Llm.callChunks] using h
  | cons call calls ih =>
    have hcall := h.startFragment call.1 ((call.2.strField "name").getD "")
      (argsText printJson call.2)
    have hrest := ih hcall
    rw [List.append_assoc, List.append_assoc] at hrest
    exact hrest

lemma onParts_calls (used : ℕ) (parts : List Json) :
    (onParts printJson freshId used parts).1.filter isCallChunk =
        callChunks printJson (withIds freshId used (functionCalls parts)) ∧
      (onParts printJson freshId used parts).2 = used + (functionCalls parts).length := by
  induction parts generalizing used with
  | nil => exact ⟨rfl, rfl⟩
  | cons part parts ih =>
    have htext (text : List Char) : (textChunk .token text).filter isCallChunk = [] :=
      filter_textChunk _ (fun _ => rfl) text
    cases hfc : part.get "functionCall" with
    | none =>
      rw [functionCalls_cons_of_none hfc]
      simp only [onParts, onPart, hfc, List.filter_append, htext, List.nil_append]
      exact ih used
    | some fc =>
      have hcall : (functionCallChunks printJson (freshId used) fc).filter isCallChunk =
          functionCallChunks printJson (freshId used) fc := by
        simp only [functionCallChunks]
        split_ifs <;> rfl
      obtain ⟨hchunks, hused⟩ := ih (used + 1)
      rw [functionCalls_cons_of_some hfc]
      simp only [onParts, onPart, hfc, List.filter_append, htext, hcall, List.nil_append]
      constructor
      · rw [hchunks]
        rfl
      · rw [hused, List.length_cons]
        omega

lemma onCandidates_calls (has_tool_calls : Bool) (used : ℕ) (candidates : List Json) :
    (onCandidates printJson freshId has_tool_calls used candidates).1.filter isCallChunk =
        callChunks printJson (withIds freshId used
          (candidates.flatMap fun candidate => functionCalls (partsOf candidate))) ∧
      (onCandidates printJson freshId has_tool_calls used candidates).2 = used +
        (candidates.flatMap fun candidate => functionCalls (partsOf candidate)).length := by
  induction candidates generalizing has_tool_calls used with
  | nil => exact ⟨rfl, rfl⟩
  | cons candidate candidates ih =>
    have hdone (has_tool_calls : Bool) :
        (candidateDone has_tool_calls candidate).filter isCallChunk = [] := by
      simp only [candidateDone]
      split <;> rfl
    obtain ⟨hparts, hused⟩ := onParts_calls printJson freshId used (partsOf candidate)
    simp only [onCandidates, List.filter_append, hparts, hdone, List.append_nil, hused]
    rw [List.flatMap_cons, withIds_append, callChunks_append, List.length_append,
      (ih _ _).1, (ih _ _).2, Nat.add_assoc]
    exact ⟨rfl, rfl⟩

/-- The chunks of a stream of events carry the function calls of the events. -/
lemma runEvents_vertexCalls (used : ℕ) (events : List Json) :
    (runEvents (parseVertexSseEvent printJson freshId) used events).filter isCallChunk =
      callChunks printJson (withIds freshId used (events.flatMap eventCalls)) := by
  induction events generalizing used with
  | nil => rfl
  | cons event events ih =>
    have husage : (vertexUsageChunk event).filter isCallChunk = [] := by
      simp only [vertexUsageChunk]
      repeat' split
      all_goals rfl
    obtain ⟨hchunks, hused⟩ := onCandidates_calls printJson freshId false used
      (((event.get "candidates").bind Json.asArray).getD [])
    rw [runEvents, List.filter_append, ih, List.flatMap_cons, withIds_append, callChunks_append]
    simp only [parseVertexSseEvent, List.filter_append, hchunks, husage, List.append_nil, hused]
    rfl

/-! ### Complete responses -/

/-- The call that a complete response decodes to. -/
def vertexDecoded (call : String × Json) : ToolCallResponse where
  id := call.1
  name := (call.2.strField "name").getD ""
  arguments := (call.2.get "args").getD emptyObject

lemma partToolCalls_eq (used : ℕ) (parts : List Json) :
    partToolCalls freshId used parts =
      (withIds freshId used (functionCalls parts)).map vertexDecoded := by
  induction parts generalizing used with
  | nil => rfl
  | cons part parts ih =>
    cases hfc : part.get "functionCall" with
    | none =>
      rw [functionCalls_cons_of_none hfc]
      simp only [partToolCalls, hfc]
      exact ih used
    | some fc =>
      rw [functionCalls_cons_of_some hfc]
      simp only [partToolCalls, hfc]
      rw [ih]
      rfl

lemma parseVertexResponse_tool_calls {resp : Json} {r : CompletionResponse}
    (h : parseVertexResponse freshId resp = .ok r) :
    r.tool_calls = (withIds freshId 0 (responseCalls resp)).map vertexDecoded := by
  simp only [parseVertexResponse] at h
  split at h
  · cases h
  · next candidate hcandidate =>
    obtain rfl := Except.ok.inj h
    simp only [responseCalls, hcandidate, Option.map_some, Option.getD_some]
    exact partToolCalls_eq freshId 0 _

/-! ### Both decoders -/

/-- A response, streamed and complete, with the same calls. -/
structure VertexExchange where
  events : List Json
  resp : Json
  response : CompletionResponse
  sameCalls : events.flatMap eventCalls = responseCalls resp
  decoded : parseVertexResponse freshId resp = .ok response

variable {printJson freshId}

/-- The calls with their ids. -/
def VertexExchange.calls (x : VertexExchange freshId) : List (String × Json) :=
  withIds freshId 0 (x.events.flatMap eventCalls)

/-- The calls of the stream are those of the complete response. -/
def VertexExchange.SameCalls (printJson : Json → String) (parseJson : String → Option Json)
    (x : VertexExchange freshId) : Prop :=
  streamedCalls parseJson (runEvents (parseVertexSseEvent printJson freshId) 0 x.events) =
    x.response.tool_calls.map some

/-- No two calls share an id, and every call has arguments that are parsed as they were
printed. -/
def VertexExchange.Distinguished (printJson : Json → String) (parseJson : String → Option Json)
    (x : VertexExchange freshId) : Prop :=
  (x.calls.map (·.1)).Nodup ∧
    ∀ call ∈ x.calls, ∃ args, call.2.get "args" = some args ∧
      parseJson (printJson args) = some args

theorem VertexExchange.sameCalls_iff {parseJson : String → Option Json}
    (hempty : parseJson "" = none) (x : VertexExchange freshId) :
    x.SameCalls printJson parseJson ↔ x.Distinguished printJson parseJson := by
  have hstreams := Streams.nil.callChunks printJson x.calls
  rw [List.nil_append, List.nil_append, VertexExchange.calls,
    ← runEvents_vertexCalls printJson freshId 0 x.events] at hstreams
  rw [SameCalls, streamedCalls_eq_iff hempty hstreams,
    parseVertexResponse_tool_calls freshId x.decoded, ← x.sameCalls]
  simp only [List.map_map]
  refine and_congr Iff.rfl ?_
  rw [List.map_inj_left]
  refine forall₂_congr ?_
  intro call _
  show decodeCall parseJson (vertexStreamed printJson call) = some (vertexDecoded call) ↔ _
  simp only [decodeCall, vertexStreamed, argsText, vertexDecoded]
  cases call.2.get "args" with
  | none => simp [hempty]
  | some args => cases parseJson (printJson args) <;> simp

end Vertex

end Arbeiterfarm.Llm
