import Arbeiterfarm.Llm.OpenAiCalls
import Arbeiterfarm.Llm.AnthropicCalls
import Arbeiterfarm.Llm.VertexCalls

/-!
# Tool calls, streamed and complete

The receiving loop puts the tool calls of a stream together by their ids, and makes a call only
when the text of its arguments parses. So a stream has the calls of the complete response exactly
when no two calls share an id and every call has arguments that parse. A call without arguments
is an empty object in every complete response, and no call in a stream.
-/

namespace Arbeiterfarm.Llm

/-- For each provider, the calls of a stream are those of the complete response exactly when no
two of them share an id and all of them have arguments that parse. -/
theorem providers_sameCalls_iff {name_map : NameMap} {parseJson : String → Option Json}
    {printJson : Json → String} {freshId : ℕ → String} (hempty : parseJson "" = none)
    (openAi : OpenAiExchange name_map parseJson)
    (anthropic : AnthropicExchange name_map parseJson) (vertex : VertexExchange freshId) :
    (openAi.SameCalls ↔ openAi.Distinguished) ∧
    (anthropic.SameCalls ↔ anthropic.Distinguished) ∧
    (vertex.SameCalls printJson parseJson ↔ vertex.Distinguished printJson parseJson) := by
  refine ⟨?_, ?_, ?_⟩
  · exact openAi.sameCalls_iff hempty
  · exact anthropic.sameCalls_iff hempty
  · exact vertex.sameCalls_iff hempty

/-! ### Two calls -/

/-- What a JSON parser makes of the arguments of the calls. -/
def parseArguments (text : String) : Option Json :=
  if text = "\x7b\x7d" then some emptyObject
  else if text = "\x7b\"line\":7\x7d" then some (.obj [("line", .num (.int 7))])
  else none

/-- The entry that begins a call of an OpenAI-compatible server. -/
def callEntry (index : ℤ) (id name arguments : String) : Json :=
  .obj [("index", .num (.int index)), ("id", .str id),
    ("function", .obj [("name", .str name), ("arguments", .str arguments)])]

/-- An entry with a fragment of the arguments. -/
def fragmentEntry (index : ℤ) (arguments : String) : Json :=
  .obj [("index", .num (.int index)), ("function", .obj [("arguments", .str arguments)])]

def choiceDelta (entries : List Json) : Json :=
  .obj [("choices", .arr [.obj [("delta", .obj [("tool_calls", .arr entries)])]])]

/-- Two calls whose arguments come in fragments, one after the other. -/
def openAiTwoCalls : OpenAiExchange (fun _ => none) parseArguments where
  calls :=
    [⟨0, ⟨some "call_1", "file.list", some "\x7b\x7d"⟩, "\x7b\x7d"⟩,
      ⟨1, ⟨some "call_2", "file.cat", some "\x7b\"line\":7\x7d"⟩, "\x7b\"line\":7\x7d"⟩]
  events :=
    [choiceDelta [callEntry 0 "call_1" "file.list" "", callEntry 1 "call_2" "file.cat" "\x7b\"li"],
      choiceDelta [fragmentEntry 0 "\x7b\x7d"], choiceDelta [fragmentEntry 1 "ne\":7\x7d"]]
  resp := .obj [("choices", .arr [.obj [("message", .obj [("tool_calls", .arr
    [callEntry 0 "call_1" "file.list" "\x7b\x7d",
      callEntry 1 "call_2" "file.cat" "\x7b\"line\":7\x7d"])])]])]
  response := ⟨"", [⟨"call_1", "file.list", emptyObject⟩,
    ⟨"call_2", "file.cat", .obj [("line", .num (.int 7))]⟩], .stop, none⟩
  stream := by
    have hlist := OpenAiStream.nil.start ⟨some "call_1", "file.list", some "\x7b\x7d"⟩
      (callEntry 0 "call_1" "file.list" "") _ rfl rfl rfl
    have hbegun := hlist.start ⟨some "call_2", "file.cat", some "\x7b\"line\":7\x7d"⟩
      (callEntry 1 "call_2" "file.cat" "\x7b\"li") _ rfl rfl rfl
    have hfirst := hbegun.fragment 0 _ (fragmentEntry 0 "\x7b\x7d") _ rfl (by
      rintro (_ | _ | j) q hj hq <;> simp at hj hq
      subst hq
      exact Nat.one_ne_zero) rfl rfl rfl
    have hsecond := hfirst.fragment 1 _ (fragmentEntry 1 "ne\":7\x7d") _ rfl (by
      rintro (_ | _ | j) q hj hq <;> simp [List.modify] at hj hq) rfl rfl rfl
    exact hsecond
  texts := by
    intro p hp
    rcases List.mem_cons.mp hp with rfl | hp
    · rfl
    · rw [List.mem_singleton.mp hp]
      rfl
  complete := .cons ⟨rfl, _, rfl, rfl, rfl⟩ (.cons ⟨rfl, _, rfl, rfl, rfl⟩ .nil)
  decoded := rfl

def callBlock (id name : String) (input : List (String × Json)) : Json :=
  .obj [("type", .str "tool_use"), ("id", .str id), ("name", .str name), ("input", .obj input)]

def blockStart (block : Json) : Json :=
  .obj [("type", .str "content_block_start"), ("content_block", block)]

def inputDelta (partial_json : String) : Json :=
  .obj [("type", .str "content_block_delta"),
    ("delta", .obj [("type", .str "input_json_delta"), ("partial_json", .str partial_json)])]

/-- The same calls from the Anthropic API. The first has a fragment for its input, the second
two. -/
def anthropicTwoCalls : AnthropicExchange (fun _ => none) parseArguments where
  calls :=
    [⟨⟨some "toolu_1", some "file.list", some (.obj [])⟩, "\x7b\x7d"⟩,
      ⟨⟨some "toolu_2", some "file.cat", some (.obj [("line", .num (.int 7))])⟩,
        "\x7b\"line\":7\x7d"⟩]
  events :=
    [blockStart (callBlock "toolu_1" "file.list" []), inputDelta "\x7b\x7d",
      .obj [("type", .str "content_block_stop")],
      blockStart (callBlock "toolu_2" "file.cat" []), inputDelta "\x7b\"li",
      inputDelta "ne\":7\x7d"]
  resp := .obj [("content", .arr [callBlock "toolu_1" "file.list" [],
    callBlock "toolu_2" "file.cat" [("line", .num (.int 7))]])]
  response := ⟨"", [⟨"toolu_1", "file.list", emptyObject⟩,
    ⟨"toolu_2", "file.cat", .obj [("line", .num (.int 7))]⟩], .stop, none⟩
  stream := by
    have hlist := AnthropicStream.nil.start ⟨some "toolu_1", some "file.list", some (.obj [])⟩
      (blockStart (callBlock "toolu_1" "file.list" [])) _ rfl rfl rfl rfl
    have hfirst := hlist.fragment (inputDelta "\x7b\x7d") _ rfl rfl
    have hstop := hfirst.other (.obj [("type", .str "content_block_stop")]) nofun nofun
    have hsecond := hstop.start ⟨some "toolu_2", some "file.cat",
      some (.obj [("line", .num (.int 7))])⟩ (blockStart (callBlock "toolu_2" "file.cat" [])) _
      rfl rfl rfl rfl
    exact (hsecond.fragment (inputDelta "\x7b\"li") _ rfl rfl).fragment (inputDelta "ne\":7\x7d") _
      rfl rfl
  texts := by
    intro p hp
    rcases List.mem_cons.mp hp with rfl | hp
    · exact .inl rfl
    · rw [List.mem_singleton.mp hp]
      exact .inl rfl
  complete := .cons ⟨rfl, rfl, rfl⟩ (.cons ⟨rfl, rfl, rfl⟩ .nil)
  decoded := rfl

def functionCallPart (name : String) (args : Json) : Json :=
  .obj [("functionCall", .obj [("name", .str name), ("args", args)])]

def candidate (parts : List Json) : Json :=
  .obj [("candidates", .arr [.obj [("content", .obj [("parts", .arr parts)])]])]

/-- The same calls from the Vertex API, each in an event of its own. -/
def vertexTwoCalls : VertexExchange toString where
  events := [candidate [functionCallPart "file.list" emptyObject],
    candidate [functionCallPart "file.cat" (.obj [("line", .num (.int 7))])]]
  resp := candidate [functionCallPart "file.list" emptyObject,
    functionCallPart "file.cat" (.obj [("line", .num (.int 7))])]
  response := ⟨"", [⟨"0", "file.list", emptyObject⟩,
    ⟨"1", "file.cat", .obj [("line", .num (.int 7))]⟩], .toolUse, none⟩
  sameCalls := rfl
  decoded := rfl

/-- Prints the arguments of the calls. -/
def printArguments (args : Json) : String :=
  if args = emptyObject then "\x7b\x7d" else "\x7b\"line\":7\x7d"

theorem providers_sameCalls_iff_twoCalls :
    openAiTwoCalls.SameCalls ∧ anthropicTwoCalls.SameCalls ∧
    vertexTwoCalls.SameCalls printArguments parseArguments := by
  have hempty : parseArguments "" = none := rfl
  obtain ⟨hopenAi, hanthropic, hvertex⟩ :=
    providers_sameCalls_iff hempty openAiTwoCalls anthropicTwoCalls vertexTwoCalls
  refine ⟨hopenAi.mpr ⟨by simp [openAiTwoCalls], ?_⟩,
    hanthropic.mpr ⟨by simp [anthropicTwoCalls], by simp [anthropicTwoCalls]⟩,
    hvertex.mpr ⟨?_, ?_⟩⟩
  · simp [openAiTwoCalls, parseArguments]
  · have hids : vertexTwoCalls.calls.map Prod.fst = ["0", "1"] := rfl
    simp [hids]
  · intro call hcall
    have hcalls : vertexTwoCalls.calls.map Prod.snd =
        [.obj [("name", .str "file.list"), ("args", emptyObject)],
          .obj [("name", .str "file.cat"), ("args", .obj [("line", .num (.int 7))])]] := rfl
    have hmem : call.2 ∈ vertexTwoCalls.calls.map Prod.snd := List.mem_map_of_mem hcall
    rw [hcalls] at hmem
    simp only [List.mem_cons, List.not_mem_nil, or_false] at hmem
    rcases hmem with heq | heq <;> rw [heq] <;> exact ⟨_, rfl, rfl⟩

/-! ### Calls without arguments -/

/-- What a JSON parser makes of the text of an empty object. -/
def parseEmptyObject (text : String) : Option Json :=
  if text = "\x7b\x7d" then some emptyObject else none

/-- An OpenAI call of `file.list`, with its arguments if there are any. -/
def fileList (arguments : List (String × Json)) : Json :=
  .obj [("id", .str "call_1"), ("function", .obj (("name", .str "file.list") :: arguments))]

/-- The two responses of an OpenAI-compatible server that call `file.list`. -/
def openAiResponses (arguments : List (String × Json)) : Json × Json :=
  let calls := ("tool_calls", Json.arr [fileList arguments])
  (.obj [("choices", .arr [.obj [("delta", .obj [calls])]])],
    .obj [("choices", .arr [.obj [("message", .obj [calls])]])])

/-- A call without arguments. -/
def openAiNoArguments : OpenAiExchange (fun _ => none) parseEmptyObject where
  calls := [⟨0, ⟨some "call_1", "file.list", none⟩, ""⟩]
  events := [(openAiResponses []).1]
  resp := (openAiResponses []).2
  response := ⟨"", [⟨"call_1", "file.list", emptyObject⟩], .stop, none⟩
  stream := .start _ (fileList []) _ .nil rfl rfl rfl
  texts := by
    intro p hp
    rw [List.mem_singleton.mp hp]
    rfl
  complete := .cons ⟨rfl, _, rfl, rfl, rfl⟩ .nil
  decoded := rfl

/-- The `tool_use` block of a call without arguments. -/
def fileListBlock : Json :=
  .obj [("type", .str "tool_use"), ("id", .str "toolu_1"), ("name", .str "file.list"),
    ("input", .obj [])]

/-- A response of the Anthropic API with that block; its input has no fragments. -/
def anthropicNoArguments : AnthropicExchange (fun _ => none) parseEmptyObject where
  calls := [⟨⟨some "toolu_1", some "file.list", some (.obj [])⟩, ""⟩]
  events :=
    [.obj [("type", .str "content_block_start"), ("content_block", fileListBlock)],
     .obj [("type", .str "content_block_stop")]]
  resp := .obj [("content", .arr [fileListBlock])]
  response := ⟨"", [⟨"toolu_1", "file.list", emptyObject⟩], .stop, none⟩
  stream := by
    refine @AnthropicStream.other _ [_] _
      (@AnthropicStream.start [] [] _ _ fileListBlock .nil rfl rfl rfl rfl) ?_ ?_
    · intro block hblock
      cases hblock
    · intro delta hdelta
      cases hdelta
  texts := by
    intro p hp
    rw [List.mem_singleton.mp hp]
    exact .inr ⟨rfl, rfl⟩
  complete := .cons ⟨rfl, rfl, rfl⟩ .nil
  decoded := rfl

/-- A response of the Vertex API that calls `file.list`, with its arguments if there are any. -/
def vertexResponse (args : List (String × Json)) : Json :=
  .obj [("candidates", .arr [.obj [("content", .obj [("parts", .arr
    [.obj [("functionCall", .obj (("name", .str "file.list") :: args))]])])]])]

/-- A function call without `args`. -/
def vertexNoArguments : VertexExchange toString where
  events := [vertexResponse []]
  resp := vertexResponse []
  response := ⟨"", [⟨"0", "file.list", emptyObject⟩], .toolUse, none⟩
  sameCalls := rfl
  decoded := rfl

/-- None of the three streams makes the call that the complete response has. -/
theorem not_sameCalls_noArguments :
    ¬ openAiNoArguments.SameCalls ∧ ¬ anthropicNoArguments.SameCalls ∧
    ¬ vertexNoArguments.SameCalls (fun _ => "\x7b\x7d") parseEmptyObject := by
  refine ⟨?_, ?_, ?_⟩
  · simp only [OpenAiExchange.SameCalls]
    decide +kernel
  · simp only [AnthropicExchange.SameCalls]
    decide +kernel
  · simp only [VertexExchange.SameCalls]
    decide +kernel

end Arbeiterfarm.Llm
