import Arbeiterfarm.Llm.AnthropicStream
import Arbeiterfarm.Llm.Vertex

/-!
# The stream readers and the network chunks

A reader emits the same chunks however the network divides the response, as long as no cut lies
inside a character and the response ends in a newline; or rather, as long as the line after the
last newline is silent. A character that is cut is decoded in two pieces, into replacement
characters, and an event without a newline at its end is never handled.
-/

namespace Arbeiterfarm.Llm

open Foundation

section

variable (parseJson : String → Option Json) (printJson : Json → String) (freshId : ℕ → String)

/-- When no cut lies inside a character, each of the three readers is independent of the network
chunks exactly when the line that no newline has ended is silent. -/
theorem readers_chunkingIndependent_iff (name_map : NameMap) {chunks : List (List UInt8)}
    (hclean : Utf8.CutsClean chunks) :
    ((openAiHandler parseJson name_map).ChunkingIndependent chunks ↔
      (openAiHandler parseJson name_map).LastLineSilent chunks.flatten) ∧
    ((anthropicHandler parseJson name_map).ChunkingIndependent chunks ↔
      (anthropicHandler parseJson name_map).LastLineSilent chunks.flatten) ∧
    ((vertexHandler printJson freshId parseJson).ChunkingIndependent chunks ↔
      (vertexHandler printJson freshId parseJson).LastLineSilent chunks.flatten) := by
  refine ⟨?_, ?_, ?_⟩
  · exact SseHandler.chunkingIndependent_iff _ hclean
  · exact SseHandler.chunkingIndependent_iff _ hclean
  · exact SseHandler.chunkingIndependent_iff _ hclean

end

/-! ### A character that is cut, and a newline that is missing -/

/-- The event of a text delta. -/
def textDelta (text : String) : Json :=
  .obj [("type", .str "content_block_delta"),
        ("delta", .obj [("type", .str "text_delta"), ("text", .str text)])]

/-- The text of that event. -/
def textDeltaJson (text : String) : String :=
  "\x7b\"type\":\"content_block_delta\",\"delta\":\x7b\"type\":\"text_delta\",\"text\":\"" ++
    text ++ "\"\x7d\x7d"

/-- What a JSON parser makes of three of these texts. -/
def parseTextDelta (s : String) : Option Json :=
  (["é", "\uFFFD\uFFFD", "hi"].find? fun text => s = textDeltaJson text).map textDelta

/-- The bytes of a `data: ` line without its newline. -/
def dataLine (text : String) : List UInt8 := ("data: " ++ textDeltaJson text).toUTF8.toList

/-- A response of one event, cut after the word `data`. -/
def cutResponse : List (List UInt8) := [(dataLine "é").take 4, (dataLine "é").drop 4 ++ [10]]

theorem readers_chunkingIndependent_iff_cut :
    ((openAiHandler parseTextDelta fun _ => none).ChunkingIndependent cutResponse ↔
      (openAiHandler parseTextDelta fun _ => none).LastLineSilent cutResponse.flatten) ∧
    ((anthropicHandler parseTextDelta fun _ => none).ChunkingIndependent cutResponse ↔
      (anthropicHandler parseTextDelta fun _ => none).LastLineSilent cutResponse.flatten) ∧
    ((vertexHandler (fun _ => "") toString parseTextDelta).ChunkingIndependent cutResponse ↔
      (vertexHandler (fun _ => "") toString parseTextDelta).LastLineSilent cutResponse.flatten) :=
  readers_chunkingIndependent_iff parseTextDelta (fun _ => "") toString (fun _ => none)
    (by decide +kernel)

/-- A cut inside the two bytes of `é` makes two replacement characters of it, and an event that
ends without a newline is lost. -/
theorem not_chunkingIndependent :
    ¬ (anthropicHandler parseTextDelta fun _ => none).ChunkingIndependent
      [(dataLine "é").take 74, (dataLine "é").drop 74 ++ [10]] ∧
    ¬ (anthropicHandler parseTextDelta fun _ => none).ChunkingIndependent [dataLine "hi"] := by
  constructor
  · simp only [SseHandler.ChunkingIndependent]
    decide +kernel
  · simp only [SseHandler.ChunkingIndependent]
    decide +kernel

end Arbeiterfarm.Llm
