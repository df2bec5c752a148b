import Mathlib.Data.Nat.Notation
import Mathlib.Data.List.Basic

/-!
# Streaming responses

The chunks of a streamed completion, and the receiving loop that collects them. What the
provider adapters send is any list of chunks, with an error as soon as the stream breaks.
-/

namespace Arbeiterfarm.Llm

inductive LlmError where
  | http (message : String)
  | jsonParse (message : String)
  | api (status : ℕ) (message : String)
  | noBackend
  | backendNotFound (name : String)
  | streamingNotSupported
  | other (message : String)
  deriving DecidableEq, Repr

inductive FinishReason where
  | stop | toolUse | length
  | unknown (reason : String)
  deriving DecidableEq, Repr

structure UsageInfo where
  prompt_tokens : ℕ := 0
  completion_tokens : ℕ := 0
  cached_read_tokens : ℕ := 0
  cache_creation_tokens : ℕ := 0
  deriving DecidableEq, Repr

def UsageInfo.merge (u v : UsageInfo) : UsageInfo where
  prompt_tokens := u.prompt_tokens + v.prompt_tokens
  completion_tokens := u.completion_tokens + v.completion_tokens
  cached_read_tokens := u.cached_read_tokens + v.cached_read_tokens
  cache_creation_tokens := u.cache_creation_tokens + v.cache_creation_tokens

inductive StreamChunk where
  | token (text : String)
  | reasoning (text : String)
  | toolCallStart (id name : String)
  | toolCallDelta (id arguments_delta : String)
  | done (reason : FinishReason)
  | usage (usage : UsageInfo)
  deriving DecidableEq, Repr

/-- A tool call as it is streamed, with the arguments as raw text. -/
structure StreamedCall where
  id : String
  name : String
  args : String := ""
  deriving DecidableEq, Repr

/-- What the receiving loop has collected. -/
structure Collected where
  full_text : String := ""
  tool_calls : List StreamedCall := []
  accumulated_usage : UsageInfo := {}
  stream_error : Option LlmError := none
  deriving DecidableEq, Repr

def StreamedCall.pushArgs (delta : String) (tc : StreamedCall) : StreamedCall :=
  { tc with args := tc.args ++ delta }

/-- Append to the call with this id, or to the last call if the id is unknown. -/
def appendDelta (id delta : String) (calls : List StreamedCall) : List StreamedCall :=
  match calls.findIdx? fun tc => tc.id = id with
  | some i => calls.modify i (.pushArgs delta)
  | none   => calls.modify (calls.length - 1) (.pushArgs delta)

def Collected.onChunk (c : Collected) : StreamChunk → Collected
  | .token text             => { c with full_text := c.full_text ++ text }
  | .toolCallStart id name  => { c with tool_calls := c.tool_calls ++ [⟨id, name, ""⟩] }
  | .toolCallDelta id delta => { c with tool_calls := appendDelta id delta c.tool_calls }
  | .usage usage            => { c with accumulated_usage := c.accumulated_usage.merge usage }
  | .reasoning _            => c
  | .done _                 => c

/-- How the producer task ended. -/
inductive ProducerEnd where
  | ok
  | error (e : LlmError)
  | panicked
  deriving DecidableEq, Repr

/-- A streamed completion: what arrives on the channel, and how the producer ends. -/
structure Stream where
  chunks : List (Except LlmError StreamChunk)
  producer : ProducerEnd := .ok

/-- The chunks that are received; the loop stops at the first error. -/
def received : List (Except LlmError StreamChunk) → List StreamChunk
  | .ok chunk :: chunks => chunk :: received chunks
  | _                   => []

/-- The error that stops the receiving loop. -/
def channelError : List (Except LlmError StreamChunk) → Option LlmError
  | .ok _ :: chunks   => channelError chunks
  | .error e :: _     => some e
  | []                => none

def usage? : StreamChunk → Option UsageInfo
  | .usage usage => some usage
  | _            => none

/-- The usage that the provider reports before the stream ends. -/
def Stream.reports (s : Stream) : List UsageInfo := (received s.chunks).filterMap usage?

/-- The stream fails: an error arrives, or the producer returns one. -/
def Stream.failed (s : Stream) : Bool :=
  s.producer != .panicked && ((channelError s.chunks).isSome || s.producer != .ok)

end Arbeiterfarm.Llm
