import Arbeiterfarm.Llm.Stream
import Mathlib.Data.Int.Notation
import Mathlib.Algebra.BigOperators.Group.List.Basic
import Mathlib.Algebra.GroupWithZero.Nat

/-!
# LLM token quota

Before a call the loop reserves an estimate on the user's row of the day, and every usage chunk
is meant to replace the estimate by the actual counts. The estimate is subtracted once for each
chunk and once more when the stream fails, so the balance is right only for the streams that
release it exactly once.
-/

namespace Arbeiterfarm.Agents

open Llm

/-! ### The row of the day -/

/-- The token counters of a user for one day; they start at zero and are clamped there. -/
structure UsageDaily where
  llm_prompt_tokens : ℕ := 0
  llm_completion_tokens : ℕ := 0
  deriving DecidableEq, Repr

def UsageDaily.total (row : UsageDaily) : ℕ := row.llm_prompt_tokens + row.llm_completion_tokens

def UsageDaily.addPrompt (row : UsageDaily) (tokens : ℕ) : UsageDaily :=
  { row with llm_prompt_tokens := row.llm_prompt_tokens + tokens }

/-- The estimate is added if the user stays under the quota, by default the largest `i64`. -/
def reserveLlmTokens (max_llm_tokens_per_day : Option ℤ) (estimated_tokens : ℕ)
    (row : UsageDaily) : UsageDaily × Bool :=
  if (row.total : ℤ) + estimated_tokens ≤ max_llm_tokens_per_day.getD 9223372036854775807 then
    (row.addPrompt estimated_tokens, true)
  else (row, false)

def adjustLlmTokens (prompt_delta : ℤ) (completion_tokens : ℕ) (row : UsageDaily) : UsageDaily where
  llm_prompt_tokens := (row.llm_prompt_tokens + prompt_delta).toNat
  llm_completion_tokens := row.llm_completion_tokens + completion_tokens

/-! ### One call -/

/-- What the call is made with. -/
structure CallConfig where
  max_llm_tokens_per_day : Option ℤ
  /-- The largest number of output tokens of the backend. -/
  max_output : ℕ

/-- The update for a usage chunk. -/
def onUsage (estimated_tokens : ℕ) (row : UsageDaily) (usage : UsageInfo) : UsageDaily :=
  adjustLlmTokens (usage.prompt_tokens - estimated_tokens) usage.completion_tokens row

def adjustOnChunk (estimated_tokens : ℕ) (row : Option UsageDaily) :
    StreamChunk → Option UsageDaily
  | .usage usage => row.map (onUsage estimated_tokens · usage)
  | _            => row

/-- The receiving loop, with the row of the user if there is one. -/
def receive (estimated_tokens : ℕ) :
    Option UsageDaily × Collected → List (Except LlmError StreamChunk) →
      Option UsageDaily × Collected
  | st, [] => st
  | (row, c), .ok chunk :: chunks =>
    receive estimated_tokens (adjustOnChunk estimated_tokens row chunk, c.onChunk chunk) chunks
  | (row, c), .error e :: _ => (row, { c with stream_error := some e })

inductive CallResult where
  | quotaExceeded
  | failed (e : LlmError)
  | panicked
  | response (c : Collected)
  deriving DecidableEq, Repr

/-- Receive the stream and wait for the producer. -/
def stream (estimated_tokens : ℕ) (s : Stream) (row : Option UsageDaily) :
    Option UsageDaily × CallResult :=
  let (row, c) := receive estimated_tokens (row, {}) s.chunks
  match s.producer with
  | .panicked => (row, .panicked)
  | .error e  => (row.map (adjustLlmTokens (-estimated_tokens) 0), .failed (c.stream_error.getD e))
  | .ok =>
    match c.stream_error with
    | some e => (row.map (adjustLlmTokens (-estimated_tokens) 0), .failed e)
    | none   => (row, .response c)

/-- One LLM call of the loop. When the reservation query fails (`dbFails`), the call goes on
without a reservation. -/
def llmCall (cfg : CallConfig) (dbFails : Bool) (s : Stream) (row : Option UsageDaily) :
    Option UsageDaily × CallResult :=
  match row with
  | none => stream cfg.max_output s none
  | some r =>
    if dbFails then stream cfg.max_output s (some r)
    else
      match reserveLlmTokens cfg.max_llm_tokens_per_day cfg.max_output r with
      | (r, true)  => stream cfg.max_output s (some r)
      | (r, false) => (some r, .quotaExceeded)

/-! ### The updates of a stream -/

/-- The updates that subtract the estimate: one for each usage chunk, and one that reports
nothing when the stream fails. -/
def releases (s : Stream) : List UsageInfo :=
  s.reports ++ if s.failed then [({} : UsageInfo)] else []

def promptSum (us : List UsageInfo) : ℕ := (us.map (·.prompt_tokens)).sum

def completionSum (us : List UsageInfo) : ℕ := (us.map (·.completion_tokens)).sum

/-- The tokens that are reported for the call. -/
def reported (s : Stream) : ℕ := promptSum s.reports + completionSum s.reports

@[simp] lemma promptSum_nil : promptSum [] = 0 := rfl

@[simp] lemma promptSum_cons (u : UsageInfo) (us : List UsageInfo) :
    promptSum (u :: us) = u.prompt_tokens + promptSum us := by simp [promptSum]

@[simp] lemma completionSum_cons (u : UsageInfo) (us : List UsageInfo) :
    completionSum (u :: us) = u.completion_tokens + completionSum us := by simp [completionSum]

lemma promptSum_releases (s : Stream) : promptSum (releases s) = promptSum s.reports := by
  simp only [releases, promptSum]
  split_ifs <;> simp

lemma completionSum_releases (s : Stream) :
    completionSum (releases s) = completionSum s.reports := by
  simp only [releases, completionSum]
  split_ifs <;> simp

lemma length_releases (s : Stream) :
    (releases s).length = s.reports.length + if s.failed then 1 else 0 := by
  simp only [releases]
  split_ifs <;> simp

lemma receive_eq (E : ℕ) (row : Option UsageDaily) (c : Collected)
    (chunks : List (Except LlmError StreamChunk)) (hc : c.stream_error = none) :
    (receive E (row, c) chunks).1 =
        row.map (((received chunks).filterMap usage?).foldl (onUsage E)) ∧
      (receive E (row, c) chunks).2.stream_error = channelError chunks := by
  induction chunks generalizing row c with
  | nil => simp [receive, received, channelError, hc]
  | cons chunk chunks ih =>
    cases chunk with
    | error e => simp [receive, received, channelError]
    | ok chunk =>
      have hc' : (c.onChunk chunk).stream_error = none := by
        cases chunk <;> exact hc
      obtain ⟨hrow, herr⟩ := ih (adjustOnChunk E row chunk) _ hc'
      refine ⟨hrow.trans ?_, herr⟩
      cases chunk <;> cases row <;> rfl

/-- The row after a stream is the row before it, with the updates of the stream in order. -/
lemma stream_fst (E : ℕ) (s : Stream) (row : UsageDaily) :
    (stream E s (some row)).1 = some ((releases s).foldl (onUsage E) row) := by
  obtain ⟨hrow, herr⟩ := receive_eq E (some row) {} s.chunks rfl
  have hrelease (row : UsageDaily) : adjustLlmTokens (-E) 0 row = onUsage E row {} := by
    simp [onUsage]
  simp only [stream, releases]
  cases hp : s.producer with
  | panicked => simp [hp, hrow, Stream.failed, Stream.reports]
  | error e => simp [hp, hrow, Stream.failed, Stream.reports, hrelease]
  | ok =>
    simp only [herr]
    cases hch : channelError s.chunks with
    | none => simp [hp, hch, hrow, Stream.failed, Stream.reports]
    | some e => simp [hp, hch, hrow, Stream.failed, Stream.reports, hrelease]

/-! ### The balance -/

section Balance

variable {E : ℕ} (row : UsageDaily) (u : UsageInfo) (us : List UsageInfo)

lemma onUsage_prompt : (onUsage E row u).llm_prompt_tokens =
    row.llm_prompt_tokens + u.prompt_tokens - E := by
  simp only [onUsage, adjustLlmTokens]
  omega

lemma foldl_completion : (us.foldl (onUsage E) row).llm_completion_tokens =
    row.llm_completion_tokens + completionSum us := by
  induction us generalizing row with
  | nil => rfl
  | cons u us ih =>
    rw [List.foldl_cons, ih, completionSum_cons]
    simp [onUsage, adjustLlmTokens, Nat.add_assoc]

/-- Once the reservation is gone, every further update takes the estimate from what the row
counts. -/
lemma foldl_prompt_le {n : ℕ} (hrow : row.llm_prompt_tokens ≤ n) (hus : us ≠ []) :
    (us.foldl (onUsage E) row).llm_prompt_tokens ≤ n + promptSum us - E := by
  induction us generalizing row n with
  | nil => exact absurd rfl hus
  | cons u us ih =>
    have hstep := onUsage_prompt (E := E) row u
    rw [List.foldl_cons, promptSum_cons]
    cases us with
    | nil =>
      simp only [List.foldl_nil, promptSum_nil]
      omega
    | cons v us =>
      have := ih (onUsage E row u) (n := n + u.prompt_tokens) (by omega) (by simp)
      omega

lemma foldl_prompt_zero : (us.foldl (onUsage 0) row).llm_prompt_tokens =
    row.llm_prompt_tokens + promptSum us := by
  induction us generalizing row with
  | nil => rfl
  | cons u us ih =>
    rw [List.foldl_cons, ih, onUsage_prompt, promptSum_cons]
    omega

/-- Without a reservation, the prompt tokens are right only if nothing is subtracted. -/
lemma foldl_prompt_eq_iff : (us.foldl (onUsage E) row).llm_prompt_tokens =
      row.llm_prompt_tokens + promptSum us ↔
    E = 0 ∨ us = [] ∨ row.llm_prompt_tokens + promptSum us = 0 := by
  rcases Nat.eq_zero_or_pos E with rfl | hE
  · simp [foldl_prompt_zero]
  · by_cases hus : us = []
    · simp [hus]
    · have := foldl_prompt_le (E := E) row us (Nat.le_refl _) hus
      simp only [Nat.ne_of_gt hE, hus, false_or]
      omega

/-- With a reservation, the first update releases it. -/
lemma foldl_reserved_prompt_eq_iff :
    (us.foldl (onUsage E) (row.addPrompt E)).llm_prompt_tokens =
        row.llm_prompt_tokens + promptSum us ↔
      E = 0 ∨ us.length = 1 ∨ 1 < us.length ∧ row.llm_prompt_tokens + promptSum us = 0 := by
  cases us with
  | nil => simp [UsageDaily.addPrompt]
  | cons u us =>
    have hfirst : (onUsage E (row.addPrompt E) u).llm_prompt_tokens =
        row.llm_prompt_tokens + u.prompt_tokens := by
      simp only [onUsage_prompt, UsageDaily.addPrompt]
      omega
    have hrest := foldl_prompt_eq_iff (E := E) (onUsage E (row.addPrompt E) u) us
    rw [hfirst] at hrest
    rw [List.foldl_cons, promptSum_cons, ← Nat.add_assoc, hrest, List.length_cons,
      ← List.length_eq_zero_iff]
    omega

end Balance

/-! ### Accounting of a call -/

/-- How often the stream subtracts the estimate. -/
def releaseCount (s : Stream) : ℕ := s.reports.length + if s.failed then 1 else 0

/-- The call changes the row by the tokens that are reported for it. -/
def Accounted (s : Stream) (before after : UsageDaily) : Prop :=
  (after.total : ℤ) - before.total = reported s

instance (s : Stream) (before after : UsageDaily) : Decidable (Accounted s before after) :=
  inferInstanceAs (Decidable ((after.total : ℤ) - before.total = reported s))

lemma accounted_foldl (s : Stream) (E : ℕ) (row row' : UsageDaily)
    (hc : row'.llm_completion_tokens = row.llm_completion_tokens) :
    Accounted s row ((releases s).foldl (onUsage E) row') ↔
      ((releases s).foldl (onUsage E) row').llm_prompt_tokens =
        row.llm_prompt_tokens + promptSum (releases s) := by
  have hcompletion := foldl_completion (E := E) row' (releases s)
  rw [completionSum_releases, hc] at hcompletion
  rw [promptSum_releases]
  simp only [Accounted, UsageDaily.total, reported]
  omega

/-- The row is right exactly when the estimate is subtracted as often as it was added, when it
is zero, or when nothing is left on the row to be lost. -/
theorem accounted_iff_releasedOnce (cfg : CallConfig) (dbFails : Bool) (s : Stream)
    (row after : UsageDaily) (result : CallResult)
    (h : llmCall cfg dbFails s (some row) = (some after, result))
    (hmade : result ≠ .quotaExceeded) :
    Accounted s row after ↔
      cfg.max_output = 0 ∨ releaseCount s = (if dbFails then 0 else 1) ∨
        (if dbFails then 0 else 1) < releaseCount s ∧
          row.llm_prompt_tokens + promptSum s.reports = 0 := by
  rw [releaseCount, ← length_releases, ← promptSum_releases]
  have hstream := stream_fst cfg.max_output s
  cases dbFails with
  | true =>
    have hafter := hstream row
    simp only [llmCall, if_true] at h
    rw [h] at hafter
    cases hafter
    rw [accounted_foldl s _ row row rfl, foldl_prompt_eq_iff]
    simp only [if_true, ← List.length_eq_zero_iff]
    omega
  | false =>
    simp only [llmCall, Bool.false_eq_true, if_false, reserveLlmTokens] at h ⊢
    split_ifs at h with hquota
    · have hafter := hstream (row.addPrompt cfg.max_output)
      simp only at h
      rw [h] at hafter
      cases hafter
      exact (accounted_foldl s _ row (row.addPrompt _) rfl).trans
        (foldl_reserved_prompt_eq_iff row _)
    · cases h
      exact absurd rfl hmade

/-- One usage chunk at the end of the stream, as the OpenAI adapter sends it. -/
def usageAtEnd : Stream where
  chunks := [.ok (.token "ok"), .ok (.done .stop), .ok (.usage ⟨1200, 30, 0, 0⟩)]

theorem accounted_usageAtEnd :
    Accounted usageAtEnd ⟨500, 20⟩ ⟨1700, 50⟩ :=
  (accounted_iff_releasedOnce ⟨some 100000, 8192⟩ false usageAtEnd ⟨500, 20⟩ ⟨1700, 50⟩
    (.response ⟨"ok", [], ⟨1200, 30, 0, 0⟩, none⟩) (by decide) (by decide)).mpr
    (.inr (.inl (by decide)))

/-- Prompt and completion tokens in two chunks, as the Anthropic adapter sends them. -/
def usageInTwoChunks : Stream where
  chunks := [.ok (.usage ⟨1200, 0, 0, 0⟩), .ok (.token "ok"), .ok (.done .stop),
    .ok (.usage ⟨0, 30, 0, 0⟩)]

/-- The second chunk releases the estimate again: 1230 tokens are reported, and the row of the
day loses more than it had gained. -/
theorem not_accounted_usageInTwoChunks :
    llmCall ⟨some 100000, 8192⟩ false usageInTwoChunks (some ⟨20000, 20⟩) =
        (some ⟨13008, 50⟩, .response ⟨"ok", [], ⟨1200, 30, 0, 0⟩, none⟩) ∧
      ¬ Accounted usageInTwoChunks ⟨20000, 20⟩ ⟨13008, 50⟩ :=
  ⟨by decide, by decide⟩

end Arbeiterfarm.Agents
