import Arbeiterfarm.Agents.Compaction

/-!
# Tool-call groups and requests

What a cut of the message list must respect, by the index of the messages: a group is a message
with tool calls and the run of tool messages that directly follows it, and a request is a
message that a user wrote.
-/

namespace Arbeiterfarm.Agents

variable {messages : List ChatMessage}

/-! ### Groups -/

def IsTool (messages : List ChatMessage) (i : ℕ) : Prop :=
  ∃ m, messages[i]? = some m ∧ m.role = .tool

def IsToolCall (messages : List ChatMessage) (j : ℕ) : Prop :=
  ∃ m, messages[j]? = some m ∧ m.role = .assistant ∧ m.tool_calls ≠ []

/-- The tool message `i` belongs to the run that directly follows the calls of `j`. -/
structure Answers (messages : List ChatMessage) (i j : ℕ) : Prop where
  lt : j < i
  call : IsToolCall messages j
  tool : ∀ k, j < k → k ≤ i → IsTool messages k

/-- Each run of tool messages directly follows the message whose calls it answers. -/
def Grouped (messages : List ChatMessage) : Prop :=
  ∀ i, IsTool messages i → ∃ j, Answers messages i j

/-! ### Requests -/

def IsRealUser (messages : List ChatMessage) (i : ℕ) : Prop :=
  ∃ m, messages[i]? = some m ∧ isRealUser m

/-- The last message that a user wrote. -/
structure LastRealUser (messages : List ChatMessage) (u : ℕ) : Prop where
  real : IsRealUser messages u
  last : ∀ k, IsRealUser messages k → k ≤ u

lemma exists_lastRealUser {u : ℕ} (h : IsRealUser messages u) :
    ∃ v, LastRealUser messages v ∧ u ≤ v := by
  obtain ⟨m, hm, hreal⟩ := h
  cases hlast : rposition isRealUser messages with
  | none =>
    rw [rposition, Option.map_eq_none_iff, List.findIdx?_eq_none_iff] at hlast
    rw [hlast m (List.mem_reverse.mpr (List.mem_of_getElem? hm))] at hreal
    cases hreal
  | some v =>
    obtain ⟨hv, hmax⟩ := rposition_eq_some hlast
    refine ⟨v, ⟨hv, ?_⟩, hmax u m hm hreal⟩
    rintro k ⟨m', hm', hreal'⟩
    exact hmax k m' hm' hreal'

lemma IsRealUser.isUser {u : ℕ} (h : IsRealUser messages u) :
    ∃ m, messages[u]? = some m ∧ m.role = .user := by
  obtain ⟨m, hm, hreal⟩ := h
  simp only [isRealUser, Bool.and_eq_true, decide_eq_true_eq] at hreal
  exact ⟨m, hm, hreal.1⟩

lemma IsRealUser.not_isTool {u : ℕ} (h : IsRealUser messages u) : ¬ IsTool messages u := by
  obtain ⟨m, hm, hrole⟩ := h.isUser
  rintro ⟨m', hm', hrole'⟩
  rw [hm] at hm'
  cases hm'
  rw [hrole] at hrole'
  cases hrole'

/-- A group has no request in it. -/
lemma Answers.lt_of_isRealUser {i j u : ℕ} (h : Answers messages i j)
    (hu : IsRealUser messages u) (hj : j < u) : i < u := by
  by_contra hi
  exact hu.not_isTool (h.tool u hj (by omega))

end Arbeiterfarm.Agents
