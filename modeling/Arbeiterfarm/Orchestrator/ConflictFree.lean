import Arbeiterfarm.Orchestrator.SignalOrder

/-!
# Signals without conflicts

Resolving conflicts only drops signals: of two signals with one target and kind the later one, and a
skip of an agent that is requested. What is left has no conflict, so that resolving it again changes
nothing, and no target of a signal is forgotten.
-/

namespace Arbeiterfarm.Orchestrator

/-- Of two signals with one key the later one is dropped. -/
def addFirst (result : List AgentSignal) (sig : AgentSignal) : List AgentSignal :=
  if result.any fun s => s.target_agent = sig.target_agent ∧ s.kind = sig.kind then result
  else result ++ [sig]

lemma firstPerKind_eq_foldl (signals : List AgentSignal) :
    firstPerKind signals = signals.foldl addFirst [] := rfl

lemma foldl_addFirst_sublist {result before : List AgentSignal} (signals : List AgentSignal)
    (h : result.Sublist before) : (signals.foldl addFirst result).Sublist (before ++ signals) := by
  induction signals generalizing result before with
  | nil => rwa [List.append_nil]
  | cons sig signals ih =>
    rw [List.foldl_cons, List.append_cons]
    apply ih
    rw [addFirst]
    split_ifs with hseen
    · exact h.trans (List.sublist_append_left before [sig])
    · exact h.append (List.Sublist.refl [sig])

/-- Signals with distinct keys are all kept. -/
lemma foldl_addFirst_of_nodup {result signals : List AgentSignal}
    (h : ((result ++ signals).map AgentSignal.key).Nodup) :
    signals.foldl addFirst result = result ++ signals := by
  induction signals generalizing result with
  | nil => rw [List.foldl_nil, List.append_nil]
  | cons sig signals ih =>
    have hnew : sig.key ∉ result.map AgentSignal.key := by
      intro hseen
      rw [List.map_append, List.nodup_append] at h
      exact h.2.2 sig.key hseen sig.key (List.mem_map_of_mem List.mem_cons_self) rfl
    rw [List.foldl_cons, addFirst, if_neg fun hseen => hnew (any_key_iff.mp hseen), ih]
    · rw [List.append_assoc, List.singleton_append]
    · rwa [List.append_assoc, List.singleton_append]

lemma firstPerKind_sublist (signals : List AgentSignal) :
    (firstPerKind signals).Sublist signals := by
  rw [firstPerKind_eq_foldl]
  exact foldl_addFirst_sublist signals (List.Sublist.refl [])

lemma firstPerKind_of_nodup {signals : List AgentSignal}
    (h : (signals.map AgentSignal.key).Nodup) : firstPerKind signals = signals := by
  rw [firstPerKind_eq_foldl]
  exact foldl_addFirst_of_nodup h

lemma resolveConflicts_sublist (signals : List AgentSignal) :
    (resolveConflicts signals).Sublist signals :=
  List.filter_sublist.trans (firstPerKind_sublist signals)

/-- No agent is both requested and skipped, and no signal says the same as another. -/
def ConflictFree (signals : List AgentSignal) : Prop :=
  (signals.map AgentSignal.key).Nodup ∧ ∀ target,
    ¬ ((target, .skip) ∈ signals.map AgentSignal.key ∧
      (target, .request) ∈ signals.map AgentSignal.key)

lemma conflictFree_resolveConflicts (signals : List AgentSignal) :
    ConflictFree (resolveConflicts signals) := by
  refine ⟨nodup_keys_resolveConflicts signals, ?_⟩
  rintro target ⟨hskip, hrequest⟩
  obtain ⟨-, hkept⟩ := mem_keys_resolveConflicts.mp hskip
  exact hkept ⟨rfl, (mem_keys_resolveConflicts.mp hrequest).1⟩

lemma resolveConflicts_of_conflictFree {signals : List AgentSignal} (h : ConflictFree signals) :
    resolveConflicts signals = signals := by
  obtain ⟨hnodup, hskips⟩ := h
  simp only [resolveConflicts, firstPerKind_of_nodup hnodup]
  rw [List.filter_eq_self]
  intro s hs
  rw [Bool.not_eq_true', ← Bool.not_eq_true, Bool.and_eq_true, decide_eq_true_eq,
    contains_request_targets]
  rintro ⟨hkind, hrequest⟩
  refine hskips s.target_agent ⟨?_, hrequest⟩
  rw [← hkind]
  exact List.mem_map_of_mem hs

/-- A skip that is dropped leaves the request it lost to. -/
lemma target_kept {signals : List AgentSignal} {s : AgentSignal} (hs : s ∈ signals) :
    ∃ s' ∈ resolveConflicts signals, s'.target_agent = s.target_agent := by
  have htarget (kind : SignalKind)
      (hkey : (s.target_agent, kind) ∈ (resolveConflicts signals).map AgentSignal.key) :
      ∃ s' ∈ resolveConflicts signals, s'.target_agent = s.target_agent := by
    obtain ⟨s', hs', heq⟩ := List.mem_map.mp hkey
    exact ⟨s', hs', congrArg Prod.fst heq⟩
  have hkey : s.key ∈ signals.map AgentSignal.key := List.mem_map_of_mem hs
  by_cases hlost : s.kind = .skip ∧
      (s.target_agent, SignalKind.request) ∈ signals.map AgentSignal.key
  · apply htarget .request
    rw [mem_keys_resolveConflicts]
    exact ⟨hlost.2, fun h => by cases h.1⟩
  · apply htarget s.kind
    rw [mem_keys_resolveConflicts]
    exact ⟨hkey, hlost⟩

/-- Conflict resolution selects signals without conflicts, keeps every target and is done after one
pass. -/
theorem resolveConflicts_conflictFree (signals : List AgentSignal) :
    (resolveConflicts signals).Sublist signals ∧
    ((resolveConflicts signals).map fun s => (s.target_agent, s.kind)).Nodup ∧
    (∀ s ∈ resolveConflicts signals, ∀ s' ∈ resolveConflicts signals,
      s.target_agent = s'.target_agent → ¬ (s.kind = .skip ∧ s'.kind = .request)) ∧
    (∀ s ∈ signals, ∃ s' ∈ resolveConflicts signals, s'.target_agent = s.target_agent) ∧
    resolveConflicts (resolveConflicts signals) = resolveConflicts signals := by
  have hfree := conflictFree_resolveConflicts signals
  refine ⟨resolveConflicts_sublist signals, hfree.1, ?_, fun s hs => target_kept hs,
    resolveConflicts_of_conflictFree hfree⟩
  rintro s hs s' hs' htarget ⟨hskip, hrequest⟩
  apply hfree.2 s.target_agent
  constructor
  · rw [← hskip]
    exact List.mem_map_of_mem hs
  · rw [← hrequest, htarget]
    exact List.mem_map_of_mem hs'

end Arbeiterfarm.Orchestrator
