import Arbeiterfarm.Email.Gmail
import Arbeiterfarm.Llm.AnthropicBody
import Arbeiterfarm.Notify.Webdav

/-!
# Texts that are cut for a log or an error

Three texts of other parties are cut at a fixed number of bytes. Each of the cuts is a panic exactly
if it falls inside a character.
-/

namespace Arbeiterfarm.Texts

open Llm Email Notify

variable {F : Type}

/-- A request, a message id and a URL are worked through without a panic exactly if none of their
texts has a character across the place where it is cut. -/
theorem cut_texts_succeed_iff (model : String) (request : CompletionRequest F) (stream : Bool)
    (id url label : String) :
    ((buildBody model request stream).isSome ↔
      ∀ s ∈ plainContents request, utf8Len s > 80 → IsCharBoundary s 80) ∧
    ((sanitizeMessageId id).isSome ↔ (utf8Len id > 32 → IsCharBoundary id 32)) ∧
    ((requireHttps url label).isSome ↔
      "https://".toList <+: url.toList ∨ (utf8Len url > 30 → IsCharBoundary url 30)) := by
  have hcut : ∀ (s : String) (n : ℕ),
      IsCharBoundary s (min (utf8Len s) n) ↔ (utf8Len s > n → IsCharBoundary s n) := by
    intro s n
    by_cases h : utf8Len s > n
    · rw [Nat.min_eq_right h.le]
      exact ⟨fun hs _ => hs, fun hs => hs h⟩
    · rw [Nat.min_eq_left (Nat.le_of_not_lt h)]
      exact ⟨fun _ hs => absurd hs h, fun _ => isCharBoundary_utf8Len s⟩
  refine ⟨isSome_buildBody model request stream, ?_, ?_⟩
  · rw [isSome_sanitizeMessageId, hcut]
  · rw [isSome_requireHttps, hcut]

/-- A user message, an id and a URL with a character of two bytes across the cut. -/
theorem cut_texts_panic :
    buildBody "m"
        (⟨[{ role := .user, content := "".pushn 'a' 79 ++ "é" }], [], none, none⟩ :
          CompletionRequest Unit) false = none ∧
      sanitizeMessageId ("".pushn 'a' 31 ++ "é") = none ∧
      requireHttps ("http://".pushn 'a' 22 ++ "é") "webhook" = none := by
  refine ⟨?_, ?_, ?_⟩
  · decide +kernel
  · decide +kernel
  · decide +kernel

end Arbeiterfarm.Texts
