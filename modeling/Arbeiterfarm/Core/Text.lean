import Mathlib.Data.List.Basic
import Mathlib.Data.List.Infix
import Mathlib.Data.List.TakeWhile

/-!
# Text

String operations of the source, on lists of characters.
-/

namespace Arbeiterfarm

/-- The Unicode property `White_Space`. -/
def isWhitespace (c : Char) : Bool :=
  let n := c.toNat
  (9 ≤ n && n ≤ 13) || n = 32 || n = 0x85 || n = 0xA0 || n = 0x1680 || (0x2000 ≤ n && n ≤ 0x200A)
    || n = 0x2028 || n = 0x2029 || n = 0x202F || n = 0x205F || n = 0x3000

def trimEndMatches (p : Char → Bool) (cs : List Char) : List Char :=
  (cs.reverse.dropWhile p).reverse

def trim (cs : List Char) : List Char := trimEndMatches isWhitespace (cs.dropWhile isWhitespace)

def trimMatches (p : Char → Bool) (cs : List Char) : List Char :=
  trimEndMatches p (cs.dropWhile p)

/-- The words between whitespace. -/
def splitWhitespace (cs : List Char) : List (List Char) :=
  (cs.splitOnP isWhitespace).filter (!·.isEmpty)

def stripPrefix (pre cs : List Char) : Option (List Char) :=
  if pre.isPrefixOf cs then some (cs.drop pre.length) else none

/-- The text before the first occurrence of `pat` and the text after it. -/
def splitAround (pat : List Char) : List Char → Option (List Char × List Char)
  | [] => if pat.isEmpty then some ([], []) else none
  | c :: cs =>
    if pat.isPrefixOf (c :: cs) then some ([], (c :: cs).drop pat.length)
    else (splitAround pat cs).map fun (before, after) => (c :: before, after)

def contains (cs pat : List Char) : Bool := (splitAround pat cs).isSome

lemma stripPrefix_eq_some_iff {pre cs rest : List Char} :
    stripPrefix pre cs = some rest ↔ cs = pre ++ rest := by
  simp only [stripPrefix]
  constructor
  · intro h
    split_ifs at h with hpre
    obtain ⟨suffix, rfl⟩ := List.isPrefixOf_iff_prefix.mp hpre
    cases h
    rw [List.drop_left]
  · rintro rfl
    rw [if_pos (List.isPrefixOf_iff_prefix.mpr (List.prefix_append _ _)), List.drop_left]

/-- The text is cut at the first separator. -/
lemma splitAround_singleton_iff {c : Char} {cs before after : List Char} :
    splitAround [c] cs = some (before, after) ↔ cs = before ++ c :: after ∧ c ∉ before := by
  induction cs generalizing before with
  | nil => simp [splitAround]
  | cons d cs ih =>
    simp only [splitAround]
    by_cases hd : c = d
    · subst hd
      rw [if_pos (by simp)]
      constructor
      · intro h
        cases h
        simp
      · rintro ⟨heq, hnot⟩
        cases before with
        | nil =>
          cases heq
          rfl
        | cons e before =>
          cases heq
          exact absurd List.mem_cons_self hnot
    · rw [if_neg (by simpa using hd)]
      constructor
      · intro h
        obtain ⟨⟨before', after'⟩, htail, heq⟩ := Option.map_eq_some_iff.mp h
        cases heq
        obtain ⟨rfl, hnot⟩ := ih.mp htail
        exact ⟨rfl, by simp [hd, hnot]⟩
      · rintro ⟨heq, hnot⟩
        cases before with
        | nil =>
          cases heq
          exact absurd rfl hd
        | cons e before =>
          cases heq
          rw [ih.mpr ⟨rfl, fun hmem => hnot (List.mem_cons_of_mem _ hmem)⟩]
          rfl

/-- The text between the matching characters at both ends of `cs`. -/
structure Surrounds (p : Char → Bool) (cs s : List Char) : Prop where
  eq : ∃ pre post, cs = pre ++ s ++ post ∧ (∀ c ∈ pre, p c) ∧ ∀ c ∈ post, p c
  head : ∀ c ∈ s.head?, ¬ p c
  last : ∀ c ∈ s.getLast?, ¬ p c

lemma dropWhile_append_of_all {p : Char → Bool} {pre s : List Char} (hpre : ∀ c ∈ pre, p c)
    (hs : ∀ c ∈ s.head?, ¬ p c) : (pre ++ s).dropWhile p = s := by
  rw [List.dropWhile_append_of_pos hpre]
  cases s with
  | nil => rfl
  | cons c s => exact List.dropWhile_cons_of_neg (hs c rfl)

lemma Surrounds.trimMatches_eq {p : Char → Bool} {cs s : List Char} (h : Surrounds p cs s)
    (hs : s ≠ []) : trimMatches p cs = s := by
  obtain ⟨⟨pre, post, rfl, hpre, hpost⟩, hhead, hlast⟩ := h
  have hdrop : (pre ++ s ++ post).dropWhile p = s ++ post := by
    rw [List.append_assoc]
    apply dropWhile_append_of_all hpre
    intro c hc
    rw [List.head?_append_of_ne_nil _ hs] at hc
    exact hhead c hc
  rw [trimMatches, trimEndMatches, hdrop, List.reverse_append, dropWhile_append_of_all,
    List.reverse_reverse]
  · intro c hc
    exact hpost c (List.mem_reverse.mp hc)
  · intro c hc
    rw [List.head?_reverse] at hc
    exact hlast c hc

lemma surrounds_trimMatches (p : Char → Bool) (cs : List Char) :
    Surrounds p cs (trimMatches p cs) := by
  have hend : cs.dropWhile p =
      trimMatches p cs ++ ((cs.dropWhile p).reverse.takeWhile p).reverse := by
    rw [trimMatches, trimEndMatches, ← List.reverse_append, List.takeWhile_append_dropWhile,
      List.reverse_reverse]
  refine ⟨⟨cs.takeWhile p, ((cs.dropWhile p).reverse.takeWhile p).reverse, ?_, ?_, ?_⟩, ?_, ?_⟩
  · rw [List.append_assoc, ← hend, List.takeWhile_append_dropWhile]
  · intro c hc
    exact List.mem_takeWhile_imp hc
  · intro c hc
    exact List.mem_takeWhile_imp (List.mem_reverse.mp hc)
  · intro c hc
    have hne : trimMatches p cs ≠ [] := by
      rintro hnil
      rw [hnil] at hc
      cases hc
    have hhead := List.head?_dropWhile_not p cs
    rw [hend, List.head?_append_of_ne_nil _ hne, hc] at hhead
    simpa using hhead
  · intro c hc
    rw [trimMatches, trimEndMatches, List.getLast?_reverse] at hc
    have hlast := List.head?_dropWhile_not p (cs.dropWhile p).reverse
    rw [hc] at hlast
    simpa using hlast

lemma not_isWhitespace_of_isDigit {c : Char} (h : c.isDigit) : ¬isWhitespace c := by
  have hrange : 48 ≤ c.toNat ∧ c.toNat ≤ 57 := by
    rwa [Char.isDigit, Bool.and_eq_true, decide_eq_true_eq, decide_eq_true_eq] at h
  simp only [isWhitespace, Bool.or_eq_true, Bool.and_eq_true, decide_eq_true_eq]
  omega

lemma trimEnd_append_of_all {x w : List Char} (hw : ∀ c ∈ w, isWhitespace c) :
    trimEndMatches isWhitespace (x ++ w) = trimEndMatches isWhitespace x := by
  rw [trimEndMatches, trimEndMatches, List.reverse_append,
    List.dropWhile_append_of_pos fun c hc => hw c (List.mem_reverse.mp hc)]

lemma trim_append_of_all {x w : List Char} (hw : ∀ c ∈ w, isWhitespace c) :
    trim (x ++ w) = trim x := by
  rw [trim, trim, List.dropWhile_append]
  by_cases hx : (x.dropWhile isWhitespace).isEmpty
  · rw [if_pos hx, List.isEmpty_iff.mp hx, List.dropWhile_eq_nil_iff.mpr hw]
  · rw [if_neg hx, trimEnd_append_of_all hw]

lemma trim_trimEnd (v : List Char) : trim (trimEndMatches isWhitespace v) = trim v := by
  have hv : v = trimEndMatches isWhitespace v ++ (v.reverse.takeWhile isWhitespace).reverse := by
    rw [trimEndMatches, ← List.reverse_append, List.takeWhile_append_dropWhile,
      List.reverse_reverse]
  conv_rhs => rw [hv]
  rw [trim_append_of_all]
  intro c hc
  exact List.mem_takeWhile_imp (List.mem_reverse.mp hc)

lemma length_of_splitAround {pat cs before after : List Char}
    (h : splitAround pat cs = some (before, after)) :
    before.length + pat.length + after.length = cs.length := by
  induction cs generalizing before with
  | nil =>
    simp only [splitAround] at h
    split_ifs at h with hpat
    cases h
    simpa using hpat
  | cons c cs ih =>
    simp only [splitAround] at h
    split_ifs at h with hpre
    · cases h
      have hle : pat.length ≤ (c :: cs).length := (List.isPrefixOf_iff_prefix.mp hpre).length_le
      rw [List.length_drop, List.length_nil, Nat.zero_add, Nat.add_sub_cancel' hle]
    · obtain ⟨⟨before', after'⟩, htail, heq⟩ := Option.map_eq_some_iff.mp h
      obtain ⟨rfl, rfl⟩ := Prod.mk.inj heq
      have hlen : before'.length + pat.length + after'.length = cs.length := ih htail
      simp only [List.length_cons]
      omega

/-! ### Occurrences of a pattern -/

section

variable {pat pre post cs before after : List Char} {c : Char}

lemma splitAround_cons_pos (h : pat <+: c :: cs) :
    splitAround pat (c :: cs) = some ([], (c :: cs).drop pat.length) :=
  if_pos (List.isPrefixOf_iff_prefix.mpr h)

lemma splitAround_cons_neg (h : ¬ pat <+: c :: cs) : splitAround pat (c :: cs) =
    (splitAround pat cs).map fun (before, after) => (c :: before, after) :=
  if_neg fun hpre => h (List.isPrefixOf_iff_prefix.mp hpre)

lemma splitAround_eq_none_iff : splitAround pat cs = none ↔ ¬ pat <:+: cs := by
  induction cs with
  | nil =>
    rw [List.infix_nil]
    cases pat <;> simp [splitAround]
  | cons c cs ih =>
    rw [List.infix_cons_iff]
    by_cases hpre : pat <+: c :: cs
    · simp [splitAround_cons_pos hpre, hpre]
    · rw [splitAround_cons_neg hpre, Option.map_eq_none_iff, ih]
      simp [hpre]

lemma contains_iff : contains cs pat ↔ pat <:+: cs := by
  rw [contains, ← not_iff_not, Option.not_isSome_iff_eq_none]
  exact splitAround_eq_none_iff

/-- The text goes on after the first occurrence of the pattern. -/
lemma splitAround_append_of_some (hpat : pat ≠ [])
    (h : splitAround pat pre = some (before, after)) (post : List Char) :
    splitAround pat (pre ++ post) = some (before, after ++ post) := by
  induction pre generalizing before with
  | nil =>
    rw [splitAround, if_neg (by simpa using hpat)] at h
    cases h
  | cons c pre ih =>
    rw [List.cons_append]
    by_cases hpre : pat <+: c :: pre
    · rw [splitAround_cons_pos hpre] at h
      cases h
      have hlong : pat <+: c :: (pre ++ post) := hpre.trans (List.prefix_append (c :: pre) post)
      rw [splitAround_cons_pos hlong, ← List.cons_append,
        List.drop_append_of_le_length hpre.length_le]
    · rw [splitAround_cons_neg hpre] at h
      obtain ⟨⟨before', after'⟩, htail, heq⟩ := Option.map_eq_some_iff.mp h
      cases heq
      have hshort : pat.length ≤ (c :: pre).length := by
        have hlen := length_of_splitAround htail
        rw [List.length_cons]
        omega
      have hnot : ¬ pat <+: c :: (pre ++ post) := fun hlong =>
        hpre (List.prefix_of_prefix_length_le hlong (List.prefix_append (c :: pre) post) hshort)
      rw [splitAround_cons_neg hnot, ih htail]
      rfl

lemma eq_of_splitAround (h : splitAround pat cs = some (before, after)) :
    cs = before ++ pat ++ after := by
  induction cs generalizing before with
  | nil =>
    rw [splitAround] at h
    split_ifs at h with hpat
    cases h
    rw [List.isEmpty_iff.mp hpat]
    rfl
  | cons c cs ih =>
    by_cases hpre : pat <+: c :: cs
    · rw [splitAround_cons_pos hpre] at h
      cases h
      obtain ⟨after, heq⟩ := hpre
      rw [← heq, List.drop_left, List.nil_append]
    · rw [splitAround_cons_neg hpre] at h
      obtain ⟨⟨before', after'⟩, htail, heq⟩ := Option.map_eq_some_iff.mp h
      cases heq
      rw [ih htail]
      rfl

/-- The pattern begins in the first text and ends in the second. -/
def Straddles (pat pre post : List Char) : Prop :=
  ∃ x y, x ≠ [] ∧ y ≠ [] ∧ pat = x ++ y ∧ x <:+ pre ∧ y <+: post

/-- Without an occurrence that begins in the first text, the pattern is sought in the second. -/
lemma splitAround_append_of_none (h : splitAround pat pre = none)
    (hcut : ¬ Straddles pat pre post) :
    splitAround pat (pre ++ post) =
      (splitAround pat post).map fun (before, after) => (pre ++ before, after) := by
  induction pre with
  | nil => exact Option.map_id'.symm
  | cons c pre ih =>
    have hnone := splitAround_eq_none_iff.mp h
    rw [List.infix_cons_iff, not_or] at hnone
    have hnot : ¬ pat <+: (c :: pre) ++ post := by
      intro hlong
      rcases Nat.le_total pat.length (c :: pre).length with hle | hle
      · exact hnone.1
          (List.prefix_of_prefix_length_le hlong (List.prefix_append (c :: pre) post) hle)
      · obtain ⟨y, rfl⟩ := List.prefix_of_prefix_length_le (List.prefix_append _ post) hlong hle
        refine hcut ⟨c :: pre, y, List.cons_ne_nil c pre, ?_, rfl, List.suffix_refl _,
          (List.prefix_append_right_inj (c :: pre)).mp hlong⟩
        rintro rfl
        exact hnone.1 (by rw [List.append_nil])
    have hcut' : ¬ Straddles pat pre post := by
      rintro ⟨x, y, hx, hy, rfl, hsuffix, hprefix⟩
      exact hcut ⟨x, y, hx, hy, rfl, hsuffix.trans (List.suffix_cons c pre), hprefix⟩
    rw [List.cons_append] at hnot ⊢
    rw [splitAround_cons_neg hnot, ih (splitAround_eq_none_iff.mpr hnone.2) hcut',
      Option.map_map]
    rfl

end

end Arbeiterfarm
