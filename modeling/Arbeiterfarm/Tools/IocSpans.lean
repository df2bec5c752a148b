import Arbeiterfarm.Tools.IocExtractor

/-!
# Spans and values of indicators

A match inside a longer one is part of its text; but a text can also be part of another one that is
somewhere else. So what is covered decides exactly when no other match shares its text with a longer
one, and when the hashes in URLs do.
-/

namespace Arbeiterfarm.Tools.Ioc

/-- The kinds of indicators that can be part of another one. -/
inductive Kind where
  | sha1
  | md5
  | domain
  deriving DecidableEq

def Kind.pattern : Kind → IocPattern
  | .sha1 => .sha1
  | .md5 => .md5
  | .domain => .domain

def Kind.iocType : Kind → String
  | .sha1 => "sha1"
  | .md5 => "md5"
  | .domain => "domain"

/-- The reported value. -/
def Kind.value : Kind → List Char → List Char
  | .sha1, s | .md5, s => toLowercase s
  | .domain, s => s

/-- The safe list is for domains. -/
def Kind.isSafe : Kind → List Char → Bool
  | .sha1, _ | .md5, _ => false
  | .domain, s => isSafeDomain s

section

variable (find : Matches) (text : List Char)

/-- The matches of longer hashes. -/
def longerHashes : Kind → List (Match text)
  | .sha1 => find .sha256 text
  | .md5 => find .sha256 text ++ find .sha1 text
  | .domain => find .sha256 text ++ find .sha1 text ++ find .md5 text

/-- The match lies inside a longer hash or a URL. -/
def Covered (k : Kind) (m : Match text) : Prop :=
  ∃ n ∈ longerHashes find text k ++ find .url text, m.Inside n

def Reported (k : Kind) (m : Match text) : Prop :=
  m.ioc k.iocType (k.value m.matched) ∈ extract find text

/-- A match is reported exactly when it is not covered, and not on the safe list. -/
def DropsCovered : Prop :=
  ∀ k : Kind, ∀ m ∈ find k.pattern text,
    Reported find text k m ↔ k.isSafe m.matched = false ∧ ¬Covered find text k m

/-- The matches whose texts a kind is sought in. -/
def comparedWith : Kind → List (Match text)
  | .sha1 => find .sha256 text
  | .md5 => find .sha256 text ++ find .sha1 text
  | .domain => find .url text

/-- The text of the match occurs in one that it is compared with. -/
def Shared (k : Kind) (m : Match text) : Prop :=
  ∃ n ∈ comparedWith find text k, k.value m.matched <:+: k.value n.matched

/-- The other matches that can cover it. -/
def notCompared : Kind → List (Match text)
  | .sha1 | .md5 => find .url text
  | .domain => longerHashes find text .domain

/-- A match that is not covered shares its text with no longer one. A hash in a URL shares its text
with a longer hash, and a domain in a hash with a URL. -/
structure SpansDecide : Prop where
  apart : ∀ k : Kind, ∀ m ∈ find k.pattern text, k.isSafe m.matched = false →
    ¬Covered find text k m → ¬Shared find text k m
  inside : ∀ k : Kind, ∀ m ∈ find k.pattern text, k.isSafe m.matched = false →
    ∀ n ∈ notCompared find text k, m.Inside n → Shared find text k m

/-! ### Values of one type -/

variable {find text}

lemma valuesOf_append (ioc_type : String) (iocs iocs' : List ExtractedIoc) :
    valuesOf ioc_type (iocs ++ iocs') = valuesOf ioc_type iocs ++ valuesOf ioc_type iocs' := by
  rw [valuesOf, List.filter_append, List.map_append]
  rfl

lemma valuesOf_eq_nil {ioc_type : String} {iocs : List ExtractedIoc}
    (h : ∀ i ∈ iocs, i.ioc_type ≠ ioc_type) : valuesOf ioc_type iocs = [] := by
  rw [valuesOf, List.map_eq_nil_iff, List.filter_eq_nil_iff]
  exact fun i hi heq => h i hi (of_decide_eq_true heq)

lemma valuesOf_eq_map {ioc_type : String} {iocs : List ExtractedIoc}
    (h : ∀ i ∈ iocs, i.ioc_type = ioc_type) : valuesOf ioc_type iocs = iocs.map (·.value) := by
  rw [valuesOf, List.filter_eq_self.mpr fun i hi => decide_eq_true (h i hi)]

variable (find text) in
lemma type_ipIocs : ∀ i ∈ ipIocs find text, i.ioc_type = "ipv4" ∨ i.ioc_type = "ipv6" := by
  intro i hi
  rcases List.mem_append.mp hi with hi | hi
  all_goals obtain ⟨m, -, rfl⟩ := List.mem_map.mp hi
  · exact .inl rfl
  · exact .inr rfl

variable (find text) in
lemma type_sha256Iocs : ∀ i ∈ sha256Iocs find text, i.ioc_type = "sha256" := by
  intro i hi
  obtain ⟨m, -, rfl⟩ := List.mem_map.mp hi
  rfl

variable (find text) in
lemma type_sha1Iocs (vals : List (List Char)) :
    ∀ i ∈ sha1Iocs find text vals, i.ioc_type = "sha1" := by
  intro i hi
  obtain ⟨m, -, rfl⟩ := List.mem_map.mp hi
  rfl

variable (find text) in
lemma type_md5Iocs (vals vals' : List (List Char)) :
    ∀ i ∈ md5Iocs find text vals vals', i.ioc_type = "md5" := by
  intro i hi
  obtain ⟨m, -, rfl⟩ := List.mem_map.mp hi
  rfl

variable (find text) in
lemma type_domainIocs (vals : List (List Char)) :
    ∀ i ∈ domainIocs find text vals, i.ioc_type = "domain" := by
  intro i hi
  obtain ⟨m, -, rfl⟩ := List.mem_map.mp hi
  rfl

variable (find text) in
lemma type_allIocs (pattern : IocPattern) (ioc_type : String) :
    ∀ i ∈ allIocs find text pattern ioc_type, i.ioc_type = ioc_type := by
  intro i hi
  obtain ⟨m, -, rfl⟩ := List.mem_map.mp hi
  rfl

variable (find text) in
/-- The texts of the SHA-256 matches. -/
def sha256Vals : List (List Char) := (find .sha256 text).map fun m => toLowercase m.matched

/-- The result, part by part. -/
lemma extract_eq : extract find text =
    ipIocs find text ++ sha256Iocs find text ++ sha1Iocs find text (sha256Vals find text) ++
      md5Iocs find text (sha256Vals find text)
        ((sha1Iocs find text (sha256Vals find text)).map (·.value)) ++
      allIocs find text .url "url" ++
      domainIocs find text ((find .url text).map (·.matched)) ++
      allIocs find text .email "email" ++ allIocs find text .pipe "mutex" ++
      allIocs find text .mutex "mutex" ++ allIocs find text .registryKey "registry_key" := by
  have hip : ∀ t : String, t ≠ "ipv4" → t ≠ "ipv6" → valuesOf t (ipIocs find text) = [] := by
    intro t h4 h6
    refine valuesOf_eq_nil fun i hi heq => ?_
    rcases type_ipIocs find text i hi with h | h
    · exact h4 (heq.symm.trans h)
    · exact h6 (heq.symm.trans h)
  have hnil : ∀ {t u : String} {iocs : List ExtractedIoc}, (∀ i ∈ iocs, i.ioc_type = t) → t ≠ u →
      valuesOf u iocs = [] :=
    fun htype hne => valuesOf_eq_nil fun i hi heq => hne ((htype i hi).symm.trans heq)
  have h256 : valuesOf "sha256" (ipIocs find text ++ sha256Iocs find text) =
      sha256Vals find text := by
    rw [valuesOf_append, hip _ (by decide) (by decide), valuesOf_eq_map (type_sha256Iocs find text),
      List.nil_append, sha256Iocs, List.map_map]
    rfl
  have h1 : ∀ vals, valuesOf "sha1" (ipIocs find text ++ sha256Iocs find text ++
      sha1Iocs find text vals) = (sha1Iocs find text vals).map (·.value) := by
    intro vals
    rw [valuesOf_append, valuesOf_append, hip _ (by decide) (by decide),
      hnil (type_sha256Iocs find text) (by decide), valuesOf_eq_map (type_sha1Iocs find text vals)]
    rfl
  have hurl : ∀ vals vals' vals'', valuesOf "url" (ipIocs find text ++ sha256Iocs find text ++
      sha1Iocs find text vals ++ md5Iocs find text vals' vals'' ++ allIocs find text .url "url") =
      (find .url text).map (·.matched) := by
    intro vals vals' vals''
    rw [valuesOf_append, valuesOf_append, valuesOf_append, valuesOf_append,
      hip _ (by decide) (by decide), hnil (type_sha256Iocs find text) (by decide),
      hnil (type_sha1Iocs find text vals) (by decide),
      hnil (type_md5Iocs find text vals' vals'') (by decide),
      valuesOf_eq_map (type_allIocs find text _ _), allIocs, List.map_map]
    rfl
  rw [extract]
  simp only [h256, h1, hurl]

/-- An indicator of a type is in the part of this type. -/
lemma mem_extract_of_kind (k : Kind) {i : ExtractedIoc} (hi : i.ioc_type = k.iocType) :
    i ∈ extract find text ↔ i ∈ match k with
      | .sha1 => sha1Iocs find text (sha256Vals find text)
      | .md5 => md5Iocs find text (sha256Vals find text)
          ((sha1Iocs find text (sha256Vals find text)).map ExtractedIoc.value)
      | .domain => domainIocs find text ((find .url text).map Match.matched) := by
  have hnot : ∀ {t : String} {iocs : List ExtractedIoc}, (∀ i ∈ iocs, i.ioc_type = t) →
      t ≠ k.iocType → i ∉ iocs :=
    fun htype hne hmem => hne ((htype i hmem).symm.trans hi)
  have hip : i ∉ ipIocs find text := by
    intro hmem
    rcases type_ipIocs find text i hmem with h | h
    all_goals
      rw [hi] at h
      cases k <;> exact absurd h (by decide)
  have h256 := hnot (type_sha256Iocs find text) (by cases k <;> decide)
  have hall := fun pattern {ioc_type : String} (hne : ioc_type ≠ k.iocType) =>
    hnot (type_allIocs find text pattern ioc_type) hne
  have hurl := hall .url (by cases k <;> decide : "url" ≠ k.iocType)
  have hemail := hall .email (by cases k <;> decide : "email" ≠ k.iocType)
  have hpipe := hall .pipe (by cases k <;> decide : "mutex" ≠ k.iocType)
  have hmutex := hall .mutex (by cases k <;> decide : "mutex" ≠ k.iocType)
  have hreg := hall .registryKey (by cases k <;> decide : "registry_key" ≠ k.iocType)
  rw [extract_eq]
  simp only [List.mem_append, hip, h256, hurl, hemail, hpipe, hmutex, hreg, false_or, or_false]
  have h1 := fun hne => hnot (type_sha1Iocs find text (sha256Vals find text)) hne
  have h5 := fun hne => hnot (type_md5Iocs find text (sha256Vals find text)
    ((sha1Iocs find text (sha256Vals find text)).map (·.value))) hne
  have hdom := fun hne =>
    hnot (type_domainIocs find text ((find .url text).map (·.matched))) hne
  cases k with
  | sha1 => simp only [h5 (by decide), hdom (by decide), or_false]
  | md5 => simp only [h1 (by decide), hdom (by decide), false_or, or_false]
  | domain => simp only [h1 (by decide), h5 (by decide), false_or]

/-! ### What is reported -/

lemma any_contains_iff (vals : List (List Char)) (val : List Char) :
    vals.any (contains · val) = true ↔ ∃ s ∈ vals, val <:+: s := by
  simp only [List.any_eq_true, contains_iff]

lemma any_sha256Vals_iff (val : List Char) : (sha256Vals find text).any (contains · val) = true ↔
    ∃ n ∈ find .sha256 text, val <:+: toLowercase n.matched := by
  rw [any_contains_iff, sha256Vals]
  simp only [List.mem_map, exists_exists_and_eq_and]

/-- An indicator in a part has the value of a match that passes the check of the part. -/
lemma mem_map_ioc_iff (ioc_type : String) (value : List Char → List Char)
    (check : List Char → Bool) {ms : List (Match text)} {m : Match text} (hm : m ∈ ms) :
    m.ioc ioc_type (value m.matched) ∈
        ((ms.filter fun n => check (value n.matched)).map fun n =>
          n.ioc ioc_type (value n.matched)) ↔ check (value m.matched) = true := by
  rw [List.mem_map]
  constructor
  · rintro ⟨n, hn, heq⟩
    have hvalue : value n.matched = value m.matched := congrArg ExtractedIoc.value heq
    rw [← hvalue]
    exact (List.mem_filter.mp hn).2
  · intro hcheck
    exact ⟨m, List.mem_filter.mpr ⟨hm, hcheck⟩, rfl⟩

lemma reported_sha1_iff {m : Match text} (hm : m ∈ find .sha1 text) :
    Reported find text .sha1 m ↔ ¬Shared find text .sha1 m := by
  rw [Reported, mem_extract_of_kind .sha1 rfl]
  refine (mem_map_ioc_iff "sha1" toLowercase
    (fun val => !(sha256Vals find text).any (contains · val)) hm).trans ?_
  rw [Bool.not_eq_true', ← Bool.not_eq_true, any_sha256Vals_iff]
  rfl

/-- A SHA-1 that has been skipped is part of a SHA-256, and so is what it has as a part. -/
lemma reported_md5_iff {m : Match text} (hm : m ∈ find .md5 text) :
    Reported find text .md5 m ↔ ¬Shared find text .md5 m := by
  rw [Reported, mem_extract_of_kind .md5 rfl]
  refine (mem_map_ioc_iff "md5" toLowercase
    (fun val => !(sha256Vals find text).any (contains · val) &&
      !((sha1Iocs find text (sha256Vals find text)).map ExtractedIoc.value).any
        (contains · val)) hm).trans ?_
  rw [Bool.and_eq_true, Bool.not_eq_true', Bool.not_eq_true', ← Bool.not_eq_true,
    ← Bool.not_eq_true, any_sha256Vals_iff, any_contains_iff, ← not_or, not_iff_not]
  constructor
  · rintro (⟨n, hn, hinfix⟩ | ⟨s, hs, hinfix⟩)
    · exact ⟨n, List.mem_append_left _ hn, hinfix⟩
    · obtain ⟨i, hi, rfl⟩ := List.mem_map.mp hs
      obtain ⟨n, hn, rfl⟩ := List.mem_map.mp hi
      exact ⟨n, List.mem_append_right _ (List.mem_filter.mp hn).1, hinfix⟩
  · rintro ⟨n, hn, hinfix⟩
    rcases List.mem_append.mp hn with hn | hn
    · exact .inl ⟨n, hn, hinfix⟩
    · by_cases hskip : (sha256Vals find text).any (contains · (toLowercase n.matched)) = true
      · obtain ⟨n', hn', hlonger⟩ := any_sha256Vals_iff _ |>.mp hskip
        exact .inl ⟨n', hn', hinfix.trans hlonger⟩
      · refine .inr ⟨toLowercase n.matched, List.mem_map.mpr
          ⟨n.ioc "sha1" (toLowercase n.matched), ?_, rfl⟩, hinfix⟩
        refine List.mem_map_of_mem (List.mem_filter.mpr ⟨hn, ?_⟩)
        rw [Bool.not_eq_true', ← Bool.not_eq_true]
        exact hskip

lemma reported_domain_iff {m : Match text} (hm : m ∈ find .domain text) :
    Reported find text .domain m ↔
      isSafeDomain m.matched = false ∧ ¬Shared find text .domain m := by
  rw [Reported, mem_extract_of_kind .domain rfl]
  refine (mem_map_ioc_iff "domain" id (fun val => !isSafeDomain val &&
    !((find .url text).map Match.matched).any (contains · val)) hm).trans ?_
  rw [Bool.and_eq_true, Bool.not_eq_true', Bool.not_eq_true', ← Bool.not_eq_true (List.any _ _),
    any_contains_iff]
  simp only [List.mem_map, exists_exists_and_eq_and]
  rfl

lemma reported_iff {k : Kind} {m : Match text} (hm : m ∈ find k.pattern text) :
    Reported find text k m ↔ k.isSafe m.matched = false ∧ ¬Shared find text k m := by
  cases k with
  | sha1 => exact (reported_sha1_iff hm).trans (and_iff_right rfl).symm
  | md5 => exact (reported_md5_iff hm).trans (and_iff_right rfl).symm
  | domain => exact reported_domain_iff hm

/-- What covers a match is compared with it or is not. -/
lemma covered_iff {k : Kind} {m : Match text} : Covered find text k m ↔
    (∃ n ∈ comparedWith find text k, m.Inside n) ∨ ∃ n ∈ notCompared find text k, m.Inside n := by
  have hmem : ∀ n, n ∈ longerHashes find text k ++ find .url text ↔
      n ∈ comparedWith find text k ∨ n ∈ notCompared find text k := by
    intro n
    cases k with
    | sha1 => exact List.mem_append
    | md5 => exact List.mem_append
    | domain => exact List.mem_append.trans or_comm
  simp only [Covered, hmem, or_and_right, exists_or]

/-- The text of a match inside another one occurs in that of the other one. -/
lemma shared_of_inside {k : Kind} {m n : Match text} (hn : n ∈ comparedWith find text k)
    (h : m.Inside n) : Shared find text k m := by
  refine ⟨n, hn, ?_⟩
  cases k with
  | sha1 | md5 => exact h.isInfix.map Char.toLower
  | domain => exact h.isInfix

variable (find text) in
/-- Only what is covered is dropped exactly when the spans decide which texts occur in longer
ones. -/
theorem dropsCovered_iff : DropsCovered find text ↔ SpansDecide find text := by
  constructor
  · intro h
    refine ⟨fun k m hm hsafe hcovered => ?_, fun k m hm hsafe n hn hinside => ?_⟩
    · exact ((reported_iff hm).mp ((h k m hm).mpr ⟨hsafe, hcovered⟩)).2
    · by_contra hshared
      have hreported := (reported_iff hm).mpr ⟨hsafe, hshared⟩
      exact ((h k m hm).mp hreported).2 (covered_iff.mpr (.inr ⟨n, hn, hinside⟩))
  · intro h k m hm
    rw [reported_iff hm]
    refine and_congr_right fun hsafe => not_congr ⟨fun hshared => ?_, fun hcovered => ?_⟩
    · by_contra hcovered
      exact h.apart k m hm hsafe hcovered hshared
    · rcases covered_iff.mp hcovered with ⟨n, hn, hinside⟩ | ⟨n, hn, hinside⟩
      · exact shared_of_inside hn hinside
      · exact h.inside k m hm hsafe n hn hinside

end

/-- The match of `len` characters after the first `pos`. -/
def Match.cut (text : List Char) (pos len : ℕ) : Match text where
  before := text.take pos
  matched := (text.drop pos).take len
  after := (text.drop pos).drop len
  eq := by rw [List.take_append_drop, List.take_append_drop]

def twoMentions : List Char := "https://evil.com/x and evil.com".toList

/-- The URL, and the domain in it and after it. -/
def mentions : Matches
  | .url, text => [Match.cut text 0 18]
  | .domain, text => [Match.cut text 8 8, Match.cut text 23 8]
  | _, _ => []

/-- The domain after the URL is dropped. -/
theorem not_dropsCovered_mentions : ¬DropsCovered mentions twoMentions := by
  intro h
  have hm : Match.cut twoMentions 23 8 ∈ mentions Kind.domain.pattern twoMentions := by
    simp [mentions, Kind.pattern]
  have hshared : Shared mentions twoMentions .domain (Match.cut twoMentions 23 8) :=
    ⟨Match.cut twoMentions 0 18, List.mem_singleton_self _, by decide +kernel⟩
  have hnot : ¬Covered mentions twoMentions .domain (Match.cut twoMentions 23 8) := by
    rintro ⟨n, hn, hinside⟩
    obtain rfl : n = Match.cut twoMentions 0 18 := by simpa [longerHashes, mentions] using hn
    exact absurd hinside.2 (by decide +kernel)
  have hreported := (h .domain _ hm).mpr ⟨by decide +kernel, hnot⟩
  exact ((reported_iff hm).mp hreported).2 hshared

end Arbeiterfarm.Tools.Ioc
