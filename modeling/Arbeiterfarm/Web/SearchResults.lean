import Arbeiterfarm.Core.Text
import Arbeiterfarm.Web.UrlEncoding

/-!
# Search results

The result page of DuckDuckGo is cut at the class of its result links. A link leads to a redirect
whose parameter `uddg` holds the target, percent-encoded.
-/

namespace Arbeiterfarm.Web

/-! ### The page -/

/-- The pieces between the occurrences of `pat`, with fuel for each occurrence. -/
def splitPieces (pat : List Char) : ℕ → List Char → List (List Char)
  | 0, cs => [cs]
  | n + 1, cs =>
    match splitAround pat cs with
    | none => [cs]
    | some (before, after) => before :: splitPieces pat n after

/-- `split`. -/
def split (pat cs : List Char) : List (List Char) := splitPieces pat cs.length cs

def stripHtmlTags (in_tag : Bool) : List Char → List Char
  | [] => []
  | c :: cs =>
    if c = '<' then stripHtmlTags true cs
    else if c = '>' then stripHtmlTags false cs
    else if in_tag then stripHtmlTags in_tag cs
    else c :: stripHtmlTags in_tag cs

structure SearchResult where
  title : List Char
  url : List Char
  snippet : List Char
  deriving DecidableEq

/-- `unwrap_or_default` of what `urlencoding::decode` returns. -/
def decodedOrEmpty (encoded : List Char) : List Char :=
  match Urlencoding.decode encoded with
  | some (.ok text) => text
  | some (.error _) | none => []

lemma decodedOrEmpty_eq (encoded : List Char) :
    decodedOrEmpty encoded = (decode encoded).getD [] := by
  rw [decodedOrEmpty, Urlencoding.decode_eq]
  cases decode encoded <;> rfl

/-- The target of a link. -/
def linkTarget (url : List Char) : List Char :=
  match splitAround "uddg=".toList url with
  | some (_, encoded) => (decodedOrEmpty encoded).takeWhile (· ≠ '&')
  | none => url

/-- The text from the first `>` up to `close`, without tags. -/
def textUpTo (close cs : List Char) : List Char :=
  match splitAround ">".toList cs with
  | none => []
  | some (_, rest) =>
    match splitAround close rest with
    | none => []
    | some (text, _) => trim (stripHtmlTags false text)

def snippetMarker : List Char := "class=\"result__snippet\"".toList

def snippetOf (chunk : List Char) : List Char :=
  match splitAround snippetMarker chunk with
  | none => []
  | some (_, rest) => textUpTo "</".toList (snippetMarker ++ rest)

/-- The result in a piece of the page; links without target and internal links are skipped. -/
def parseChunk (chunk : List Char) : Option SearchResult := do
  let (_, rest) ← splitAround "href=\"".toList chunk
  let (url, _) ← splitAround "\"".toList rest
  let href := linkTarget url
  if contains href "duckduckgo.com".toList || href.isEmpty then none
  else
    let title := textUpTo "</a>".toList chunk
    if !title.isEmpty || !href.isEmpty then some ⟨title, href, snippetOf chunk⟩ else none

/-- At most 20 results are collected. -/
def parseChunks (results : List SearchResult) : List (List Char) → List SearchResult
  | [] => results
  | chunk :: chunks =>
    if results.length ≥ 20 then results
    else
      match parseChunk chunk with
      | some result => parseChunks (results ++ [result]) chunks
      | none => parseChunks results chunks

def parseDdgResults (html : List Char) : List SearchResult :=
  parseChunks [] (split "class=\"result__a\"".toList html)

/-! ### Links -/

/-- The text of further parameters begins with an ampersand. -/
lemma head_of_decode {params text : List Char} (hparams : ∀ c ∈ params.head?, c = '&')
    (h : decode params = some text) : ∀ c ∈ text.head?, c = '&' := by
  cases params with
  | nil =>
    have hnil : decode [] = some [] := fromUtf8_utf8 []
    obtain rfl := Option.some.inj (hnil.symm.trans h)
    simp
  | cons c params =>
    obtain rfl : c = '&' := hparams c rfl
    have hutf8 : utf8 ('&' :: params) = 38 :: utf8 params := rfl
    rw [decode, hutf8, decodeBytes_cons (by decide)] at h
    cases hbytes : decodeBytes (utf8 params) with
    | none => simp [hbytes] at h
    | some bs =>
      rw [hbytes] at h
      have htext : fromUtf8 (utf8 ['&'] ++ bs) = some text := h
      rw [fromUtf8_append] at htext
      obtain ⟨rest, -, rfl⟩ := Option.map_eq_some_iff.mp htext
      simp

/-- No proper end of the pattern is also a beginning of it. -/
def Borderless (pat : List Char) : Prop :=
  ∀ k < pat.length, 0 < k → pat.drop k ≠ pat.take (pat.length - k)

instance (pat : List Char) : Decidable (Borderless pat) :=
  inferInstanceAs (Decidable (∀ k < pat.length, 0 < k → _))

lemma splitAround_first {pat pre : List Char} (hpat : pat ≠ []) (hborder : Borderless pat)
    (hpre : ¬ pat <:+: pre) (post : List Char) :
    splitAround pat (pre ++ (pat ++ post)) = some (pre, post) := by
  have hcut : ¬ Straddles pat pre (pat ++ post) := by
    rintro ⟨x, y, hx, hy, rfl, -, hy'⟩
    have hlength : y.length ≤ (x ++ y).length := by simp
    have hprefix : y <+: x ++ y :=
      List.prefix_of_prefix_length_le hy' (List.prefix_append (x ++ y) post) hlength
    refine hborder x.length ?_ (List.length_pos_iff.mpr hx) ?_
    · have := List.length_pos_iff.mpr hy
      simpa using this
    · rw [List.drop_left, List.length_append, Nat.add_sub_cancel_left]
      exact List.prefix_iff_eq_take.mp hprefix
  rw [splitAround_append_of_none (splitAround_eq_none_iff.mpr hpre) hcut]
  obtain ⟨c, pat, rfl⟩ := List.exists_cons_of_ne_nil hpat
  have hfirst : c :: pat <+: c :: (pat ++ post) := List.prefix_append (c :: pat) post
  rw [List.cons_append, splitAround_cons_pos hfirst, ← List.cons_append, List.drop_left]
  simp

/-- A piece of the page whose link carries the target `u`, followed by further parameters. -/
structure ResultLink (u : List Char) where
  before : List Char
  base : List Char
  encoded : List Char
  params : List Char
  after : List Char
  encodes : Encodes (utf8 u) (utf8 encoded)
  href_first : ¬ "href=\"".toList <:+: before
  uddg_first : ¬ "uddg=".toList <:+: base
  quote_free : '"' ∉ base ++ params
  params_first : ∀ c ∈ params.head?, c = '&'

namespace ResultLink

variable {u : List Char} (link : ResultLink u)

def url : List Char := link.base ++ ("uddg=".toList ++ (link.encoded ++ link.params))

def chunk : List Char :=
  link.before ++ ("href=\"".toList ++ (link.url ++ ("\"".toList ++ link.after)))

/-- Reserved bytes do not occur in an encoding. -/
lemma quote_not_mem_encoded : '"' ∉ link.encoded := fun h =>
  link.encodes.quote_not_mem (List.mem_flatMap.mpr ⟨'"', h, by decide⟩)

lemma linkTarget_url : linkTarget link.url =
    (((decode link.params).map (u ++ ·)).getD []).takeWhile (· ≠ '&') := by
  rw [linkTarget, url, splitAround_first (by decide) (by decide) link.uddg_first]
  simp only [decodedOrEmpty_eq, decode_append link.encodes]

/-- The link is found in its piece. -/
lemma splitAround_chunk : splitAround "href=\"".toList link.chunk =
      some (link.before, link.url ++ ("\"".toList ++ link.after)) ∧
    splitAround "\"".toList (link.url ++ ("\"".toList ++ link.after)) =
      some (link.url, link.after) := by
  refine ⟨splitAround_first (by decide) (by decide) link.href_first _, ?_⟩
  have hquote : '"' ∉ link.url := by
    have hfree := link.quote_free
    rw [List.mem_append, not_or] at hfree
    simp [url, hfree.1, hfree.2, link.quote_not_mem_encoded]
  exact splitAround_singleton_iff.mpr ⟨rfl, hquote⟩

lemma parseChunk_eq : (parseChunk link.chunk).map SearchResult.url =
    if contains (linkTarget link.url) "duckduckgo.com".toList || (linkTarget link.url).isEmpty
    then none else some (linkTarget link.url) := by
  obtain ⟨hhref, hquote⟩ := link.splitAround_chunk
  simp only [parseChunk, hhref, hquote, Option.bind_eq_bind, Option.bind_some]
  by_cases hskip : contains (linkTarget link.url) "duckduckgo.com".toList ||
      (linkTarget link.url).isEmpty
  · rw [if_pos hskip, if_pos hskip]
    rfl
  · rw [if_neg hskip, if_neg hskip, if_pos]
    · rfl
    · simp only [Bool.or_eq_true, not_or] at hskip
      simp [hskip.2]

end ResultLink

/-! ### The results of a page -/

lemma parseChunks_eq (results : List SearchResult) (chunks : List (List Char)) :
    parseChunks results chunks =
      results ++ (chunks.filterMap parseChunk).take (20 - results.length) := by
  induction chunks generalizing results with
  | nil => simp [parseChunks]
  | cons chunk chunks ih =>
    rw [parseChunks]
    by_cases hfull : results.length ≥ 20
    · rw [if_pos hfull, Nat.sub_eq_zero_of_le hfull, List.take_zero, List.append_nil]
    · rw [if_neg hfull]
      cases hchunk : parseChunk chunk with
      | none => rw [List.filterMap_cons_none hchunk, ← ih]
      | some result =>
        have hroom : 20 - results.length = 20 - (results ++ [result]).length + 1 := by
          rw [List.length_append, List.length_singleton]
          omega
        rw [List.filterMap_cons_some hchunk, hroom, List.take_succ_cons]
        simp only [ih]
        rw [List.append_assoc, List.singleton_append]

/-- The target without what follows it. -/
lemma takeWhile_append_eq_iff {u text : List Char} (htext : ∀ c ∈ text.head?, c = '&') :
    (u ++ text).takeWhile (· ≠ '&') = u ↔ '&' ∉ u := by
  constructor
  · intro h hmem
    rw [← h] at hmem
    simpa using List.mem_takeWhile_imp hmem
  · intro h
    have hall : ∀ c ∈ u, decide (c ≠ '&') = true := fun c hc => by
      rw [decide_eq_true_iff]
      rintro rfl
      exact h hc
    rw [List.takeWhile_append_of_pos hall]
    cases text with
    | nil => simp
    | cons c text => simp [htext c rfl]

section

variable {u : List Char} (link : ResultLink u)

/-- The target of the link is the one that it carries. -/
lemma ResultLink.linkTarget_eq_iff (hu : u ≠ []) :
    linkTarget link.url = u ↔ '&' ∉ u ∧ (decode link.params).isSome := by
  rw [link.linkTarget_url]
  cases hdecode : decode link.params with
  | none => simp [hu.symm]
  | some text =>
    rw [Option.map_some, Option.getD_some,
      takeWhile_append_eq_iff (head_of_decode link.params_first hdecode)]
    simp

lemma ResultLink.parseChunk_url_iff :
    (parseChunk link.chunk).map SearchResult.url = some u ↔
      u ≠ [] ∧ '&' ∉ u ∧ (decode link.params).isSome ∧ ¬ "duckduckgo.com".toList <:+: u := by
  rw [link.parseChunk_eq]
  by_cases hu : u = []
  · simp only [hu, ne_eq, not_true_eq_false, false_and, iff_false]
    intro h
    split_ifs at h with hskip
    have hempty : linkTarget link.url = [] := Option.some.inj h
    simp [hempty] at hskip
  have htarget_iff := link.linkTarget_eq_iff hu
  rw [← splitAround_eq_none_iff, ← Option.not_isSome_iff_eq_none]
  constructor
  · intro h
    split_ifs at h with hskip
    have htarget : linkTarget link.url = u := Option.some.inj h
    rw [htarget] at hskip
    obtain ⟨hquery, hparams⟩ := htarget_iff.mp htarget
    exact ⟨hu, hquery, hparams, fun hcontains => hskip (Bool.or_eq_true_iff.mpr (.inl hcontains))⟩
  · rintro ⟨-, hquery, hparams, hcontains⟩
    rw [htarget_iff.mpr ⟨hquery, hparams⟩, if_neg]
    rw [Bool.or_eq_true, not_or]
    exact ⟨hcontains, by simpa using hu⟩

/-- The link is reported with its target exactly if the target has no ampersand, is not one of the
internal links, the text of the further parameters can be decoded and the list is not full. -/
theorem target_survives_iff {html : List Char} {earlier later : List (List Char)}
    (hpage : split "class=\"result__a\"".toList html = earlier ++ link.chunk :: later) :
    (∃ r, parseChunk link.chunk = some r ∧ r.url = u ∧
      (parseDdgResults html)[(earlier.filterMap parseChunk).length]? = some r) ↔
    (u ≠ [] ∧ '&' ∉ u ∧ (decode link.params).isSome ∧ ¬ "duckduckgo.com".toList <:+: u) ∧
      (earlier.filterMap parseChunk).length < 20 := by
  rw [← link.parseChunk_url_iff, Option.map_eq_some_iff, parseDdgResults, hpage, parseChunks_eq,
    List.filterMap_append, List.nil_append, List.length_nil, Nat.sub_zero]
  constructor
  · rintro ⟨r, hr, hurl, hindex⟩
    refine ⟨⟨r, hr, hurl⟩, ?_⟩
    have hlt := (List.getElem?_eq_some_iff.mp hindex).1
    rw [List.length_take] at hlt
    exact Nat.lt_of_lt_of_le hlt (Nat.min_le_left _ _)
  · rintro ⟨⟨r, hr, hurl⟩, hroom⟩
    refine ⟨r, hr, hurl, ?_⟩
    rw [List.getElem?_take_of_lt hroom, List.filterMap_cons_some hr]
    simp

end

/-! ### Targets with a query -/

/-- A link as the search engine writes it. -/
def queryLink (u : List Char) : ResultLink u where
  before := " ".toList
  base := "//duckduckgo.com/l/?".toList
  encoded := encode u
  params := "&amp;rut=0".toList
  after := ">T</a>".toList
  encodes := encodes_encode u
  href_first := by decide +kernel
  uddg_first := by decide +kernel
  quote_free := by decide +kernel
  params_first := by simp

/-- A page with one link. -/
def queryPage (u : List Char) : List Char :=
  "<a class=\"result__a\"".toList ++ (queryLink u).chunk

theorem escaped_target_survives :
    ∃ r, parseChunk (queryLink "http://a/?x=1%26".toList).chunk = some r ∧
      r.url = "http://a/?x=1%26".toList ∧
      (parseDdgResults (queryPage "http://a/?x=1%26".toList))[0]? = some r := by
  have hpage : split "class=\"result__a\"".toList (queryPage "http://a/?x=1%26".toList) =
      ["<a ".toList] ++ (queryLink "http://a/?x=1%26".toList).chunk :: [] := by
    decide +kernel
  exact (target_survives_iff (queryLink "http://a/?x=1%26".toList) hpage).mpr (by decide +kernel)

/-- The second parameter of the target is lost. -/
theorem query_cut_off :
    (parseDdgResults (queryPage "http://a/?x=1&y=2".toList)).map SearchResult.url =
      ["http://a/?x=1".toList] := by
  decide +kernel

end Arbeiterfarm.Web
