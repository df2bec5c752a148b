import Arbeiterfarm.Tools.YaraOutput

/-!
# Reading the output of a YARA scan back

What is printed for a list of rules is read back as this list. The lines are read one after the
other: the line of a rule closes the rule before it, and the line of a string goes to the open rule.
Blanks at the end of a line are trimmed, which is why nothing but the end of the path or a space
behind a string without data gets lost.
-/

namespace Arbeiterfarm.Tools.Yara

open Orchestrator

/-! ### Lines -/

/-- A carriage return belongs to the end of a line. -/
def withoutReturn (line : List Char) : List Char :=
  if line.getLast? = some '\r' then line.dropLast else line

lemma go_append {line : List Char} (hline : '\n' ∉ line) (acc cs : List Char) :
    lines.go acc (line ++ '\n' :: cs) = withoutReturn (acc.reverse ++ line) :: lines cs := by
  induction line generalizing acc with
  | nil =>
    rw [List.append_nil, withoutReturn, List.getLast?_reverse, List.nil_append, lines.go]
    by_cases hreturn : acc.head? = some '\r'
    · rw [if_pos hreturn, if_pos hreturn, List.dropLast_reverse]
      rfl
    · rw [if_neg hreturn, if_neg hreturn]
      rfl
  | cons c line ih =>
    rw [List.mem_cons, not_or] at hline
    rw [List.cons_append, lines.go, ih hline.2]
    · simp
    · exact fun heq => hline.1 heq.symm

lemma lines_flatMap {ls : List (List Char)} (h : ∀ l ∈ ls, '\n' ∉ l) :
    lines (ls.flatMap fun line => line ++ ['\n']) = ls.map withoutReturn := by
  induction ls with
  | nil => rfl
  | cons line ls ih =>
    rw [List.flatMap_cons, List.append_assoc, List.singleton_append, lines,
      go_append (h line List.mem_cons_self), ih fun l hl => h l (List.mem_cons_of_mem line hl)]
    rfl

/-! ### Blanks -/

lemma trim_withoutReturn (line : List Char) : trim (withoutReturn line) = trim line := by
  rw [withoutReturn]
  by_cases hreturn : line.getLast? = some '\r'
  · obtain ⟨front, rfl⟩ := List.getLast?_eq_some_iff.mp hreturn
    rw [if_pos hreturn, List.dropLast_concat, trim_append_of_all]
    intro c hc
    rw [List.mem_singleton.mp hc]
    decide
  · rw [if_neg hreturn]

/-- A text that begins and ends with something else than a blank. -/
structure Solid (s : List Char) : Prop where
  nonempty : s ≠ []
  head : ∀ c ∈ s.head?, ¬isWhitespace c
  last : ∀ c ∈ s.getLast?, ¬isWhitespace c

lemma Solid.trim_append {s : List Char} (h : Solid s) (v : List Char) :
    trim (s ++ v) = s ++ trimEndMatches isWhitespace v := by
  have hdrop : (s ++ v).dropWhile isWhitespace = s ++ v := by
    refine @dropWhile_append_of_all isWhitespace [] (s ++ v) (by simp) fun c hc => ?_
    rw [List.head?_append_of_ne_nil _ h.nonempty] at hc
    exact h.head c hc
  have hsolid : s.reverse.dropWhile isWhitespace = s.reverse := by
    refine @dropWhile_append_of_all isWhitespace [] s.reverse (by simp) fun c hc => ?_
    rw [List.head?_reverse] at hc
    exact h.last c hc
  rw [trim, hdrop, trimEndMatches, trimEndMatches, List.reverse_append, List.dropWhile_append]
  by_cases hv : (v.reverse.dropWhile isWhitespace).isEmpty
  · rw [if_pos hv, hsolid, List.isEmpty_iff.mp hv, List.reverse_reverse, List.reverse_nil,
      List.append_nil]
  · rw [if_neg hv, List.reverse_append, List.reverse_reverse]

/-! ### Names -/

lemma not_isWhitespace_of_isNameChar {c : Char} (h : isNameChar c) : ¬isWhitespace c := by
  rw [isNameChar] at h
  simp only [isWordCode, Bool.or_eq_true, Bool.and_eq_true, decide_eq_true_eq, beq_iff_eq] at h
  simp only [isWhitespace, Bool.or_eq_true, Bool.and_eq_true, decide_eq_true_eq]
  omega

lemma isNameChar_of_isHexCode {c : Char} (h : isHexCode c.toNat) : isNameChar c := by
  simp only [isHexCode, Bool.or_eq_true, Bool.and_eq_true, decide_eq_true_eq] at h
  simp only [isNameChar, isWordCode, Bool.or_eq_true, Bool.and_eq_true, decide_eq_true_eq,
    beq_iff_eq]
  omega

/-- A character that is no part of names is not in them. -/
lemma not_mem_of_forall {s : List Char} {d : Char} (h : ∀ c ∈ s, isNameChar c)
    (hd : isNameChar d = false) : d ∉ s := by
  intro hmem
  rw [h d hmem] at hd
  cases hd

section

variable {s : List Char}

lemma forall_of_isIdentifier (h : isIdentifier s) : ∀ c ∈ s, isNameChar c := by
  rw [isIdentifier, Bool.and_eq_true] at h
  exact List.all_eq_true.mp h.2

lemma ne_nil_of_isIdentifier (h : isIdentifier s) : s ≠ [] := by
  rintro rfl
  cases h

lemma Solid.append_of_forall {t : List Char} (hs : s ≠ []) (hhead : ∀ c ∈ s.head?, isNameChar c)
    (ht : t ≠ []) (hlast : ∀ c ∈ t.getLast?, ¬isWhitespace c) : Solid (s ++ t) := by
  refine ⟨fun h => hs (List.append_eq_nil_iff.mp h).1, fun c hc => ?_, fun c hc => ?_⟩
  · rw [List.head?_append_of_ne_nil _ hs] at hc
    exact not_isWhitespace_of_isNameChar (hhead c hc)
  · rw [List.getLast?_append_of_ne_nil _ ht] at hc
    exact hlast c hc

/-- A name is not taken for an offset. -/
lemma not_isPrefixOf_of_isIdentifier (h : isIdentifier s) (rest : List Char) :
    ¬['0', 'x'].isPrefixOf (s ++ rest) := by
  cases s with
  | nil => cases h
  | cons c s =>
    intro hpre
    rw [List.cons_append, List.isPrefixOf_cons_cons, Bool.and_eq_true, beq_iff_eq] at hpre
    rw [← hpre.1] at h
    cases h

end

/-! ### The two kinds of lines -/

/-- The data of a string may hold colons, since only the first two of the line count. -/
lemma parseMatchLine_append {offset id v : List Char} (hoffset : ':' ∉ offset) (hid : ':' ∉ id) :
    parseMatchLine (offset ++ ':' :: (id ++ ':' :: v)) =
      some (matchJson offset (trim id) (trim v)) := by
  have hrest : splitAround [':'] (id ++ ':' :: v) = some (id, v) :=
    splitAround_singleton_iff.mpr ⟨rfl, hid⟩
  rw [parseMatchLine, splitAround_singleton_iff.mpr ⟨rfl, hoffset⟩]
  simp only [Option.bind_some, hrest, Option.map_some]

lemma solid_dollar {id : List Char} (h : ∀ c ∈ id, isNameChar c) : Solid ('$' :: id) := by
  refine ⟨List.cons_ne_nil _ _, ?_, fun c hc => ?_⟩
  · intro c hc
    cases hc
    decide
  · rcases List.mem_cons.mp (List.mem_of_getLast? hc) with rfl | hmem
    · decide
    · exact not_isWhitespace_of_isNameChar (h c hmem)

lemma trim_dollar {id : List Char} (h : ∀ c ∈ id, isNameChar c) : trim ('$' :: id) = '$' :: id := by
  have htrim := (solid_dollar h).trim_append []
  rwa [List.append_nil, trimEndMatches, List.reverse_nil, List.dropWhile_nil, List.reverse_nil,
    List.append_nil] at htrim

namespace StringMatch

variable (m : StringMatch)

lemma offset_isNameChar : ∀ c ∈ m.offset, isNameChar c := by
  intro c hc
  rw [offset, List.mem_cons, List.mem_cons] at hc
  rcases hc with rfl | rfl | hc
  · decide
  · decide
  · exact isNameChar_of_isHexCode (m.hex.2 c hc)

lemma trim_line : trim m.line =
    m.offset ++ ':' :: ('$' :: m.id ++ ':' :: trimEndMatches isWhitespace (' ' :: m.data)) := by
  have hsolid : Solid (m.offset ++ (':' :: '$' :: m.id ++ [':'])) := by
    refine Solid.append_of_forall (List.cons_ne_nil _ _) ?_ (by simp) ?_
    · exact fun c hc => m.offset_isNameChar c (List.mem_of_head? hc)
    · intro c hc
      rw [List.getLast?_concat] at hc
      cases hc
      decide
  have htrim := hsolid.trim_append (' ' :: m.data)
  simpa [line] using htrim

lemma parse_trim_line : parseMatchLine (trim m.line) = some m.toJson := by
  have hdata : trim (' ' :: m.data) = m.data := by
    conv_rhs => rw [← m.trimmed]
    rfl
  rw [m.trim_line, parseMatchLine_append (not_mem_of_forall m.offset_isNameChar (by decide)),
    trim_dollar m.named, trim_trimEnd, hdata]
  · rfl
  · rw [List.mem_cons, not_or]
    exact ⟨by decide, not_mem_of_forall m.named (by decide)⟩

lemma newline_not_mem_line : '\n' ∉ m.line := by
  have hoffset : '\n' ∉ m.offset := not_mem_of_forall m.offset_isNameChar (by decide)
  have hid : '\n' ∉ m.id := not_mem_of_forall m.named (by decide)
  have hdata := m.oneLine
  simp [line, hoffset, hid, hdata]

/-- The string goes to the open rule. -/
lemma onLine_line (rules : List Json) (r : PendingRule) :
    YaraParser.onLine ⟨rules, some r⟩ m.line =
      ⟨rules, some { r with found := r.found ++ [m.toJson] }⟩ := by
  have hline : ∃ rest, trim m.line = '0' :: 'x' :: rest := ⟨_, m.trim_line⟩
  obtain ⟨rest, hrest⟩ := hline
  have hparse := m.parse_trim_line
  rw [YaraParser.onLine, YaraParser.onTrimmed, hparse, hrest]
  rfl

lemma foldl_onLine (found : List StringMatch) (rules : List Json) (r : PendingRule) :
    (found.map StringMatch.line).foldl YaraParser.onLine ⟨rules, some r⟩ =
      ⟨rules, some { r with found := r.found ++ found.map StringMatch.toJson }⟩ := by
  induction found generalizing r with
  | nil => simp
  | cons m found ih =>
    rw [List.map_cons, List.foldl_cons, m.onLine_line, ih]
    simp

end StringMatch

/-! ### The line of a rule -/

lemma splitOn_tags {tags : List (List Char)} (h : ∀ t ∈ tags, isIdentifier t) (hne : tags ≠ []) :
    ((([','].intercalate tags).splitOn ',').map trim).filter (!·.isEmpty) = tags := by
  have htrim : ∀ t ∈ tags, trim t = t := by
    intro t ht
    have hall := forall_of_isIdentifier (h t ht)
    have hsolid : Solid t :=
      ⟨ne_nil_of_isIdentifier (h t ht),
        fun c hc => not_isWhitespace_of_isNameChar (hall c (List.mem_of_head? hc)),
        fun c hc => not_isWhitespace_of_isNameChar (hall c (List.mem_of_getLast? hc))⟩
    have htrim := hsolid.trim_append []
    rwa [List.append_nil, trimEndMatches, List.reverse_nil, List.dropWhile_nil, List.reverse_nil,
      List.append_nil] at htrim
  rw [List.splitOn_intercalate]
  · rw [List.map_congr_left htrim, List.map_id', List.filter_eq_self.mpr]
    intro t ht
    simpa using ne_nil_of_isIdentifier (h t ht)
  · intro t ht
    exact not_mem_of_forall (forall_of_isIdentifier (h t ht)) (by decide)
  · exact hne

lemma not_mem_tags {tags : List (List Char)} (h : ∀ t ∈ tags, isIdentifier t) {c : Char}
    (hc : isNameChar c = false) (hcomma : c ≠ ',') : c ∉ [','].intercalate tags := by
  induction tags with
  | nil => simp
  | cons t tags ih =>
    have ht : c ∉ t := not_mem_of_forall (forall_of_isIdentifier (h t List.mem_cons_self)) hc
    have htail := ih fun u hu => h u (List.mem_cons_of_mem t hu)
    cases tags with
    | nil => simpa using ht
    | cons u tags =>
      rw [List.intercalate_cons_cons, List.mem_append, List.mem_append, List.mem_singleton]
      exact fun hmem => hmem.elim (fun h => h.elim ht hcomma) htail

namespace MatchedRule

variable (r : MatchedRule)

lemma exists_path : ∃ below, r.path = '/' :: below := by
  cases hpath : r.path with
  | nil =>
    have habsolute := r.absolute
    rw [hpath] at habsolute
    cases habsolute
  | cons c below =>
    have habsolute := r.absolute
    rw [hpath] at habsolute
    cases habsolute
    exact ⟨below, rfl⟩

/-- Trimming leaves the name and the tags as they are. -/
lemma exists_trim_line : ∃ v, trim r.line = r.name ++ ' ' :: (tagsText r.tags ++ '/' :: v) := by
  obtain ⟨below, hpath⟩ := r.exists_path
  have hsolid : Solid (r.name ++ (' ' :: tagsText r.tags ++ ['/'])) := by
    refine Solid.append_of_forall (ne_nil_of_isIdentifier r.named) ?_ (by simp) ?_
    · exact fun c hc => forall_of_isIdentifier r.named c (List.mem_of_head? hc)
    · intro c hc
      rw [List.getLast?_concat] at hc
      cases hc
      decide
  have htrim := hsolid.trim_append below
  refine ⟨trimEndMatches isWhitespace below, ?_⟩
  rw [line, hpath]
  simpa using htrim

lemma parse_trim_line : parseRuleLine (trim r.line) = (r.name, r.tags) := by
  obtain ⟨v, hline⟩ := r.exists_trim_line
  have hname : ' ' ∉ r.name := not_mem_of_forall (forall_of_isIdentifier r.named) (by decide)
  rw [hline, parseRuleLine, splitAround_singleton_iff.mpr ⟨rfl, hname⟩, Option.getD_some, tagsText]
  by_cases htags : r.tags = []
  · rw [htags]
    rfl
  · have hbracket : ']' ∉ [','].intercalate r.tags := not_mem_tags r.tagged (by decide) (by decide)
    have hbody : splitAround [']'] ([','].intercalate r.tags ++ ([']', ' '] ++ '/' :: v)) =
        some ([','].intercalate r.tags, ' ' :: '/' :: v) :=
      splitAround_singleton_iff.mpr ⟨rfl, hbracket⟩
    rw [if_neg (by simpa using htags), List.cons_append, List.append_assoc]
    simp only [hbody, splitOn_tags r.tagged htags]

lemma newline_not_mem_line (h : '\n' ∉ r.path) : '\n' ∉ r.line := by
  have hname : '\n' ∉ r.name := not_mem_of_forall (forall_of_isIdentifier r.named) (by decide)
  have htags : '\n' ∉ [','].intercalate r.tags := not_mem_tags r.tagged (by decide) (by decide)
  by_cases hnil : r.tags = []
  · simp [line, tagsText, hname, hnil, h]
  · simp [line, tagsText, hname, hnil, htags, h]

/-- The line of a rule closes the rule before it. -/
lemma onLine_line (s : YaraParser) :
    s.onLine r.line = ⟨s.flush, some ⟨r.name, r.tags, []⟩⟩ := by
  have hparse := r.parse_trim_line
  obtain ⟨v, hline⟩ := r.exists_trim_line
  have hne := ne_nil_of_isIdentifier r.named
  have hoffset := not_isPrefixOf_of_isIdentifier r.named (' ' :: (tagsText r.tags ++ '/' :: v))
  rw [YaraParser.onLine, YaraParser.onTrimmed, hparse, hline, if_neg (by simp), if_neg hoffset]
  simp [hne]

lemma flush_foldl_onLine (rules : List MatchedRule) (s : YaraParser) :
    ((printedLines rules).foldl YaraParser.onLine s).flush =
      s.flush ++ rules.map MatchedRule.toJson := by
  induction rules generalizing s with
  | nil => simp [printedLines]
  | cons r rules ih =>
    rw [printedLines, List.flatMap_cons, List.cons_append, List.foldl_cons, List.foldl_append,
      r.onLine_line, StringMatch.foldl_onLine, ← printedLines, ih]
    simp [YaraParser.flush, MatchedRule.toJson]

end MatchedRule

lemma foldl_onLine_congr {ls ls' : List (List Char)} (h : ls.map trim = ls'.map trim)
    (s : YaraParser) : ls.foldl YaraParser.onLine s = ls'.foldl YaraParser.onLine s := by
  have hmap (l : List (List Char)) :
      l.foldl YaraParser.onLine s = (l.map trim).foldl YaraParser.onTrimmed s := by
    rw [List.foldl_map]
    rfl
  rw [hmap, hmap, h]

/-- The rules, their tags and their strings come back in order. -/
theorem roundTrips (rules : List MatchedRule) (h : ∀ r ∈ rules, '\n' ∉ r.path) :
    RoundTrips rules := by
  have hlines : ∀ l ∈ printedLines rules, '\n' ∉ l := by
    intro l hl
    obtain ⟨r, hr, hl⟩ := List.mem_flatMap.mp hl
    rcases List.mem_cons.mp hl with rfl | hl
    · exact r.newline_not_mem_line (h r hr)
    · obtain ⟨m, -, rfl⟩ := List.mem_map.mp hl
      exact m.newline_not_mem_line
  have htrim : ((printedLines rules).map withoutReturn).map trim =
      (printedLines rules).map trim := by
    rw [List.map_map]
    exact List.map_congr_left fun l _ => trim_withoutReturn l
  rw [RoundTrips, parseYaraOutput, printed, String.toList_ofList, lines_flatMap hlines,
    foldl_onLine_congr htrim, MatchedRule.flush_foldl_onLine]
  rfl

/-- A string with a colon and a bracket in its data. -/
def colonMatch : StringMatch where
  digits := ['1', '0', '0']
  id := ['s', '1']
  data := ['a', ':', ' ', '[', 'b']
  hex := by simp [isHexCode]
  named := by simp [isNameChar, isWordCode]
  trimmed := by decide +kernel
  oneLine := by decide +kernel

def elfRule : MatchedRule where
  name := "detect_elf".toList
  tags := ["malware".toList, "elf".toList]
  path := "/tmp/a".toList
  found := [colonMatch]
  named := by decide +kernel
  tagged := by decide +kernel
  absolute := rfl

theorem roundTrips_elf : RoundTrips [elfRule] := roundTrips [elfRule] (by decide +kernel)

/-- A file whose name has a line break. -/
def brokenPathRule : MatchedRule :=
  { elfRule with
    path := "/tmp/a\nb".toList
    absolute := rfl }

theorem not_roundTrips_broken_path : ¬RoundTrips [brokenPathRule] := by
  rw [RoundTrips]
  decide +kernel

end Arbeiterfarm.Tools.Yara
