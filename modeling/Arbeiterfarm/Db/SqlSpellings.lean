import Arbeiterfarm.Db.PluginDb
import Arbeiterfarm.Core.Text

/-!
# Spellings of a statement

PostgreSQL reads a statement as a list of tokens. The same tokens can be written in many ways: words
in any case, identifiers also in double quotes, and any white space or comments around the tokens.
The validation looks for patterns in the text, so it sees the same in all spellings only if a
pattern is part of a token.
-/

namespace Arbeiterfarm.Db

/-! ### The uppercase mapping -/

/-- `to_uppercase` maps each character by itself; ASCII characters as usual. -/
structure Uppercase where
  upperChar : Char → List Char
  ascii : ∀ c : Char, c.toNat < 128 → upperChar c = [c.toUpper]

namespace Uppercase

variable (upper : Uppercase)

def map (cs : List Char) : List Char := cs.flatMap upper.upperChar

/-- `to_uppercase`. -/
def toUppercase (s : String) : String := String.ofList (upper.map s.toList)

@[simp] lemma map_append (cs ds : List Char) :
    upper.map (cs ++ ds) = upper.map cs ++ upper.map ds := List.flatMap_append

lemma map_cons (c : Char) (cs : List Char) :
    upper.map (c :: cs) = upper.upperChar c ++ upper.map cs := List.flatMap_cons

end Uppercase

/-- Unquoted names are folded to lowercase ASCII letters. -/
def foldCase (cs : List Char) : List Char := cs.map Char.toLower

lemma toUpper_toLower : ∀ n < 128, (Char.ofNat n).toLower.toNat < 128 ∧
    (Char.ofNat n).toLower.toUpper = (Char.ofNat n).toUpper := by decide +kernel

lemma toLower_of_not_ascii {c : Char} (h : ¬ c.toNat < 128) : c.toLower = c := by
  refine dif_neg ?_
  rintro ⟨-, hle⟩
  have hle' : c.toNat ≤ 90 := UInt32.le_iff_toNat_le.mp hle
  omega

/-- Letter case does not matter in uppercase. -/
lemma Uppercase.map_foldCase (upper : Uppercase) (cs : List Char) :
    upper.map (foldCase cs) = upper.map cs := by
  induction cs with
  | nil => rfl
  | cons c cs ih =>
    rw [foldCase, List.map_cons, map_cons, map_cons]
    refine congrArg₂ (· ++ ·) ?_ ih
    by_cases hc : c.toNat < 128
    · have hlower := toUpper_toLower c.toNat hc
      rw [Char.ofNat_toNat] at hlower
      rw [upper.ascii _ hlower.1, upper.ascii c hc, hlower.2]
    · rw [toLower_of_not_ascii hc]

/-! ### Tokens and their spellings -/

/-- A character of a keyword or of an unquoted identifier. -/
def isWordChar (c : Char) : Bool := c.isAlphanum || c = '_' || c = '$' || c.toNat ≥ 128

structure Word where
  chars : List Char
  plain : ∀ c ∈ chars, isWordChar c
  start : ∃ c ∈ chars.head?, ¬ c.isDigit

/-- A symbol that ends a word and begins none. -/
def isPunctuation (c : Char) : Bool := c ∈ ['.', ',', ';', '(', ')', '[', ']']

structure Symbol where
  char : Char
  punctuation : isPunctuation char

/-- The tokens. Literals, numbers, operators and names that need their quotes have one spelling. -/
inductive Token where
  | keyword (w : Word)
  | identifier (w : Word)
  | symbol (s : Symbol)
  | verbatim (text : List Char)

namespace Token

def text : Token → List Char
  | keyword w => w.chars
  | identifier w => w.chars
  | symbol s => [s.char]
  | verbatim text => text

def quoted (cs : List Char) : List Char := '"' :: (cs ++ ['"'])

/-- The ways to write a token. -/
inductive Spells : Token → List Char → Prop
  | word {w : Word} {cs : List Char} (h : foldCase cs = foldCase w.chars) : Spells (keyword w) cs
  | unquoted {w : Word} {cs : List Char} (h : foldCase cs = foldCase w.chars) :
      Spells (identifier w) cs
  | quoted (w : Word) : Spells (identifier w) (quoted (foldCase w.chars))
  | symbol (s : Symbol) : Spells (symbol s) [s.char]
  | verbatim (text : List Char) : Spells (verbatim text) text

/-- Nothing has to stand between a word and a symbol. -/
def mayTouch : Option Token → Token → Bool
  | none, _ => true
  | some (keyword _), symbol _ => true
  | some (identifier _), symbol _ => true
  | some (symbol _), keyword _ => true
  | some (symbol _), identifier _ => true
  | some _, _ => false

end Token

def isSqlSpace (c : Char) : Bool := c = ' ' || c = '\t' || c = '\n' || c = '\r' || c = '\x0c'

/-- White space and comments. -/
inductive Gap : List Char → Prop
  | nil : Gap []
  | space {c : Char} {cs : List Char} (hc : isSqlSpace c) (h : Gap cs) : Gap (c :: cs)
  | line {comment cs : List Char} (hcomment : '\n' ∉ comment) (h : Gap cs) :
      Gap ("--".toList ++ comment ++ '\n' :: cs)
  | block {comment cs : List Char} (hopen : ¬ "/*".toList <:+: comment ++ ['*'])
      (hclose : ¬ "*/".toList <:+: comment) (h : Gap cs) :
      Gap ("/*".toList ++ comment ++ "*/".toList ++ cs)

/-- The text is a spelling of the tokens that follow `prev`. -/
inductive SpellsFrom : Option Token → List Token → List Char → Prop
  | nil {prev : Option Token} {gap : List Char} (hgap : Gap gap) : SpellsFrom prev [] gap
  | cons {prev : Option Token} {t : Token} {ts : List Token} {gap cs rest : List Char}
      (hgap : Gap gap) (hsep : gap = [] → Token.mayTouch prev t) (ht : t.Spells cs)
      (h : SpellsFrom (some t) ts rest) : SpellsFrom prev (t :: ts) (gap ++ cs ++ rest)

/-- The text is a spelling of the statement. -/
def Spells (ts : List Token) (sql : String) : Prop := SpellsFrom none ts sql.toList

/-! ### Patterns -/

/-- A forbidden pattern is part of the text in uppercase. -/
def HasPattern (upper : Uppercase) (cs : List Char) : Prop :=
  ∃ p ∈ forbiddenSqlPatterns, p.toList <:+: upper.map cs

lemma validateSql_eq_ok_iff (upper : Uppercase) (cs : List Char) :
    validateSql upper.toUppercase (String.ofList cs) = .ok () ↔ ¬ HasPattern upper cs := by
  rw [validateSql, HasPattern]
  cases hfind : forbiddenSqlPatterns.find? fun p =>
      (splitAround p.toList (upper.toUppercase (String.ofList cs)).toList).isSome with
  | none =>
    rw [List.find?_eq_none] at hfind
    refine ⟨fun _ => ?_, fun _ => rfl⟩
    rintro ⟨p, hp, hinfix⟩
    refine hfind p hp (Option.isSome_iff_ne_none.mpr fun hnone => ?_)
    simp only [Uppercase.toUppercase, String.toList_ofList] at hnone
    exact splitAround_eq_none_iff.mp hnone hinfix
  | some p =>
    refine ⟨fun h => (nomatch h), fun h => absurd ⟨p, List.mem_of_find?_eq_some hfind, ?_⟩ h⟩
    have hsome := List.find?_some hfind
    simp only [Uppercase.toUppercase, String.toList_ofList] at hsome
    by_contra hnot
    rw [splitAround_eq_none_iff.mpr hnot] at hsome
    cases hsome

/-- A pattern does not reach across a character that it does not have. -/
lemma infix_append_cons {α : Type*} {p as bs : List α} {a : α} (ha : a ∉ p)
    (h : p <:+: as ++ a :: bs) : p <:+: as ∨ p <:+: bs := by
  have hnil : ∀ {q : List α}, q <+: a :: bs → a ∉ q → q = [] := by
    intro q hq hnot
    cases q with
    | nil => rfl
    | cons b q =>
      obtain rfl := (List.cons_prefix_cons.mp hq).1
      exact absurd List.mem_cons_self hnot
  rcases List.infix_append_iff_ne_nil.mp h with h | h | ⟨t, t', -, ht', rfl, -, hprefix⟩
  · exact .inl h
  · rcases List.infix_cons_iff.mp h with h | h
    · rw [hnil h ha]
      exact .inl List.nil_infix
    · exact .inr h
  · exact absurd (hnil hprefix fun hmem => ha (List.mem_append_right t hmem)) ht'

lemma forbidden_plain : ∀ p ∈ forbiddenSqlPatterns, '\n' ∉ p.toList ∧ '"' ∉ p.toList ∧
    p.toList ≠ [] := by decide +kernel

section

variable (upper : Uppercase)

lemma upperChar_newline : upper.upperChar '\n' = ['\n'] := upper.ascii _ (by decide)

lemma HasPattern.of_isInfix {cs ds : List Char} (h : cs <:+: ds) (hcs : HasPattern upper cs) :
    HasPattern upper ds := by
  obtain ⟨p, hp, hinfix⟩ := hcs
  obtain ⟨x, y, rfl⟩ := h
  refine ⟨p, hp, hinfix.trans ?_⟩
  rw [Uppercase.map_append, Uppercase.map_append]
  exact List.infix_append _ _ _

/-- All spellings of a token have the patterns of its text. -/
lemma hasPattern_of_spells {t : Token} {cs : List Char} (h : t.Spells cs)
    (ht : HasPattern upper t.text) : HasPattern upper cs := by
  have hfold : ∀ {cs ds : List Char}, foldCase cs = foldCase ds → HasPattern upper ds →
      HasPattern upper cs := by
    rintro cs ds heq ⟨p, hp, hinfix⟩
    refine ⟨p, hp, ?_⟩
    rwa [← upper.map_foldCase cs, heq, upper.map_foldCase]
  cases h with
  | word h => exact hfold h ht
  | unquoted h => exact hfold h ht
  | quoted w =>
    have hw : HasPattern upper (foldCase w.chars) := by
      obtain ⟨p, hp, hinfix⟩ := ht
      exact ⟨p, hp, by rwa [upper.map_foldCase]⟩
    exact hw.of_isInfix upper ⟨['"'], ['"'], rfl⟩
  | symbol s => exact ht
  | verbatim text => exact ht

lemma hasPattern_of_spellsFrom {prev : Option Token} {ts : List Token} {cs : List Char}
    (h : SpellsFrom prev ts cs) {t : Token} (hmem : t ∈ ts) (ht : HasPattern upper t.text) :
    HasPattern upper cs := by
  induction h with
  | nil hgap => cases hmem
  | @cons prev u ts gap cs rest hgap hsep hu h ih =>
    rcases List.mem_cons.mp hmem with rfl | hmem
    · exact (hasPattern_of_spells upper hu ht).of_isInfix upper ⟨gap, rest, rfl⟩
    · exact (ih hmem).of_isInfix upper (List.suffix_append (gap ++ cs) rest).isInfix

/-! ### Two spellings -/

/-- Every token on a line of its own. -/
def onLines (ts : List Token) : List Char := ts.flatMap fun t => '\n' :: t.text

lemma spells_text (t : Token) : t.Spells t.text := by
  cases t with
  | keyword w => exact .word rfl
  | identifier w => exact .unquoted rfl
  | symbol s => exact .symbol s
  | verbatim text => exact .verbatim text

lemma spellsFrom_onLines (prev : Option Token) (ts : List Token) :
    SpellsFrom prev ts (onLines ts) := by
  induction ts generalizing prev with
  | nil => exact .nil .nil
  | cons t ts ih =>
    exact .cons (.space (by decide) .nil) (fun h => (nomatch h)) (spells_text t) (ih (some t))

/-- A pattern is not found across lines. -/
lemma infix_onLines {p : List Char} (hp : '\n' ∉ p) (ts : List Token) (cs : List Char)
    (h : p <:+: cs ++ upper.map (onLines ts)) :
    p <:+: cs ∨ ∃ t ∈ ts, p <:+: upper.map t.text := by
  induction ts generalizing cs with
  | nil => exact .inl (by simpa [onLines, Uppercase.map] using h)
  | cons t ts ih =>
    have hline : upper.map (onLines (t :: ts)) =
        '\n' :: (upper.map t.text ++ upper.map (onLines ts)) := by
      rw [onLines, List.flatMap_cons, List.cons_append, Uppercase.map_cons, upperChar_newline,
        Uppercase.map_append]
      rfl
    rw [hline] at h
    rcases infix_append_cons hp h with h | h
    · exact .inl h
    · rcases ih _ h with h | ⟨u, hu, h⟩
      · exact .inr ⟨t, List.mem_cons_self, h⟩
      · exact .inr ⟨u, List.mem_cons_of_mem t hu, h⟩

lemma hasPattern_onLines {ts : List Token} (h : HasPattern upper (onLines ts)) :
    ∃ t ∈ ts, HasPattern upper t.text := by
  obtain ⟨p, hp, hinfix⟩ := h
  obtain ⟨hnewline, -, hne⟩ := forbidden_plain p hp
  rcases infix_onLines upper hnewline ts [] hinfix with h | ⟨t, ht, h⟩
  · exact absurd (List.infix_nil.mp h) hne
  · exact ⟨t, ht, p, hp, h⟩

def grantComment : List Char := "/*".toList ++ "GRANT".toList ++ "*/".toList

/-- A comment may stand before everything else. -/
lemma SpellsFrom.comment {prev : Option Token} {ts : List Token} {cs : List Char}
    (h : SpellsFrom prev ts cs) : SpellsFrom prev ts (grantComment ++ cs) := by
  have hgap : ∀ {gap : List Char}, Gap gap → Gap (grantComment ++ gap) := fun h =>
    .block (by decide +kernel) (by decide +kernel) h
  cases h with
  | nil h => exact .nil (hgap h)
  | cons h hsep ht hrest =>
    rw [← List.append_assoc, ← List.append_assoc]
    exact .cons (hgap h) (fun hnil => by simp [grantComment] at hnil) ht hrest

lemma hasPattern_comment (cs : List Char) : HasPattern upper (grantComment ++ cs) := by
  have hgrant : HasPattern upper "GRANT".toList := by
    refine ⟨"GRANT", by decide, ?_⟩
    have hmap : ∀ c ∈ "GRANT".toList, upper.upperChar c = [c] := fun c hc => by
      have hall : ("GRANT".toList.all fun c => c.toNat < 128 ∧ c.toUpper = c) = true := by
        decide +kernel
      have hascii := of_decide_eq_true (List.all_eq_true.mp hall c hc)
      rw [upper.ascii c hascii.1, hascii.2]
    rw [Uppercase.map, List.flatMap_congr hmap]
    simp
  exact hgrant.of_isInfix upper ⟨"/*".toList, "*/".toList ++ cs, by simp [grantComment]⟩

/-- The validation sees through no spelling, and rejects all spellings of a statement only if one of
its tokens has a forbidden pattern. -/
theorem spellings_rejected_iff (ts : List Token) :
    ((∀ sql sql', Spells ts sql → Spells ts sql' →
      (validateSql upper.toUppercase sql = .ok () ↔ validateSql upper.toUppercase sql' = .ok ())) ↔
        ∃ t ∈ ts, HasPattern upper t.text) ∧
    ((∀ sql, Spells ts sql → validateSql upper.toUppercase sql ≠ .ok ()) ↔
      ∃ t ∈ ts, HasPattern upper t.text) := by
  have hrejected : (∃ t ∈ ts, HasPattern upper t.text) →
      ∀ sql, Spells ts sql → validateSql upper.toUppercase sql ≠ .ok () := by
    rintro ⟨t, hmem, ht⟩ sql hsql
    rw [← String.ofList_toList (s := sql), ne_eq, validateSql_eq_ok_iff, not_not]
    exact hasPattern_of_spellsFrom upper hsql hmem ht
  have honLines : Spells ts (String.ofList (onLines ts)) := by
    rw [Spells, String.toList_ofList]
    exact spellsFrom_onLines none ts
  have hcomment : Spells ts (String.ofList (grantComment ++ onLines ts)) := by
    rw [Spells, String.toList_ofList]
    exact (spellsFrom_onLines none ts).comment
  have haccepted : ¬ (∃ t ∈ ts, HasPattern upper t.text) →
      validateSql upper.toUppercase (String.ofList (onLines ts)) = .ok () := fun h =>
    (validateSql_eq_ok_iff upper _).mpr fun hpattern => h (hasPattern_onLines upper hpattern)
  refine ⟨⟨fun h => ?_, fun h sql sql' hsql hsql' => ?_⟩, fun h => ?_, hrejected⟩
  · by_contra hnot
    have hok := (h _ _ honLines hcomment).mp (haccepted hnot)
    exact (validateSql_eq_ok_iff upper _).mp hok (hasPattern_comment upper _)
  · exact iff_of_false (hrejected h sql hsql) (hrejected h sql' hsql')
  · by_contra hnot
    exact h _ honLines (haccepted hnot)

end

/-! ### The search path -/

def asciiUppercase : Uppercase := ⟨fun c => [c.toUpper], fun _ _ => rfl⟩

/-- `SET search_path TO other`. -/
def setSearchPath : List Token :=
  [.keyword ⟨"SET".toList, List.all_eq_true.mp rfl, ⟨'S', rfl, by decide⟩⟩,
    .keyword ⟨"search_path".toList, List.all_eq_true.mp rfl, ⟨'s', rfl, by decide⟩⟩,
    .keyword ⟨"TO".toList, List.all_eq_true.mp rfl, ⟨'T', rfl, by decide⟩⟩,
    .identifier ⟨"other".toList, List.all_eq_true.mp rfl, ⟨'o', rfl, by decide⟩⟩]

/-- A second space lets the statement through. -/
theorem two_spaces_accepted :
    Spells setSearchPath "SET search_path TO other" ∧
      Spells setSearchPath "SET  search_path TO other" ∧
      validateSql asciiUppercase.toUppercase "SET search_path TO other" =
        .error (.query "forbidden SQL pattern: SET SEARCH_PATH") ∧
      validateSql asciiUppercase.toUppercase "SET  search_path TO other" = .ok () := by
  have hblank : Gap [' '] := .space (by decide) .nil
  have hspells : ∀ gap, Gap gap → gap ≠ [] → SpellsFrom none setSearchPath
      ([] ++ "SET".toList ++ (gap ++ "search_path".toList ++ ([' '] ++ "TO".toList ++
        ([' '] ++ "other".toList ++ [])))) := fun gap hgap hne =>
    .cons .nil (fun _ => rfl) (.word rfl)
      (.cons hgap (fun h => absurd h hne) (.word rfl)
        (.cons hblank (fun h => nomatch h) (.word rfl)
          (.cons hblank (fun h => nomatch h) (.unquoted rfl) (.nil .nil))))
  refine ⟨?_, ?_, ?_, ?_⟩
  · have htext : "SET search_path TO other".toList = [] ++ "SET".toList ++ ([' '] ++
        "search_path".toList ++ ([' '] ++ "TO".toList ++ ([' '] ++ "other".toList ++ []))) := by
      decide +kernel
    rw [Spells, htext]
    exact hspells _ hblank (by decide)
  · have htext : "SET  search_path TO other".toList = [] ++ "SET".toList ++ ([' ', ' '] ++
        "search_path".toList ++ ([' '] ++ "TO".toList ++ ([' '] ++ "other".toList ++ []))) := by
      decide +kernel
    rw [Spells, htext]
    exact hspells _ (.space (by decide) hblank) (by decide)
  · decide +kernel
  · decide +kernel

end Arbeiterfarm.Db
