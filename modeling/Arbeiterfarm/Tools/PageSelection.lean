import Arbeiterfarm.Core.Numbers
import Arbeiterfarm.Core.Text
import Arbeiterfarm.Foundation.OrderedMap

/-!
# Selecting pages of a document

A selection like `1,3,7-9` lists pages and ranges of pages by numbers from one on. A range is cut
off at the last page before it is walked through, and one whose bounds are reversed is empty.
-/

namespace Arbeiterfarm.Tools.Pages

open Foundation

/-! ### The parser -/

/-- The number of a text, or an error with the item that it is in. -/
def pageNumber (message : String) (item number : List Char) : Except String ℕ :=
  match parseUsize number with
  | some n => .ok n
  | none   => .error (message ++ String.ofList item)

def notOneBased : String := "page numbers are 1-based"

/-- The loop over the pages of a range that are there. -/
def selectRange (total : ℕ) (selected_indices : OrderedSet ℕ) (start stop : ℕ) : OrderedSet ℕ :=
  (List.range' start (min stop total + 1 - start)).foldl (fun s i => s.insert (i - 1))
    selected_indices

/-- One item of the selection. -/
def selectItem (total : ℕ) (selected_indices : OrderedSet ℕ) (part : List Char) :
    Except String (OrderedSet ℕ) :=
  let part := trim part
  match splitAround ['-'] part with
  | some (before, after) => do
    let start ← pageNumber "invalid page number in range: " part (trim before)
    let stop ← pageNumber "invalid page number in range: " part (trim after)
    if start = 0 ∨ stop = 0 then .error notOneBased
    else .ok (selectRange total selected_indices start stop)
  | none => do
    let page ← pageNumber "invalid page number: " part part
    if page = 0 then .error notOneBased
    else if page ≤ total then .ok (selected_indices.insert (page - 1))
    else .ok selected_indices

def selectPages (pages : List String) (range : String) : Except String (List String) := do
  let selected_indices ← (range.toList.splitOn ',').foldlM (selectItem pages.length)
    OrderedSet.empty
  .ok (selected_indices.elems.filterMap fun i => pages[i]?)

/-! ### What is selected -/

def Blank (s : List Char) : Prop := ∀ c ∈ s, isWhitespace c

/-- A positive number, as `usize` parsing accepts it. -/
def PageNumber (s : List Char) (n : ℕ) : Prop := parseUsize s = some n ∧ 0 < n

/-- An item lists a page, or the pages between two numbers. -/
inductive Item : List Char → ℕ → ℕ → Prop
  | page {a s b : List Char} {n : ℕ} (ha : Blank a) (hs : PageNumber s n) (hb : Blank b) :
    Item (a ++ (s ++ b)) n n
  | range {a s b c t d : List Char} {m n : ℕ} (ha : Blank a) (hs : PageNumber s m) (hb : Blank b)
    (hc : Blank c) (ht : PageNumber t n) (hd : Blank d) :
    Item (a ++ (s ++ b ++ '-' :: (c ++ t) ++ d)) m n

/-- A page is listed by an item, or lies within the range of one. -/
def Listed (range : String) (number : ℕ) : Prop :=
  ∃ item ∈ range.toList.splitOn ',', ∃ m n, Item item m n ∧ m ≤ number ∧ number ≤ n

/-- The pages with the numbers that are listed, in ascending order and each once. -/
def IsSelection (pages : List String) (range : String) (selected : List String) : Prop :=
  ∃ indices : List ℕ, indices.Pairwise (· < ·) ∧
    (∀ i, i ∈ indices ↔ i < pages.length ∧ Listed range (i + 1)) ∧
    selected = indices.filterMap fun i => pages[i]?

/-! ### The grammar of an item -/

/-- The first and the last page of an item. -/
def itemBounds (part : List Char) : Option (ℕ × ℕ) :=
  match splitAround ['-'] (trim part) with
  | some (before, after) =>
    match parseUsize (trim before), parseUsize (trim after) with
    | some m, some n => if m = 0 ∨ n = 0 then none else some (m, n)
    | _, _           => none
  | none =>
    match parseUsize (trim part) with
    | some n => if n = 0 then none else some (n, n)
    | none   => none

lemma forall_of_parseUsize {s : List Char} {n : ℕ} (h : parseUsize s = some n) :
    s ≠ [] ∧ ∀ c ∈ s, c.isDigit ∨ c = '+' := by
  obtain ⟨h, -⟩ := Option.filter_eq_some_iff.mp h
  have hdigits (digits : List Char)
      (h : (if digits.isEmpty || !digits.all Char.isDigit then none
        else some (Nat.ofDigitChars 10 digits 0)) = some n) :
      digits ≠ [] ∧ ∀ c ∈ digits, c.isDigit := by
    split_ifs at h with hcond
    rw [Bool.or_eq_true, not_or, List.isEmpty_iff, Bool.not_eq_true', Bool.not_eq_false,
      List.all_eq_true] at hcond
    exact hcond
  cases s with
  | nil => cases h
  | cons c cs =>
    refine ⟨List.cons_ne_nil c cs, ?_⟩
    by_cases hc : c = '+'
    · subst hc
      intro d hd
      rcases List.mem_cons.mp hd with rfl | hd
      · exact .inr rfl
      · exact .inl ((hdigits cs h).2 d hd)
    · rw [parseDecimal] at h
      · exact fun d hd => .inl ((hdigits _ h).2 d hd)
      · rintro cs' heq
        cases heq
        exact hc rfl

section

variable {s : List Char} {n : ℕ}

lemma not_isWhitespace_of_digit {c : Char} (h : c.isDigit ∨ c = '+') : ¬isWhitespace c := by
  rcases h with h | rfl
  · exact not_isWhitespace_of_isDigit h
  · decide

lemma dash_not_mem (h : parseUsize s = some n) : '-' ∉ s := fun hmem => by
  rcases (forall_of_parseUsize h).2 '-' hmem with hdash | hdash
  · cases hdash
  · cases hdash

lemma dash_not_mem_of_blank (h : Blank s) : '-' ∉ s := fun hmem => absurd (h '-' hmem) (by decide)

/-- The blanks around a number are trimmed, and nothing else. -/
lemma trim_number {a b : List Char} (ha : Blank a) (h : parseUsize s = some n) (hb : Blank b) :
    trim (a ++ (s ++ b)) = s := by
  obtain ⟨hne, hall⟩ := forall_of_parseUsize h
  refine Surrounds.trimMatches_eq ⟨⟨a, b, (List.append_assoc a s b).symm, ha, hb⟩, ?_, ?_⟩ hne
  · exact fun c hc => not_isWhitespace_of_digit (hall c (List.mem_of_head? hc))
  · exact fun c hc => not_isWhitespace_of_digit (hall c (List.mem_of_getLast? hc))

lemma trim_range {a b c d t : List Char} {m : ℕ} (ha : Blank a) (hs : parseUsize s = some m)
    (ht : parseUsize t = some n) (hd : Blank d) :
    trim (a ++ (s ++ b ++ '-' :: (c ++ t) ++ d)) = s ++ b ++ '-' :: (c ++ t) := by
  obtain ⟨hsne, hsall⟩ := forall_of_parseUsize hs
  obtain ⟨htne, htall⟩ := forall_of_parseUsize ht
  refine Surrounds.trimMatches_eq
    ⟨⟨a, d, (List.append_assoc a _ d).symm, ha, hd⟩, fun e he => ?_, fun e he => ?_⟩ (by simp)
  · rw [List.append_assoc, List.head?_append_of_ne_nil _ hsne] at he
    exact not_isWhitespace_of_digit (hsall e (List.mem_of_head? he))
  · rw [← List.cons_append, ← List.append_assoc, List.getLast?_append_of_ne_nil _ htne] at he
    exact not_isWhitespace_of_digit (htall e (List.mem_of_getLast? he))

end

/-- The text between the blanks at its ends. -/
lemma exists_trim (s : List Char) : ∃ a b, Blank a ∧ Blank b ∧ s = a ++ (trim s ++ b) := by
  obtain ⟨a, b, heq, ha, hb⟩ := (surrounds_trimMatches isWhitespace s).eq
  exact ⟨a, b, ha, hb, heq.trans (List.append_assoc a _ b)⟩

/-- An item has bounds if it is a positive number, or two of them around a dash. -/
lemma itemBounds_eq_some {part : List Char} {m n : ℕ} (h : itemBounds part = some (m, n)) :
    (splitAround ['-'] (trim part) = none ∧ parseUsize (trim part) = some m ∧ n = m ∧ m ≠ 0) ∨
      ∃ before after, splitAround ['-'] (trim part) = some (before, after) ∧
        parseUsize (trim before) = some m ∧ parseUsize (trim after) = some n ∧
          ¬(m = 0 ∨ n = 0) := by
  rw [itemBounds] at h
  cases hsplit : splitAround ['-'] (trim part) with
  | none =>
    rw [hsplit] at h
    cases hnumber : parseUsize (trim part) with
    | none => simp [hnumber] at h
    | some k =>
      simp only [hnumber] at h
      split_ifs at h with hzero
      cases h
      exact Or.inl ⟨rfl, rfl, rfl, hzero⟩
  | some p =>
    obtain ⟨before, after⟩ := p
    rw [hsplit] at h
    cases hfirst : parseUsize (trim before) with
    | none => simp [hfirst] at h
    | some k =>
      cases hlast : parseUsize (trim after) with
      | none => simp [hfirst, hlast] at h
      | some l =>
        simp only [hfirst, hlast] at h
        split_ifs at h with hzero
        cases h
        exact Or.inr ⟨before, after, rfl, hfirst, hlast, hzero⟩

lemma Blank.append {a b : List Char} (ha : Blank a) (hb : Blank b) : Blank (a ++ b) :=
  fun c hc => (List.mem_append.mp hc).elim (ha c) (hb c)

/-- The parser accepts the items of the grammar. -/
lemma item_iff {part : List Char} {m n : ℕ} : Item part m n ↔ itemBounds part = some (m, n) := by
  constructor
  · rintro (⟨ha, hs, hb⟩ | ⟨ha, hs, hb, hc, ht, hd⟩)
    · rename_i a s b
      have hsplit : splitAround ['-'] s = none := by
        rw [splitAround_eq_none_iff, List.singleton_infix_iff]
        exact dash_not_mem hs.1
      rw [itemBounds, trim_number ha hs.1 hb, hsplit]
      simp only [hs.1]
      rw [if_neg (Nat.ne_of_gt hs.2)]
    · rename_i a s b c t d
      have hbefore : '-' ∉ s ++ b := by
        rw [List.mem_append, not_or]
        exact ⟨dash_not_mem hs.1, dash_not_mem_of_blank hb⟩
      have htrim : trim (s ++ b) = s := trim_number (a := []) (by simp [Blank]) hs.1 hb
      have htrim' : trim (c ++ t) = t := by
        have := trim_number (b := []) hc ht.1 (by simp [Blank])
        rwa [List.append_nil] at this
      rw [itemBounds, trim_range ha hs.1 ht.1 hd, splitAround_singleton_iff.mpr ⟨rfl, hbefore⟩]
      simp only [htrim, htrim', hs.1, ht.1]
      rw [if_neg (not_or.mpr ⟨Nat.ne_of_gt hs.2, Nat.ne_of_gt ht.2⟩)]
  · intro h
    obtain ⟨a, d, ha, hd, hpart⟩ := exists_trim part
    rcases itemBounds_eq_some h with
      ⟨-, hnumber, rfl, hzero⟩ | ⟨before, after, hsplit, hfirst, hlast, hzero⟩
    · rw [hpart]
      exact .page ha ⟨hnumber, Nat.pos_of_ne_zero hzero⟩ hd
    · obtain ⟨heq, -⟩ := splitAround_singleton_iff.mp hsplit
      obtain ⟨a', b, ha', hb, hbefore⟩ := exists_trim before
      obtain ⟨c, d', hc, hd', hafter⟩ := exists_trim after
      rw [not_or] at hzero
      have hitem := Item.range (ha.append ha') ⟨hfirst, Nat.pos_of_ne_zero hzero.1⟩ hb hc
        ⟨hlast, Nat.pos_of_ne_zero hzero.2⟩ (hd'.append hd)
      have hpart' : part = a ++ a' ++
          (trim before ++ b ++ '-' :: (c ++ trim after) ++ (d' ++ d)) := by
        rw [hpart, heq]
        conv_lhs => rw [hbefore, hafter]
        simp
      rw [hpart']
      exact hitem

/-! ### The selection -/

section

variable (total : ℕ) {part : List Char} {m n : ℕ}

lemma exists_sub_one_iff {i : ℕ} (hm : 0 < m) :
    (∃ j ∈ List.range' m (min n total + 1 - m), j - 1 = i) ↔ i < total ∧ m ≤ i + 1 ∧ i + 1 ≤ n := by
  constructor
  · rintro ⟨j, hj, rfl⟩
    rw [List.mem_range'_1] at hj
    omega
  · intro h
    exact ⟨i + 1, List.mem_range'_1.mpr (by omega), rfl⟩

/-- An item of the grammar adds its pages. -/
lemma selectItem_of_some (s : OrderedSet ℕ) (h : itemBounds part = some (m, n)) :
    ∃ s', selectItem total s part = .ok s' ∧
      ∀ i, i ∈ s'.elems ↔ i ∈ s.elems ∨ i < total ∧ m ≤ i + 1 ∧ i + 1 ≤ n := by
  rw [selectItem]
  rcases itemBounds_eq_some h with
    ⟨hsplit, hnumber, rfl, hzero⟩ | ⟨before, after, hsplit, hfirst, hlast, hzero⟩
  · simp only [hsplit, pageNumber, hnumber]
    by_cases hle : n ≤ total
    · refine ⟨s.insert (n - 1), ?_, fun i => ?_⟩
      · show (if n = 0 then _ else if n ≤ total then _ else _) = _
        rw [if_neg hzero, if_pos hle]
      · rw [OrderedSet.mem_insert, or_comm]
        refine or_congr_right ?_
        omega
    · refine ⟨s, ?_, fun i => (or_iff_left ?_).symm⟩
      · show (if n = 0 then _ else if n ≤ total then _ else _) = _
        rw [if_neg hzero, if_neg hle]
      · omega
  · refine ⟨selectRange total s m n, ?_, fun i => ?_⟩
    · simp only [hsplit, pageNumber, hfirst, hlast]
      show (if m = 0 ∨ n = 0 then _ else _) = _
      rw [if_neg hzero]
    · rw [selectRange, OrderedSet.mem_foldl_insert, exists_sub_one_iff]
      exact Nat.pos_of_ne_zero fun hm => hzero (.inl hm)

lemma selectItem_of_none (s : OrderedSet ℕ) (h : itemBounds part = none) :
    ∃ e, selectItem total s part = .error e := by
  rw [itemBounds] at h
  rw [selectItem]
  cases hsplit : splitAround ['-'] (trim part) with
  | none =>
    rw [hsplit] at h
    cases hnumber : parseUsize (trim part) with
    | none =>
      simp only [pageNumber, hnumber]
      exact ⟨_, rfl⟩
    | some k =>
      simp only [hnumber] at h
      split_ifs at h with hzero
      simp only [pageNumber, hnumber]
      exact ⟨notOneBased, if_pos hzero⟩
  | some p =>
    obtain ⟨before, after⟩ := p
    rw [hsplit] at h
    cases hfirst : parseUsize (trim before) with
    | none =>
      simp only [pageNumber, hfirst]
      exact ⟨_, rfl⟩
    | some k =>
      cases hlast : parseUsize (trim after) with
      | none =>
        simp only [pageNumber, hfirst, hlast]
        exact ⟨_, rfl⟩
      | some l =>
        simp only [hfirst, hlast] at h
        split_ifs at h with hzero
        simp only [pageNumber, hfirst, hlast]
        exact ⟨notOneBased, if_pos hzero⟩

end

lemma foldlM_selectItem (total : ℕ) {items : List (List Char)}
    (h : ∀ item ∈ items, ∃ m n, Item item m n) (s : OrderedSet ℕ) :
    ∃ s', items.foldlM (selectItem total) s = .ok s' ∧
      ∀ i, i ∈ s'.elems ↔ i ∈ s.elems ∨
        i < total ∧ ∃ item ∈ items, ∃ m n, Item item m n ∧ m ≤ i + 1 ∧ i + 1 ≤ n := by
  induction items generalizing s with
  | nil => exact ⟨s, rfl, by simp⟩
  | cons item items ih =>
    obtain ⟨m, n, hitem⟩ := h item List.mem_cons_self
    obtain ⟨s₁, hs₁, hmem₁⟩ := selectItem_of_some total s (item_iff.mp hitem)
    obtain ⟨s₂, hs₂, hmem₂⟩ := ih (fun item hi => h item (List.mem_cons_of_mem _ hi)) s₁
    refine ⟨s₂, ?_, fun i => ?_⟩
    · rw [List.foldlM_cons, hs₁]
      exact hs₂
    · have hhead : (∃ k l, Item item k l ∧ k ≤ i + 1 ∧ i + 1 ≤ l) ↔ m ≤ i + 1 ∧ i + 1 ≤ n := by
        constructor
        · rintro ⟨k, l, hkl, hle⟩
          cases (item_iff.mp hkl).symm.trans (item_iff.mp hitem)
          exact hle
        · exact fun hle => ⟨m, n, hitem, hle⟩
      rw [hmem₂, hmem₁, or_assoc]
      simp only [List.exists_mem_cons_iff, hhead]
      rw [← and_or_left]

lemma foldlM_selectItem_error (total : ℕ) {items : List (List Char)}
    (h : ∃ item ∈ items, ¬∃ m n, Item item m n) (s : OrderedSet ℕ) :
    ∃ e, items.foldlM (selectItem total) s = .error e := by
  induction items generalizing s with
  | nil => simp at h
  | cons item items ih =>
    cases hbounds : itemBounds item with
    | none =>
      obtain ⟨e, he⟩ := selectItem_of_none total s hbounds
      refine ⟨e, ?_⟩
      rw [List.foldlM_cons, he]
      rfl
    | some p =>
      obtain ⟨m, n⟩ := p
      obtain ⟨s', hs', -⟩ := selectItem_of_some total s hbounds
      rcases (List.exists_mem_cons_iff _ _ _).mp h with hno | htail
      · exact absurd ⟨m, n, item_iff.mpr hbounds⟩ hno
      · obtain ⟨e, he⟩ := ih htail s'
        refine ⟨e, ?_⟩
        rw [List.foldlM_cons, hs']
        exact he

/-- A selection is rejected exactly if one of its items is not in the grammar; otherwise it gives
the pages that are listed. -/
theorem selectPages_rejects_or_selects (pages : List String) (range : String) :
    ((∃ e, selectPages pages range = .error e) ∧
      ∃ item ∈ range.toList.splitOn ',', ¬∃ m n, Item item m n) ∨
    ((∀ item ∈ range.toList.splitOn ',', ∃ m n, Item item m n) ∧
      ∃ selected, selectPages pages range = .ok selected ∧ IsSelection pages range selected) := by
  by_cases h : ∃ item ∈ range.toList.splitOn ',', ¬∃ m n, Item item m n
  · obtain ⟨e, he⟩ := foldlM_selectItem_error pages.length h OrderedSet.empty
    refine .inl ⟨⟨e, ?_⟩, h⟩
    rw [selectPages, he]
    rfl
  · have hall : ∀ item ∈ range.toList.splitOn ',', ∃ m n, Item item m n := by
      intro item hitem
      by_contra hno
      exact h ⟨item, hitem, hno⟩
    obtain ⟨s, hs, hmem⟩ := foldlM_selectItem pages.length hall OrderedSet.empty
    refine .inr ⟨hall, s.elems.filterMap fun i => pages[i]?, ?_, s.elems, s.ascending, ?_, rfl⟩
    · rw [selectPages, hs]
      rfl
    · intro i
      rw [hmem i]
      exact or_iff_right List.not_mem_nil

example : selectPages ["a", "b", "c"] "3, 2 - 9" = .ok ["b", "c"] := by decide +kernel

end Arbeiterfarm.Tools.Pages
