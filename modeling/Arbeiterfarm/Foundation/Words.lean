import Mathlib.Data.List.Basic
import Mathlib.Data.List.Infix

/-!
# Words of a list

A word is a run of elements with `p` that ends at other elements on both sides. `mapWords` replaces
every word by its image. `cutWords` goes through the list as a scanner does and cuts out the
occurrences of one list between two word boundaries; if that list is itself a word, to fill the gaps
is to replace this word (`fill_cutWords`).
-/

namespace Foundation.Words

variable {α β γ : Type*} (p : α → Bool)

/-! ### Replacing the words -/

section

/-- A run of elements that is not empty. -/
def IsWord (w : List α) : Prop := w ≠ [] ∧ ∀ a ∈ w, p a

/-- The words of the list, which begins after the part `word` of the first one. -/
def words : List α → List α → List (List α)
  | word, [] => if word.isEmpty then [] else [word]
  | word, a :: l =>
    if p a then words (word ++ [a]) l else (if word.isEmpty then [] else [word]) ++ words [] l

variable (f : List α → List α)

/-- The image of a word; no elements are no word. -/
def image (word : List α) : List α := if word.isEmpty then [] else f word

/-- Every word is replaced by its image. The list begins after the part `word` of a word. -/
def mapWords : List α → List α → List α
  | word, [] => image f word
  | word, a :: l => if p a then mapWords (word ++ [a]) l else image f word ++ a :: mapWords [] l

@[simp] lemma image_nil : image f [] = [] := rfl

lemma image_of_ne_nil {word : List α} (h : word ≠ []) : image f word = f word :=
  if_neg (by simpa using h)

variable {p}

lemma mapWords_cons_of_pos {a : α} (ha : p a) (word l : List α) :
    mapWords p f word (a :: l) = mapWords p f (word ++ [a]) l := by
  rw [mapWords, if_pos ha]

lemma mapWords_cons_of_neg {a : α} (ha : ¬ p a) (word l : List α) :
    mapWords p f word (a :: l) = image f word ++ a :: mapWords p f [] l := by
  rw [mapWords, if_neg ha]

lemma mapWords_append_of_pos {w : List α} (hw : ∀ a ∈ w, p a) (word l : List α) :
    mapWords p f word (w ++ l) = mapWords p f (word ++ w) l := by
  induction w generalizing word with
  | nil => simp
  | cons a w ih =>
    rw [List.cons_append, mapWords_cons_of_pos f (hw a List.mem_cons_self),
      ih fun b hb => hw b (List.mem_cons_of_mem _ hb), List.append_assoc, List.singleton_append]

lemma mapWords_append_of_neg {v : List α} (hv : ∀ a ∈ v, ¬ p a) (hne : v ≠ []) (word l : List α) :
    mapWords p f word (v ++ l) = image f word ++ (v ++ mapWords p f [] l) := by
  induction v generalizing word with
  | nil => exact absurd rfl hne
  | cons a v ih =>
    rw [List.cons_append, mapWords_cons_of_neg f (hv a List.mem_cons_self)]
    by_cases hnil : v = []
    · rw [hnil, List.nil_append, List.singleton_append]
    · rw [ih (fun b hb => hv b (List.mem_cons_of_mem _ hb)) hnil, image_nil, List.nil_append,
        List.cons_append]

lemma mapWords_eq_self {f : List α → List α} (hf : ∀ w, w ≠ [] → (∀ a ∈ w, p a) → f w = w)
    {word : List α} (hword : ∀ a ∈ word, p a) (l : List α) : mapWords p f word l = word ++ l := by
  have himage : ∀ w : List α, (∀ a ∈ w, p a) → image f w = w := by
    intro w hw
    cases w with
    | nil => rfl
    | cons a w => exact hf _ (List.cons_ne_nil _ _) hw
  induction l generalizing word with
  | nil => rw [mapWords, himage word hword, List.append_nil]
  | cons a l ih =>
    by_cases ha : p a
    · rw [mapWords_cons_of_pos f ha, ih, List.append_assoc, List.singleton_append]
      exact List.forall_mem_append.mpr ⟨hword, List.forall_mem_singleton.mpr ha⟩
    · rw [mapWords_cons_of_neg f ha, himage word hword, ih (List.forall_mem_nil _), List.nil_append]

/-! ### The words themselves -/

lemma words_cons_of_pos {a : α} (ha : p a) (word l : List α) :
    words p word (a :: l) = words p (word ++ [a]) l := by
  rw [words, if_pos ha]

lemma words_cons_of_neg {a : α} (ha : ¬ p a) (word l : List α) :
    words p word (a :: l) = (if word.isEmpty then [] else [word]) ++ words p [] l := by
  rw [words, if_neg ha]

lemma isWord_of_mem_words {word l w : List α} (hword : ∀ a ∈ word, p a)
    (hw : w ∈ words p word l) : IsWord p w := by
  have hlast : ∀ {v : List α}, (∀ a ∈ v, p a) → w ∈ (if v.isEmpty then [] else [v]) →
      IsWord p w := by
    intro v hv hmem
    cases v with
    | nil => cases hmem
    | cons a v =>
      obtain rfl := List.mem_singleton.mp hmem
      exact ⟨List.cons_ne_nil _ _, hv⟩
  induction l generalizing word with
  | nil => exact hlast hword hw
  | cons a l ih =>
    by_cases ha : p a
    · rw [words_cons_of_pos ha] at hw
      exact ih (List.forall_mem_append.mpr ⟨hword, List.forall_mem_singleton.mpr ha⟩) hw
    · rw [words_cons_of_neg ha, List.mem_append] at hw
      exact hw.elim (hlast hword) fun hrest => ih (List.forall_mem_nil _) hrest

/-- Only the images of the words matter. -/
lemma mapWords_congr {f g : List α → List α} {word l : List α}
    (h : ∀ w ∈ words p word l, f w = g w) : mapWords p f word l = mapWords p g word l := by
  have himage : ∀ {v : List α}, (∀ w ∈ (if v.isEmpty then [] else [v]), f w = g w) →
      image f v = image g v := by
    intro v hv
    cases v with
    | nil => rfl
    | cons a v => exact hv _ (List.mem_singleton.mpr rfl)
  induction l generalizing word with
  | nil => exact himage h
  | cons a l ih =>
    by_cases ha : p a
    · rw [words_cons_of_pos ha] at h
      rw [mapWords_cons_of_pos f ha, mapWords_cons_of_pos g ha, ih h]
    · rw [words_cons_of_neg ha, List.forall_mem_append] at h
      rw [mapWords_cons_of_neg f ha, mapWords_cons_of_neg g ha, himage h.1, ih h.2]

/-- What acts on both sides of each element of no word by itself acts on each word by itself. -/
lemma eq_mapWords {f : List α → List α} (hnil : f [] = [])
    (hcut : ∀ x a l, ¬ p a → f (x ++ a :: l) = f x ++ a :: f l) (l : List α) :
    f l = mapWords p f [] l := by
  have himage : ∀ w, f w = image f w := by
    intro w
    cases w with
    | nil => exact hnil
    | cons a w => rfl
  have hread : ∀ word, f (word ++ l) = mapWords p f word l := by
    induction l with
    | nil =>
      intro word
      rw [List.append_nil, mapWords, himage]
    | cons a l ih =>
      intro word
      by_cases ha : p a
      · rw [mapWords_cons_of_pos f ha, ← ih, List.append_assoc, List.singleton_append]
      · rw [mapWords_cons_of_neg f ha, hcut _ _ _ ha, himage, ← ih, List.nil_append]
  exact hread []

lemma eq_of_append_cons_eq {a : α} {x y u v : List α} (hx : a ∉ x) (hy : a ∉ y)
    (h : x ++ a :: u = y ++ a :: v) : x = y ∧ u = v := by
  induction x generalizing y with
  | nil =>
    cases y with
    | nil => exact ⟨rfl, (List.cons.inj h).2⟩
    | cons b y => exact absurd (by simp [(List.cons.inj h).1]) hy
  | cons b x ih =>
    cases y with
    | nil => exact absurd (by simp [(List.cons.inj h).1]) hx
    | cons c y =>
      obtain ⟨rfl, hrest⟩ := List.cons.inj h
      have ⟨hxy, huv⟩ := ih (fun hmem => hx (List.mem_cons_of_mem _ hmem))
        (fun hmem => hy (List.mem_cons_of_mem _ hmem)) hrest
      exact ⟨by rw [hxy], huv⟩

/-- Images that do not go beyond the words can be read off. -/
lemma mapWords_inj {f g : List α → List α} {word l : List α}
    (hf : ∀ w ∈ words p word l, ∀ a ∈ f w, p a) (hg : ∀ w ∈ words p word l, ∀ a ∈ g w, p a)
    (h : mapWords p f word l = mapWords p g word l) : ∀ w ∈ words p word l, f w = g w := by
  induction l generalizing word with
  | nil =>
    cases word with
    | nil => exact fun w hw => (nomatch hw)
    | cons b word =>
      intro w hw
      obtain rfl := List.mem_singleton.mp hw
      exact h
  | cons a l ih =>
    by_cases ha : p a
    · rw [words_cons_of_pos ha] at hf hg ⊢
      rw [mapWords_cons_of_pos f ha, mapWords_cons_of_pos g ha] at h
      exact ih hf hg h
    · rw [words_cons_of_neg ha, List.forall_mem_append] at hf hg ⊢
      rw [mapWords_cons_of_neg f ha, mapWords_cons_of_neg g ha] at h
      have hfree : ∀ {i : List α → List α},
          (∀ w ∈ (if word.isEmpty then [] else [word]), ∀ b ∈ i w, p b) → a ∉ image i word := by
        intro i hi hmem
        cases word with
        | nil => cases hmem
        | cons b word => exact ha (hi _ List.mem_cons_self a hmem)
      obtain ⟨hword, hrest⟩ := eq_of_append_cons_eq (hfree hf.1) (hfree hg.1) h
      refine ⟨?_, ih hf.2 hg.2 hrest⟩
      cases word with
      | nil => exact fun w hw => (nomatch hw)
      | cons b word =>
        intro w hw
        obtain rfl := List.mem_singleton.mp hw
        exact hword
/-- Elements written out so that each can be told from the ones before it and behind it. -/
structure IsCode (p : α → Bool) (q : β → Bool) (e : α → List β) : Prop where
  ne_nil : ∀ a, e a ≠ []
  prefixFree : ∀ a b x y, e a ++ x = e b ++ y → a = b
  /-- Only the first element of a code is the first one of any. -/
  first : ∀ a b, ∀ c ∈ (e a).tail, (e b).head? ≠ some c
  inWord : ∀ a, ∀ b ∈ e a, q b = p a

/-- The words of what is written out are the words written out. -/
lemma mapWords_flatMap {q : β → Bool} {e : α → List β} (he : IsCode p q e) {f : List α → List α}
    {f' : List β → List β} (hf : ∀ w, f' (w.flatMap e) = (f w).flatMap e) (word l : List α) :
    mapWords q f' (word.flatMap e) (l.flatMap e) = (mapWords p f word l).flatMap e := by
  have himage : ∀ w : List α, image f' (w.flatMap e) = (image f w).flatMap e := by
    intro w
    cases w with
    | nil => rfl
    | cons a w =>
      rw [image_of_ne_nil f' (by simp [he.ne_nil]), image_of_ne_nil f (List.cons_ne_nil _ _), hf]
  induction l generalizing word with
  | nil => exact himage word
  | cons a l ih =>
    rw [List.flatMap_cons]
    by_cases ha : p a
    · have hq : ∀ b ∈ e a, q b := fun b hb => (he.inWord a b hb).trans ha
      rw [mapWords_append_of_pos f' hq, mapWords_cons_of_pos f ha, ← ih]
      simp
    · have hq : ∀ b ∈ e a, ¬ q b := fun b hb => by rwa [he.inWord a b hb]
      rw [mapWords_append_of_neg f' hq (he.ne_nil a), mapWords_cons_of_neg f ha, himage,
        ← List.flatMap_nil (f := e), ih]
      simp

end

/-! ### Cutting out one word -/

section

variable [DecidableEq α]

/-- There is no element of a word at this place. -/
def outside (a : Option α) : Bool := a.all fun a => !p a

/-- `new` instead of `old`, and every other word as it is. -/
def instead (old new word : List α) : List α := if word = old then new else word

/-- The elements of the list, with `none` for each occurrence of `old` between two boundaries.
The list begins after `before`, and its first `skip` elements belong to the last occurrence. -/
def cutWords (old : List α) : ℕ → Option α → List α → List (Option α)
  | _, _, [] => []
  | skip + 1, _, a :: l => cutWords old skip (some a) l
  | 0, before, a :: l =>
    if old <+: a :: l ∧ outside p before ∧ outside p ((a :: l).drop old.length).head? then
      none :: cutWords old (old.length - 1) (some a) l
    else some a :: cutWords old 0 (some a) l

/-- The gaps are filled, and each element that was kept is written out. -/
def fill (e : α → List β) (new : List β) (tokens : List (Option α)) : List β :=
  tokens.flatMap fun t => t.elim new e

end

section

@[simp] lemma fill_nil (e : α → List β) (new : List β) : fill e new [] = [] := rfl

@[simp] lemma fill_cons_none (e : α → List β) (new : List β) (tokens : List (Option α)) :
    fill e new (none :: tokens) = new ++ fill e new tokens := rfl

@[simp] lemma fill_cons_some (e : α → List β) (new : List β) (a : α) (tokens : List (Option α)) :
    fill e new (some a :: tokens) = e a ++ fill e new tokens := rfl

@[simp] lemma fill_append (e : α → List β) (new : List β) (tokens rest : List (Option α)) :
    fill e new (tokens ++ rest) = fill e new tokens ++ fill e new rest := by
  simp [fill]

lemma fill_map_some (e : α → List β) (new : List β) (l : List α) :
    fill e new (l.map some) = l.flatMap e := by
  simp [fill, List.flatMap_map]

lemma fill_of_not_mem (e : α → List β) (new new' : List β) {tokens : List (Option α)}
    (h : none ∉ tokens) : fill e new tokens = fill e new' tokens := by
  induction tokens with
  | nil => rfl
  | cons t tokens ih =>
    cases t with
    | none => exact absurd List.mem_cons_self h
    | some a =>
      rw [fill_cons_some, fill_cons_some, ih fun hmem => h (List.mem_cons_of_mem _ hmem)]

lemma fill_congr {e e' : α → List β} (new : List β) {tokens : List (Option α)}
    (h : ∀ a, some a ∈ tokens → e a = e' a) : fill e new tokens = fill e' new tokens := by
  induction tokens with
  | nil => rfl
  | cons t tokens ih =>
    have ih := ih fun a ha => h a (List.mem_cons_of_mem _ ha)
    cases t with
    | none => rw [fill_cons_none, fill_cons_none, ih]
    | some a => rw [fill_cons_some, fill_cons_some, h a List.mem_cons_self, ih]

lemma flatMap_fill (e : α → List β) (g : β → List γ) (new : List β) (tokens : List (Option α)) :
    (fill e new tokens).flatMap g =
      fill (fun a => (e a).flatMap g) (new.flatMap g) tokens := by
  induction tokens with
  | nil => rfl
  | cons t tokens ih =>
    cases t with
    | none => rw [fill_cons_none, fill_cons_none, List.flatMap_append, ih]
    | some a => rw [fill_cons_some, fill_cons_some, List.flatMap_append, ih]

lemma length_fill_le {e e' : α → List β} {new new' : List β}
    (he : ∀ a, (e a).length ≤ (e' a).length) (hnew : new.length ≤ new'.length)
    (tokens : List (Option α)) : (fill e new tokens).length ≤ (fill e' new' tokens).length := by
  induction tokens with
  | nil => exact Nat.le_refl _
  | cons t tokens ih =>
    cases t with
    | none =>
      rw [fill_cons_none, fill_cons_none, List.length_append, List.length_append]
      exact Nat.add_le_add hnew ih
    | some a =>
      rw [fill_cons_some, fill_cons_some, List.length_append, List.length_append]
      exact Nat.add_le_add (he a) ih

/-- Writing elements out changes nothing only if none gets longer. -/
lemma length_eq_one_of_fill_eq {e : α → List α} {new : List α} {tokens : List (Option α)}
    (he : ∀ a, 1 ≤ (e a).length) (h : fill e new tokens = fill (fun a => [a]) new tokens) :
    ∀ a, some a ∈ tokens → (e a).length = 1 := by
  induction tokens with
  | nil => exact fun a ha => (nomatch ha)
  | cons t tokens ih =>
    intro a ha
    cases t with
    | none =>
      rw [fill_cons_none, fill_cons_none, List.append_cancel_left_eq] at h
      exact ih h a (by simpa using ha)
    | some b =>
      rw [fill_cons_some, fill_cons_some] at h
      have hlen := congrArg List.length h
      rw [List.length_append, List.length_append, List.length_singleton] at hlen
      have hrest : (fill (fun a => [a]) new tokens).length ≤ (fill e new tokens).length :=
        length_fill_le he (Nat.le_refl _) tokens
      have hb := he b
      have hone : (e b).length = 1 := by omega
      rcases List.mem_cons.mp ha with heq | hmem
      · rw [Option.some.inj heq]
        exact hone
      · exact ih (List.append_inj h hone).2 a hmem

/-- A measure that adds up sees in the gaps only how much they hold. -/
lemma measure_fill_congr {m : List β → ℕ} (hm : ∀ x y, m (x ++ y) = m x + m y)
    {new new' : List β} (h : m new = m new') (e : α → List β) (tokens : List (Option α)) :
    m (fill e new tokens) = m (fill e new' tokens) := by
  induction tokens with
  | nil => rfl
  | cons t tokens ih => cases t <;> simp [hm, ih, h]

lemma fill_flatMap (f : β → List γ) (e : α → List β) (new : List γ) (tokens : List (Option α)) :
    fill f new (tokens.flatMap fun t => t.elim [none] fun a => (e a).map some) =
      fill (fun a => (e a).flatMap f) new tokens := by
  induction tokens with
  | nil => rfl
  | cons t tokens ih => cases t <;> simp [ih, fill_map_some]

lemma mem_of_mem_fill {e : β → List α} {new : List α} {tokens : List (Option β)}
    (old : List α) {a : α} (h : a ∈ fill e new tokens) : a ∈ fill e old tokens ∨ a ∈ new := by
  induction tokens with
  | nil => cases h
  | cons t tokens ih =>
    cases t with
    | none =>
      rw [fill_cons_none, List.mem_append] at h
      rcases h with hnew | hrest
      · exact Or.inr hnew
      · exact (ih hrest).imp_left fun hmem => by simp [hmem]
    | some b =>
      rw [fill_cons_some, List.mem_append] at h
      rcases h with hb | hrest
      · exact Or.inl (by simp [hb])
      · exact (ih hrest).imp_left fun hmem => by simp [hmem]

/-- Writing elements out adds none with `q`, if none is in the gaps, only if it adds none to any. -/
lemma countP_fill_le {q : α → Bool} {e : α → List α} {old new : List α}
    (hgap : new.countP q = old.countP q) (he : ∀ a, [a].countP q ≤ (e a).countP q)
    (tokens : List (Option α)) :
    (fill (fun a => [a]) old tokens).countP q ≤ (fill e new tokens).countP q ∧
      ((fill e new tokens).countP q = (fill (fun a => [a]) old tokens).countP q →
        ∀ a, some a ∈ tokens → (e a).countP q = [a].countP q) := by
  induction tokens with
  | nil => exact ⟨Nat.le_refl _, fun _ a ha => (nomatch ha)⟩
  | cons t tokens ih =>
    obtain ⟨hle, hall⟩ := ih
    cases t with
    | none =>
      rw [fill_cons_none, fill_cons_none, List.countP_append, List.countP_append, hgap]
      refine ⟨Nat.add_le_add_left hle _, fun heq a ha => ?_⟩
      exact hall (Nat.add_left_cancel heq) a (by simpa using ha)
    | some b =>
      have hb := he b
      rw [fill_cons_some, fill_cons_some, List.countP_append, List.countP_append]
      refine ⟨Nat.add_le_add hb hle, fun heq a ha => ?_⟩
      rcases List.mem_cons.mp ha with hab | hmem
      · rw [Option.some.inj hab]
        omega
      · exact hall (by omega) a hmem

/-- What is in the gaps can be read off. -/
lemma eq_of_fill_eq {e : α → List β} {new new' : List β} {tokens : List (Option α)}
    (h : fill e new tokens = fill e new' tokens) (hnone : none ∈ tokens) : new = new' := by
  induction tokens with
  | nil => cases hnone
  | cons t tokens ih =>
    cases t with
    | none =>
      rw [fill_cons_none, fill_cons_none] at h
      have hsum := congrArg List.length h
      rw [List.length_append, List.length_append] at hsum
      have hle : new.length = new'.length := by
        rcases Nat.le_total new.length new'.length with hlen | hlen
        · have := length_fill_le (fun a => Nat.le_refl (e a).length) hlen tokens
          omega
        · have := length_fill_le (fun a => Nat.le_refl (e a).length) hlen tokens
          omega
      exact (List.append_inj h hle).1
    | some a =>
      rw [fill_cons_some, fill_cons_some, List.append_cancel_left_eq] at h
      exact ih h (by simpa using hnone)

variable {p}

@[simp] lemma outside_none : outside p none = true := rfl

@[simp] lemma outside_some (a : α) : outside p (some a) = !p a := rfl

/-- A word is complete if no element of a word follows. -/
lemma mapWords_of_outside (f : List α → List α) {l : List α} (h : outside p l.head?)
    (word : List α) : mapWords p f word l = image f word ++ mapWords p f [] l := by
  cases l with
  | nil => simp [mapWords]
  | cons a l =>
    have ha : ¬ p a := by simpa using h
    rw [mapWords_cons_of_neg f ha, mapWords_cons_of_neg f ha, image_nil, List.nil_append]

lemma outside_dropWhile (l : List α) : outside p (l.dropWhile p).head? := by
  have h := List.head?_dropWhile_not p l
  cases hhead : (l.dropWhile p).head? with
  | none => rfl
  | some a =>
    rw [hhead] at h
    simp [h]

namespace IsCode

variable {q : β → Bool} {e : α → List β} (he : IsCode p q e)
include he

lemma exists_of_flatMap_append {x l : List α} {r : List β}
    (h : l.flatMap e = x.flatMap e ++ r) : ∃ y, l = x ++ y ∧ r = y.flatMap e := by
  induction x generalizing l with
  | nil => exact ⟨l, rfl, h.symm⟩
  | cons a x ih =>
    cases l with
    | nil =>
      have hnil := (List.append_eq_nil_iff.mp h.symm).1
      rw [List.flatMap_cons] at hnil
      exact absurd (List.append_eq_nil_iff.mp hnil).1 (he.ne_nil a)
    | cons b l =>
      rw [List.flatMap_cons, List.flatMap_cons, List.append_assoc] at h
      obtain rfl := he.prefixFree b a _ _ h
      obtain ⟨y, rfl, hr⟩ := ih (List.append_cancel_left h)
      exact ⟨y, rfl, hr⟩

lemma outside_head? (l : List α) : outside q (l.flatMap e).head? = outside p l.head? := by
  cases l with
  | nil => rfl
  | cons a l =>
    obtain ⟨b, x, hx⟩ := List.exists_cons_of_ne_nil (he.ne_nil a)
    have hb := he.inWord a b (by simp [hx])
    simp [hx, hb]

lemma outside_getLast? (l : List α) :
    outside q (l.flatMap e).getLast? = outside p l.getLast? := by
  rcases List.eq_nil_or_concat l with rfl | ⟨x, a, rfl⟩
  · rfl
  · have hlast := List.getLast?_eq_some_getLast (he.ne_nil a)
    have hb := he.inWord a _ (List.getLast_mem (he.ne_nil a))
    simp [List.flatMap_append, List.getLast?_append, hlast, hb]

end IsCode

variable [DecidableEq α] {old : List α}

@[simp] lemma instead_self (old new : List α) : instead old new old = new := if_pos rfl

lemma instead_of_ne (new : List α) {word : List α} (h : word ≠ old) :
    instead old new word = word := if_neg h

lemma cutWords_skip (x : List α) (before : Option α) (l : List α) :
    cutWords p old x.length before (x ++ l) = cutWords p old 0 (x.getLast?.or before) l := by
  induction x generalizing before with
  | nil => rfl
  | cons a x ih =>
    rw [List.cons_append, List.length_cons, cutWords, ih]
    cases x with
    | nil => rfl
    | cons b x => simp [List.getLast?_cons]

/-- At an occurrence of `old` between two boundaries. -/
lemma cutWords_of_match (hold : old ≠ []) {before : Option α} {l : List α}
    (hbefore : outside p before) (hafter : outside p l.head?) :
    cutWords p old 0 before (old ++ l) = none :: cutWords p old 0 old.getLast? l := by
  obtain ⟨a, x, rfl⟩ := List.exists_cons_of_ne_nil hold
  rw [List.cons_append, cutWords, ← List.cons_append, if_pos]
  · rw [List.length_cons, Nat.add_sub_cancel, cutWords_skip]
    cases x with
    | nil => rfl
    | cons b x => simp [List.getLast?_cons]
  · exact ⟨List.prefix_append _ _, hbefore, by rwa [List.drop_left]⟩

/-- At any other element. -/
lemma cutWords_of_not_match {before : Option α} {a : α} {l : List α}
    (h : ∀ y, a :: l = old ++ y → outside p before → ¬ outside p y.head?) :
    cutWords p old 0 before (a :: l) = some a :: cutWords p old 0 (some a) l := by
  rw [cutWords, if_neg]
  rintro ⟨⟨y, hy⟩, hbefore, hafter⟩
  rw [← hy, List.drop_left] at hafter
  exact h y hy.symm hbefore hafter

/-- An occurrence of a word does not begin at an element that is of no word. -/
lemma cutWords_of_neg (hold : old ≠ []) (hp : ∀ a ∈ old, p a) {a : α} (ha : ¬ p a)
    (before : Option α) (l : List α) :
    cutWords p old 0 before (a :: l) = some a :: cutWords p old 0 (some a) l := by
  refine cutWords_of_not_match fun y hy => ?_
  obtain ⟨b, x, rfl⟩ := List.exists_cons_of_ne_nil hold
  obtain ⟨rfl, -⟩ := List.cons.inj hy
  exact absurd (hp a List.mem_cons_self) ha

/-- Too little is left for another occurrence. -/
lemma cutWords_of_length_lt {l : List α} (h : l.length < old.length) (before : Option α) :
    cutWords p old 0 before l = l.map some := by
  induction l generalizing before with
  | nil => rfl
  | cons a l ih =>
    rw [cutWords_of_not_match, ih (Nat.lt_of_succ_lt h), List.map_cons]
    intro y hy
    rw [hy, List.length_append] at h
    omega

/-- With the cut-out list itself in the gaps, the list is as it was. -/
lemma fill_self (hold : old ≠ []) (before : Option α) (l : List α) :
    fill (fun a => [a]) old (cutWords p old 0 before l) = l := by
  induction hn : l.length using Nat.strong_induction_on generalizing before l with
  | _ n ih =>
    cases l with
    | nil => rfl
    | cons a l =>
      by_cases hmatch : ∃ y, a :: l = old ++ y ∧ outside p before ∧ outside p y.head?
      · obtain ⟨y, hy, hbefore, hafter⟩ := hmatch
        have hlt : y.length < n := by
          have hpos := List.length_pos_iff.mpr hold
          rw [← hn, hy, List.length_append]
          omega
        rw [hy, cutWords_of_match hold hbefore hafter, fill_cons_none, ih _ hlt _ _ rfl]
      · rw [cutWords_of_not_match fun y hy hb ha => hmatch ⟨y, hy, hb, ha⟩, fill_cons_some,
          ih l.length (hn ▸ Nat.lt_succ_self _) _ _ rfl, List.singleton_append]

/-- The scan depends on the element before it only at the boundary. -/
lemma cutWords_congr_before (before before' : Option α)
    (h : outside p before = outside p before') (l : List α) :
    cutWords p old 0 before l = cutWords p old 0 before' l := by
  cases l with
  | nil => rfl
  | cons a l => simp only [cutWords, h]

/-- An element that is neither in `old` nor in a word cuts the scan in two. -/
lemma cutWords_append_cons (hold : old ≠ []) {a : α} (ha : ¬ p a) (hmem : a ∉ old)
    (before : Option α) (x l : List α) :
    cutWords p old 0 before (x ++ a :: l) =
      cutWords p old 0 before x ++ some a :: cutWords p old 0 none l := by
  induction hn : x.length using Nat.strong_induction_on generalizing before x with
  | _ n ih =>
    cases x with
    | nil =>
      rw [List.nil_append, cutWords_of_not_match, cutWords_congr_before _ none]
      · rfl
      · simp [ha]
      · rintro y hy
        obtain ⟨b, x, rfl⟩ := List.exists_cons_of_ne_nil hold
        obtain ⟨rfl, -⟩ := List.cons.inj hy
        exact absurd List.mem_cons_self hmem
    | cons b x =>
      by_cases hmatch : ∃ y, b :: x = old ++ y ∧ outside p before ∧ outside p y.head?
      · obtain ⟨y, hy, hbefore, hafter⟩ := hmatch
        have hlt : y.length < n := by
          have hpos := List.length_pos_iff.mpr hold
          rw [← hn, hy, List.length_append]
          exact Nat.lt_add_of_pos_left hpos
        have hafter' : outside p (y ++ a :: l).head? := by
          cases y with
          | nil => simpa using ha
          | cons c y => exact hafter
        rw [hy, List.append_assoc, cutWords_of_match hold hbefore hafter',
          cutWords_of_match hold hbefore hafter, ih _ hlt _ _ rfl, List.cons_append]
      · have hnot : ∀ y, b :: (x ++ a :: l) = old ++ y → outside p before →
            ¬ outside p y.head? := by
          intro y hy hbefore hafter
          rw [← List.cons_append] at hy
          rcases List.append_eq_append_iff.mp hy with ⟨z, hz, hrest⟩ | ⟨z, hz, rfl⟩
          · -- `old` does not go beyond the cut
            cases z with
            | nil =>
              rw [List.append_nil] at hz
              exact hmatch ⟨[], by rw [List.append_nil, hz], hbefore, rfl⟩
            | cons c z =>
              obtain ⟨rfl, -⟩ := List.cons.inj hrest
              exact hmem (by simp [hz])
          · refine hmatch ⟨z, hz, hbefore, ?_⟩
            cases z with
            | nil => rfl
            | cons c z => exact hafter
        rw [List.cons_append, cutWords_of_not_match hnot,
          cutWords_of_not_match fun y hy hb hl => hmatch ⟨y, hy, hb, hl⟩,
          ih x.length (hn ▸ Nat.lt_succ_self _) _ _ rfl, List.cons_append]

/-- Where `old` does not begin, all is kept. -/
lemma cutWords_append_of_not_head {v : List α} (hv : ∀ a ∈ v, old.head? ≠ some a)
    (hold : old ≠ []) (before : Option α) (l : List α) :
    cutWords p old 0 before (v ++ l) =
      v.map some ++ cutWords p old 0 (v.getLast?.or before) l := by
  induction v generalizing before with
  | nil => rfl
  | cons a v ih =>
    rw [List.cons_append, cutWords_of_not_match, ih fun b hb => hv b (List.mem_cons_of_mem _ hb)]
    · cases v with
      | nil => rfl
      | cons b v => simp [List.getLast?_cons]
    · intro y hy
      obtain ⟨b, x, rfl⟩ := List.exists_cons_of_ne_nil hold
      obtain ⟨rfl, -⟩ := List.cons.inj hy
      exact absurd rfl (hv a List.mem_cons_self)

/-- The scan of what is written out is the scan written out. -/
lemma cutWords_flatMap [DecidableEq β] {q : β → Bool} {e : α → List β} (he : IsCode p q e)
    (hold : old ≠ []) {before : Option α} {before' : Option β}
    (h : outside q before' = outside p before)
    (l : List α) :
    cutWords q (old.flatMap e) 0 before' (l.flatMap e) =
      (cutWords p old 0 before l).flatMap fun t => t.elim [none] fun a => (e a).map some := by
  have hold' : old.flatMap e ≠ [] := by
    obtain ⟨a, x, rfl⟩ := List.exists_cons_of_ne_nil hold
    simp [he.ne_nil a]
  induction hn : l.length using Nat.strong_induction_on generalizing before before' l with
  | _ n ih =>
    cases l with
    | nil => rfl
    | cons a l =>
      by_cases hmatch : ∃ y, a :: l = old ++ y ∧ outside p before ∧ outside p y.head?
      · obtain ⟨y, hy, hbefore, hafter⟩ := hmatch
        have hlt : y.length < n := by
          have hpos := List.length_pos_iff.mpr hold
          rw [← hn, hy, List.length_append]
          exact Nat.lt_add_of_pos_left hpos
        rw [hy, cutWords_of_match hold hbefore hafter, List.flatMap_append,
          cutWords_of_match hold' (h.trans hbefore) (by rwa [he.outside_head?]),
          ih _ hlt (he.outside_getLast? old) _ rfl]
        rfl
      · rw [cutWords_of_not_match fun y hy hb hl => hmatch ⟨y, hy, hb, hl⟩, List.flatMap_cons]
        obtain ⟨b, v, hbv⟩ := List.exists_cons_of_ne_nil (he.ne_nil a)
        have hfirst : ∀ y, b :: (v ++ l.flatMap e) = old.flatMap e ++ y → outside q before' →
            ¬ outside q y.head? := by
          intro y hy hbefore hafter
          rw [← List.cons_append, ← hbv, ← List.flatMap_cons] at hy
          obtain ⟨z, hz, rfl⟩ := he.exists_of_flatMap_append hy
          rw [he.outside_head?] at hafter
          exact hmatch ⟨z, hz, h ▸ hbefore, hafter⟩
        have hlater : ∀ c ∈ v, (old.flatMap e).head? ≠ some c := by
          intro c hc
          obtain ⟨o, x, rfl⟩ := List.exists_cons_of_ne_nil hold
          obtain ⟨d, w, hd⟩ := List.exists_cons_of_ne_nil (he.ne_nil o)
          have hne := he.first a o c (by simp [hbv, hc])
          rw [hd] at hne
          simpa [hd] using hne
        have hlast : outside q (v.getLast?.or (some b)) = outside p (some a) := by
          have hone := he.outside_getLast? [a]
          rw [List.flatMap_singleton, hbv] at hone
          cases v with
          | nil => exact hone
          | cons c v => simpa [List.getLast?_cons] using hone
        rw [hbv, List.cons_append, cutWords_of_not_match hfirst,
          cutWords_append_of_not_head hlater hold',
          ih l.length (hn ▸ Nat.lt_succ_self _) hlast _ rfl, List.flatMap_cons, Option.elim_some,
          hbv, List.map_cons, List.cons_append]

/-- There is a gap exactly if `old` occurs between two boundaries. -/
lemma none_mem_cutWords_iff (hold : old ≠ []) {before : Option α} {l : List α} :
    none ∈ cutWords p old 0 before l ↔
      ∃ x y, l = x ++ (old ++ y) ∧ outside p (x.getLast?.or before) ∧ outside p y.head? := by
  induction l generalizing before with
  | nil =>
    refine ⟨fun h => (nomatch h), ?_⟩
    rintro ⟨x, y, hxy, -, -⟩
    exact absurd (List.append_eq_nil_iff.mp (List.append_eq_nil_iff.mp hxy.symm).2).1 hold
  | cons a l ih =>
    by_cases hmatch : ∃ y, a :: l = old ++ y ∧ outside p before ∧ outside p y.head?
    · obtain ⟨y, hy, hbefore, hafter⟩ := hmatch
      rw [hy, cutWords_of_match hold hbefore hafter]
      exact ⟨fun _ => ⟨[], y, rfl, hbefore, hafter⟩, fun _ => List.mem_cons_self⟩
    · rw [cutWords_of_not_match fun y hy hb ha => hmatch ⟨y, hy, hb, ha⟩, List.mem_cons, ih]
      constructor
      · rintro (h | ⟨x, y, rfl, hb, ha⟩)
        · cases h
        · refine ⟨a :: x, y, rfl, ?_, ha⟩
          cases x with
          | nil => exact hb
          | cons b x => simpa [List.getLast?_cons] using hb
      · rintro ⟨x, y, hxy, hb, ha⟩
        cases x with
        | nil => exact absurd ⟨y, hxy, hb, ha⟩ hmatch
        | cons b x =>
          obtain ⟨rfl, rfl⟩ := List.cons.inj hxy
          refine Or.inr ⟨x, y, rfl, ?_, ha⟩
          cases x with
          | nil => exact hb
          | cons c x => simpa [List.getLast?_cons] using hb

/-- The part of the list that is read while no occurrence is found. The word that goes on at the
start, `word`, is not `old` at its end, and an occurrence may begin unless a word goes on. -/
lemma append_fill_cutWords (hold : old ≠ []) (hp : ∀ a ∈ old, p a) (new : List α) {word : List α}
    {before : Option α} {l : List α}
    (hnil : word = [] → outside p before ∨ outside p l.head?)
    (hword : word ≠ [] → ¬ outside p before ∧ word ++ l.takeWhile p ≠ old) :
    word ++ fill (fun a => [a]) new (cutWords p old 0 before l) =
      mapWords p (instead old new) word l := by
  have hkeep : ∀ {w : List α}, w ≠ old → image (instead old new) w = w := by
    intro w hw
    cases w with
    | nil => rfl
    | cons b w => exact instead_of_ne new hw
  induction hn : l.length using Nat.strong_induction_on generalizing word before l with
  | _ n ih =>
    cases l with
    | nil =>
      by_cases hempty : word = []
      · rw [hempty]
        rfl
      · have hne := (hword hempty).2
        rw [List.takeWhile_nil, List.append_nil] at hne
        rw [mapWords, hkeep hne]
        exact List.append_nil _
    | cons a l =>
      have hless : l.length < n := hn ▸ Nat.lt_succ_self _
      -- behind an element that is of no word
      have hnext : ¬ p a → [] ++ fill (fun a => [a]) new (cutWords p old 0 (some a) l) =
          mapWords p (instead old new) [] l := fun ha =>
        ih _ hless (fun _ => Or.inl (by simpa using ha)) (fun h => absurd rfl h) rfl
      by_cases hempty : word = []
      · subst hempty
        by_cases ha : p a
        · have hbefore : outside p before := by simpa [ha] using hnil rfl
          by_cases hmatch : ∃ y, a :: l = old ++ y ∧ outside p y.head?
          · obtain ⟨y, hy, hafter⟩ := hmatch
            have hlt : y.length < n := by
              have hpos := List.length_pos_iff.mpr hold
              rw [← hn, hy, List.length_append]
              omega
            have hrest : [] ++ fill (fun a => [a]) new (cutWords p old 0 old.getLast? y) =
                mapWords p (instead old new) [] y :=
              ih _ hlt (fun _ => Or.inr hafter) (fun h => absurd rfl h) rfl
            rw [hy, cutWords_of_match hold hbefore hafter, fill_cons_none,
              mapWords_append_of_pos _ hp, List.nil_append, List.nil_append,
              mapWords_of_outside _ hafter, image_of_ne_nil _ hold, instead_self, ← hrest,
              List.nil_append]
          · -- the word that begins here is not `old`
            have hne : [a] ++ l.takeWhile p ≠ old := by
              rintro rfl
              refine hmatch ⟨l.dropWhile p, ?_, ?_⟩
              · rw [List.append_assoc, List.takeWhile_append_dropWhile, List.singleton_append]
              · exact outside_dropWhile l
            rw [cutWords_of_not_match fun y hy _ hafter => hmatch ⟨y, hy, hafter⟩, fill_cons_some,
              List.nil_append, mapWords_cons_of_pos _ ha, List.nil_append]
            exact ih _ hless (fun h => absurd h (List.cons_ne_nil _ _))
              (fun _ => ⟨by simp [ha], hne⟩) rfl
        · rw [cutWords_of_neg hold hp ha, fill_cons_some, mapWords_cons_of_neg _ ha, image_nil,
            List.nil_append, List.nil_append, List.singleton_append, ← hnext ha, List.nil_append]
      · obtain ⟨hbefore, hne⟩ := hword hempty
        rw [cutWords_of_not_match fun _ _ hb => absurd hb hbefore, fill_cons_some]
        by_cases ha : p a
        · rw [List.takeWhile_cons_of_pos ha] at hne
          rw [mapWords_cons_of_pos _ ha, ← List.append_assoc]
          exact ih _ hless (fun h => absurd h (by simp))
            (fun _ => ⟨by simp [ha], by simpa using hne⟩) rfl
        · rw [List.takeWhile_cons_of_neg ha, List.append_nil] at hne
          rw [mapWords_cons_of_neg _ ha, hkeep hne, ← hnext ha]
          rfl

/-- To replace one word is to cut it out and to fill the gaps. -/
theorem fill_cutWords (hold : old ≠ []) (hp : ∀ a ∈ old, p a) (new l : List α) :
    fill (fun a => [a]) new (cutWords p old 0 none l) =
      mapWords p (instead old new) [] l :=
  append_fill_cutWords hold hp new (fun _ => Or.inl rfl) fun h => absurd rfl h

end

end Foundation.Words
