import Arbeiterfarm.Foundation.Words

/-!
# Several words replaced in turn or at once

A list of pairs says what is put in place of what. In turn, each pair acts on what the pairs before
it have written. At once, a place that was taken by one pair is taken by no later one, and the
boundaries are those of the list as it was. Both act on each stretch between elements that no pair
has by itself, so they can be compared stretch by stretch (`replaceInTurn_eq_replaceTogether_iff`).
-/

namespace Foundation.Words

variable {α : Type*}

/-! ### In turn and at once -/

section

variable (p : α → Bool) [DecidableEq α]

/-- `e.2` in place of `e.1`, where this stands between two boundaries. -/
def replaceWord (e : List α × List α) (l : List α) : List α :=
  if e.1 = [] then l else fill (fun a => [a]) e.2 (cutWords p e.1 0 none l)

def replaceInTurn (entries : List (List α × List α)) (l : List α) : List α :=
  entries.foldl (fun l e => replaceWord p e l) l

/-- What becomes of an element: it stays, a word that is replaced by `new` begins with it, or it
belongs to such a word. -/
inductive Mark (α : Type*)
  | kept
  | first (new : List α)
  | rest
  deriving DecidableEq

def keepAll (l : List α) : List (α × Mark α) := l.map fun a => (a, .kept)

/-- The marks of a word that is replaced. -/
def taken (new : List α) : List α → List (α × Mark α)
  | [] => []
  | a :: old => (a, .first new) :: old.map fun a => (a, .rest)

/-- `e.1` is marked where it stands between two boundaries and no element of it is taken. -/
def markWord (e : List α × List α) (l : List (α × Mark α)) : List (α × Mark α) :=
  if e.1 = [] then l
  else fill (fun a => [a]) (taken e.2 e.1) (cutWords (fun a => p a.1) (keepAll e.1) 0 none l)

def writeMark : α × Mark α → List α
  | (a, .kept) => [a]
  | (_, .first new) => new
  | (_, .rest) => []

def writeOut (l : List (α × Mark α)) : List α := l.flatMap writeMark

def markAll (entries : List (List α × List α)) (l : List (α × Mark α)) : List (α × Mark α) :=
  entries.foldl (fun l e => markWord p e l) l

def replaceTogether (entries : List (List α × List α)) (l : List α) : List α :=
  writeOut (markAll p entries (keepAll l))

end

/-! ### What is written -/

@[simp] lemma writeOut_append (x y : List (α × Mark α)) :
    writeOut (x ++ y) = writeOut x ++ writeOut y := List.flatMap_append

@[simp] lemma writeOut_cons_kept (a : α) (l : List (α × Mark α)) :
    writeOut ((a, .kept) :: l) = a :: writeOut l := rfl

@[simp] lemma keepAll_append_cons (a : α) (x l : List α) :
    keepAll (x ++ a :: l) = keepAll x ++ (a, .kept) :: keepAll l := by
  simp [keepAll]

@[simp] lemma writeOut_keepAll (l : List α) : writeOut (keepAll l) = l := by
  induction l with
  | nil => rfl
  | cons a l ih => exact congrArg (a :: ·) ih

lemma writeOut_taken {old : List α} (hold : old ≠ []) (new : List α) :
    writeOut (taken new old) = new := by
  obtain ⟨a, x, rfl⟩ := List.exists_cons_of_ne_nil hold
  simp [writeOut, taken, writeMark, List.flatMap_map]

lemma keepAll_ne_nil {l : List α} (h : l ≠ []) : keepAll l ≠ [] := by simpa [keepAll] using h

variable {p q : α → Bool} {e : List α × List α} {entries others : List (List α × List α)}

/-- The elements with `q` are those of the words and those of the pairs, and others. -/
structure Covers (p q : α → Bool) (entries : List (List α × List α)) : Prop where
  word : ∀ a, p a → q a
  old : ∀ e ∈ entries, ∀ a ∈ e.1, q a
  new : ∀ e ∈ entries, ∀ a ∈ e.2, q a

lemma Covers.cons (h : Covers p q (e :: entries)) : Covers p q entries :=
  ⟨h.word, fun e he => h.old e (List.mem_cons_of_mem _ he),
    fun e he => h.new e (List.mem_cons_of_mem _ he)⟩

variable [DecidableEq α]

/-- A pair changes what is written at some places only. -/
lemma exists_writeOut_markWord (p : α → Bool) (he : e.1 ≠ []) (l : List (α × Mark α)) :
    ∃ tokens, writeOut l = fill writeMark e.1 tokens ∧
      writeOut (markWord p e l) = fill writeMark e.2 tokens := by
  refine ⟨cutWords (fun a => p a.1) (keepAll e.1) 0 none l, ?_, ?_⟩
  · conv_lhs => rw [← fill_self (p := fun a => p a.1) (keepAll_ne_nil he) none l]
    rw [writeOut, flatMap_fill, ← writeOut, writeOut_keepAll]
    simp
  · rw [markWord, if_neg he, writeOut, flatMap_fill, ← writeOut, writeOut_taken he]
    simp

/-! ### How much is written -/

/-- If each pair holds as much on both sides, so do the lists. -/
lemma measure_replaceTogether {m : List α → ℕ} (hm : ∀ x y, m (x ++ y) = m x + m y)
    (h : ∀ e ∈ entries, m e.2 = m e.1) (l : List α) :
    m (replaceTogether p entries l) = m l := by
  have hmark : ∀ t, m (writeOut (markAll p entries t)) = m (writeOut t) := by
    induction entries with
    | nil => exact fun t => rfl
    | cons e entries ih =>
      intro t
      obtain ⟨hfirst, hrest⟩ := List.forall_mem_cons.mp h
      rw [markAll, List.foldl_cons, ← markAll, ih hrest]
      by_cases he : e.1 = []
      · rw [markWord, if_pos he]
      · obtain ⟨tokens, hbefore, hafter⟩ := exists_writeOut_markWord p he t
        rw [hbefore, hafter, measure_fill_congr hm hfirst]
  rw [replaceTogether, hmark, writeOut_keepAll]

/-! ### One stretch after the other -/

lemma replaceWord_append_cons (hq : Covers p q (e :: entries)) {a : α} (ha : ¬ q a)
    (x l : List α) :
    replaceWord p e (x ++ a :: l) = replaceWord p e x ++ a :: replaceWord p e l := by
  by_cases he : e.1 = []
  · simp [replaceWord, he]
  · have hword : ¬ p a := fun hp => ha (hq.word a hp)
    have hold : a ∉ e.1 := fun hmem => ha (hq.old e List.mem_cons_self a hmem)
    simp [replaceWord, he, cutWords_append_cons he hword hold]

lemma markWord_append_cons (hq : Covers p q (e :: entries)) {a : α} (ha : ¬ q a)
    (x l : List (α × Mark α)) :
    markWord p e (x ++ (a, .kept) :: l) = markWord p e x ++ (a, .kept) :: markWord p e l := by
  by_cases he : e.1 = []
  · simp [markWord, he]
  · have hword : ¬ p a := fun hp => ha (hq.word a hp)
    have hold : (a, Mark.kept) ∉ keepAll e.1 := by
      simpa [keepAll] using fun hmem => ha (hq.old e List.mem_cons_self a hmem)
    simp [markWord, he, cutWords_append_cons (p := fun a : α × Mark α => p a.1)
      (keepAll_ne_nil he) hword hold]

lemma replaceInTurn_append_cons (hq : Covers p q entries) {a : α} (ha : ¬ q a) (x l : List α) :
    replaceInTurn p entries (x ++ a :: l) =
      replaceInTurn p entries x ++ a :: replaceInTurn p entries l := by
  induction entries generalizing x l with
  | nil => rfl
  | cons e entries ih =>
    simp only [replaceInTurn, List.foldl_cons, replaceWord_append_cons hq ha] at ih ⊢
    exact ih hq.cons _ _

lemma markAll_append_cons (hq : Covers p q entries) {a : α} (ha : ¬ q a)
    (x l : List (α × Mark α)) :
    markAll p entries (x ++ (a, .kept) :: l) =
      markAll p entries x ++ (a, .kept) :: markAll p entries l := by
  induction entries generalizing x l with
  | nil => rfl
  | cons e entries ih =>
    simp only [markAll, List.foldl_cons, markWord_append_cons hq ha] at ih ⊢
    exact ih hq.cons _ _

lemma replaceTogether_append_cons (hq : Covers p q entries) {a : α} (ha : ¬ q a) (x l : List α) :
    replaceTogether p entries (x ++ a :: l) =
      replaceTogether p entries x ++ a :: replaceTogether p entries l := by
  simp [replaceTogether, markAll_append_cons hq ha]

lemma forall_mem_replaceInTurn (hq : Covers p q entries) {l : List α} (hl : ∀ a ∈ l, q a) :
    ∀ a ∈ replaceInTurn p entries l, q a := by
  induction entries generalizing l with
  | nil => exact hl
  | cons e entries ih =>
    have hfirst : ∀ a ∈ replaceWord p e l, q a := by
      intro a ha
      by_cases he : e.1 = []
      · rw [replaceWord, if_pos he] at ha
        exact hl a ha
      · rw [replaceWord, if_neg he] at ha
        rcases mem_of_mem_fill e.1 ha with hkept | hnew
        · rw [fill_self he] at hkept
          exact hl a hkept
        · exact hq.new e List.mem_cons_self a hnew
    exact ih hq.cons hfirst

lemma forall_mem_replaceTogether (hq : Covers p q entries) {l : List α} (hl : ∀ a ∈ l, q a) :
    ∀ a ∈ replaceTogether p entries l, q a := by
  have hmark : ∀ t : List (α × Mark α), (∀ a ∈ writeOut t, q a) →
      ∀ a ∈ writeOut (markAll p entries t), q a := by
    induction entries with
    | nil => exact fun t ht => ht
    | cons e entries ih =>
      intro t ht
      have hfirst : ∀ a ∈ writeOut (markWord p e t), q a := by
        intro a ha
        by_cases he : e.1 = []
        · rw [markWord, if_pos he] at ha
          exact ht a ha
        · obtain ⟨tokens, hbefore, hafter⟩ := exists_writeOut_markWord p he t
          rw [hafter] at ha
          rcases mem_of_mem_fill e.1 ha with hkept | hnew
          · exact ht a (hbefore ▸ hkept)
          · exact hq.new e List.mem_cons_self a hnew
      exact ih hq.cons _ hfirst
  exact hmark _ (by rwa [writeOut_keepAll])

lemma replaceInTurn_nil (entries : List (List α × List α)) : replaceInTurn p entries [] = [] := by
  induction entries with
  | nil => rfl
  | cons e entries ih =>
    have hfirst : replaceWord p e [] = [] := by simp [replaceWord, cutWords]
    rw [replaceInTurn, List.foldl_cons, hfirst]
    exact ih

lemma replaceTogether_nil (entries : List (List α × List α)) :
    replaceTogether p entries [] = [] := by
  have hmark : markAll p entries [] = [] := by
    induction entries with
    | nil => rfl
    | cons e entries ih =>
      have hfirst : markWord p e [] = [] := by simp [markWord, cutWords]
      rw [markAll, List.foldl_cons, hfirst]
      exact ih
  exact congrArg writeOut hmark

/-- To replace in turn is to replace at once exactly if it is so on each stretch. -/
theorem replaceInTurn_eq_replaceTogether_iff (hq : Covers p q entries)
    (hothers : Covers p q others) (l : List α) :
    replaceInTurn p entries l = replaceTogether p others l ↔
      ∀ w ∈ words q [] l, replaceInTurn p entries w = replaceTogether p others w := by
  have hturn := eq_mapWords (replaceInTurn_nil entries)
    (fun x a l ha => replaceInTurn_append_cons hq ha x l)
  have htogether := eq_mapWords (replaceTogether_nil others)
    (fun x a l ha => replaceTogether_append_cons hothers ha x l)
  have hword : ∀ w ∈ words q [] l, ∀ a ∈ w, q a := fun w hw =>
    (isWord_of_mem_words (List.forall_mem_nil _) hw).2
  constructor
  · intro h
    rw [hturn, htogether] at h
    exact mapWords_inj (fun w hw => forall_mem_replaceInTurn hq (hword w hw))
      (fun w hw => forall_mem_replaceTogether hothers (hword w hw)) h
  · intro h
    rw [hturn, htogether]
    exact mapWords_congr h

end Foundation.Words
