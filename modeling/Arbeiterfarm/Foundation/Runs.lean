import Mathlib.Data.List.Basic
import Mathlib.Data.Nat.Notation

/-!
# Maximal runs of a list

A run is a part of a list whose elements all satisfy a predicate, and that cannot be extended to
either side. One pass over the list finds all of them, in ascending order.
-/

namespace Foundation.Runs

variable {α : Type*}

/-- A run by its offset and its elements. -/
structure IsRun (p : α → Bool) (l : List α) (r : ℕ × List α) : Prop where
  nonempty : r.2 ≠ []
  all : ∀ a ∈ r.2, p a
  maximal : ∃ pre post, l = pre ++ (r.2 ++ post) ∧ pre.length = r.1 ∧
    (∀ a ∈ pre.getLast?, ¬p a) ∧ ∀ a ∈ post.head?, ¬p a

/-- The run that ends here, if there is one. -/
def closed (o : ℕ) (run : List α) : List (ℕ × List α) := if run.isEmpty then [] else [(o, run)]

/-- The runs of a list that continues the run `run`, which is at offset `o`. -/
def runsFrom (p : α → Bool) (o : ℕ) (run : List α) : List α → List (ℕ × List α)
  | [] => closed o run
  | a :: l =>
    if p a then runsFrom p o (run ++ [a]) l
    else closed o run ++ runsFrom p (o + run.length + 1) [] l

/-- The runs of a list in one pass. -/
def runs (p : α → Bool) (l : List α) : List (ℕ × List α) := runsFrom p 0 [] l

variable {p : α → Bool} {o : ℕ} {run l : List α} {a : α} {r : ℕ × List α}

@[simp] lemma closed_nil (o : ℕ) : closed o ([] : List α) = [] := rfl

lemma closed_of_ne_nil (h : run ≠ []) : closed o run = [(o, run)] :=
  if_neg (by simpa using h)

@[simp] lemma mem_closed : r ∈ closed o run ↔ run ≠ [] ∧ r = (o, run) := by
  by_cases h : run = []
  · simp [h]
  · simp [closed_of_ne_nil h, h]

@[simp] lemma runsFrom_nil (p : α → Bool) (o : ℕ) (run : List α) :
    runsFrom p o run [] = closed o run := rfl

lemma runsFrom_cons_of_pos (h : p a) :
    runsFrom p o run (a :: l) = runsFrom p o (run ++ [a]) l := if_pos h

lemma runsFrom_cons_of_neg (h : ¬p a) :
    runsFrom p o run (a :: l) = closed o run ++ runsFrom p (o + run.length + 1) [] l := if_neg h

/-! ### The pass finds the runs -/

/-- The elements before the first one that fails do not depend on how a list is divided. -/
lemma eq_of_append_eq {s t x y : List α} (h : s ++ x = t ++ y) (hs : ∀ a ∈ s, p a)
    (ht : ∀ a ∈ t, p a) (hx : ∀ a ∈ x.head?, ¬p a) (hy : ∀ a ∈ y.head?, ¬p a) : s = t := by
  have htake {u v : List α} (hu : ∀ a ∈ u, p a) (hv : ∀ a ∈ v.head?, ¬p a) :
      (u ++ v).takeWhile p = u := by
    rw [List.takeWhile_append_of_pos hu]
    cases v with
    | nil => simp
    | cons a v => rw [List.takeWhile_cons_of_neg (hv a rfl), List.append_nil]
  rw [← htake hs hx, h, htake ht hy]

/-- A run that does not begin before the open one is the open one, or it begins after its end. -/
lemma isRun_append_iff {pre post : List α} (hpre : ∀ a ∈ pre.getLast?, ¬p a)
    (hrun : ∀ a ∈ run, p a) (hpost : ∀ a ∈ post.head?, ¬p a) :
    IsRun p (pre ++ (run ++ post)) r ∧ pre.length ≤ r.1 ↔
      (run ≠ [] ∧ r = (pre.length, run)) ∨
        (IsRun p (pre ++ (run ++ post)) r ∧ pre.length + run.length + 1 ≤ r.1) := by
  constructor
  · rintro ⟨h, hle⟩
    obtain ⟨before, after, heq, hlen, hbefore, hafter⟩ := h.maximal
    obtain ⟨o, w⟩ := r
    simp only at heq hlen hle
    obtain ⟨x, rfl⟩ := List.prefix_of_prefix_length_le (List.prefix_append pre _)
      (heq ▸ List.prefix_append before _) (hlen ▸ hle)
    rw [List.append_assoc, List.append_cancel_left_eq] at heq
    rw [List.length_append] at hlen
    by_cases hx : x = []
    · subst hx
      have hw : run = w := eq_of_append_eq heq hrun h.all hpost hafter
      rw [List.length_nil, Nat.add_zero] at hlen
      exact .inl ⟨hw ▸ h.nonempty, by rw [hlen, hw]⟩
    · refine .inr ⟨h, ?_⟩
      have hshort : ¬x.length ≤ run.length := fun hle => by
        -- the element before the run would be one of the open run
        have hinside := (List.prefix_of_prefix_length_le (heq ▸ List.prefix_append x _)
          (List.prefix_append run post) hle).subset
        have hlast : x.getLast hx ∈ (pre ++ x).getLast? := by
          rw [List.getLast?_append_of_ne_nil _ hx, List.getLast?_eq_some_getLast hx]
          rfl
        exact hbefore _ hlast (hrun _ (hinside (List.getLast_mem hx)))
      omega
  · rintro (⟨hne, rfl⟩ | ⟨h, hle⟩)
    · exact ⟨⟨hne, hrun, pre, post, rfl, rfl, hpre, hpost⟩, Nat.le_refl _⟩
    · exact ⟨h, by omega⟩

lemma mem_runsFrom_iff {pre : List α} (hpre : ∀ a ∈ pre.getLast?, ¬p a) (hrun : ∀ a ∈ run, p a) :
    r ∈ runsFrom p pre.length run l ↔ IsRun p (pre ++ (run ++ l)) r ∧ pre.length ≤ r.1 := by
  induction l generalizing pre run with
  | nil =>
    rw [runsFrom_nil, mem_closed, isRun_append_iff hpre hrun (by simp), or_iff_left]
    rintro ⟨h, hle⟩
    obtain ⟨before, after, heq, hlen, -⟩ := h.maximal
    have hlength := congrArg List.length heq
    have hpos := List.length_pos_iff.mpr h.nonempty
    simp only [List.length_append, List.length_nil] at hlength
    omega
  | cons a l ih =>
    by_cases ha : p a
    · have hopen : ∀ b ∈ run ++ [a], p b := by
        intro b hb
        rcases List.mem_append.mp hb with hb | hb
        · exact hrun b hb
        · rwa [List.mem_singleton.mp hb]
      rw [runsFrom_cons_of_pos ha, ih hpre hopen, List.append_assoc run [a] l]
      rfl
    · have hlist : pre ++ (run ++ a :: l) = (pre ++ (run ++ [a])) ++ ([] ++ l) := by simp
      have hlen : pre.length + run.length + 1 = (pre ++ (run ++ [a])).length := by
        simp [Nat.add_assoc]
      have hlast : ∀ b ∈ (pre ++ (run ++ [a])).getLast?, ¬p b := by
        intro b hb
        rw [← List.append_assoc, List.getLast?_concat] at hb
        rwa [← Option.some.inj hb]
      rw [runsFrom_cons_of_neg ha, List.mem_append, mem_closed,
        isRun_append_iff hpre hrun (by simpa using ha), hlen, ih hlast (by simp), ← hlist]

/-- The pass finds the runs of the list and nothing else. -/
theorem mem_runs_iff : r ∈ runs p l ↔ IsRun p l r := by
  have h : r ∈ runsFrom p ([] : List α).length [] l ↔ IsRun p ([] ++ ([] ++ l)) r ∧ _ :=
    mem_runsFrom_iff (by simp) (by simp)
  simpa [runs] using h

/-! ### Their order -/

lemma le_of_mem_runsFrom (h : r ∈ runsFrom p o run l) : o ≤ r.1 := by
  induction l generalizing o run with
  | nil =>
    obtain ⟨-, rfl⟩ := mem_closed.mp h
    exact Nat.le_refl o
  | cons a l ih =>
    by_cases ha : p a
    · rw [runsFrom_cons_of_pos ha] at h
      exact ih h
    · rw [runsFrom_cons_of_neg ha, List.mem_append, mem_closed] at h
      rcases h with ⟨-, rfl⟩ | h
      · exact Nat.le_refl o
      · have := ih h
        omega

lemma pairwise_closed (o : ℕ) (run : List α) : (closed o run).Pairwise fun r s => r.1 < s.1 := by
  by_cases h : run = []
  · simp [h]
  · simp [closed_of_ne_nil h]

/-- The runs are found in ascending order. -/
lemma pairwise_runsFrom (p : α → Bool) (o : ℕ) (run l : List α) :
    (runsFrom p o run l).Pairwise fun r s => r.1 < s.1 := by
  induction l generalizing o run with
  | nil => exact pairwise_closed o run
  | cons a l ih =>
    by_cases ha : p a
    · rw [runsFrom_cons_of_pos ha]
      exact ih o _
    · rw [runsFrom_cons_of_neg ha]
      refine List.pairwise_append.mpr ⟨pairwise_closed o run, ih _ _, fun r hr s hs => ?_⟩
      obtain ⟨-, rfl⟩ := mem_closed.mp hr
      have hle := le_of_mem_runsFrom hs
      show o < s.1
      omega

theorem pairwise_runs (p : α → Bool) (l : List α) :
    (runs p l).Pairwise fun r s => r.1 < s.1 := pairwise_runsFrom p 0 [] l

end Foundation.Runs
