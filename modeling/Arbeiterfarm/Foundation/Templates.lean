import Arbeiterfarm.Foundation.Occurrences
import Mathlib.Logic.Function.Basic

/-!
# Templates

A hole of a template is a name between two opening and two closing brackets. `expand` fills all
holes of a template at once; `replaceHoles` replaces the holes of one name after the other, in the
text that it has got so far.
-/

namespace Foundation.Templates

variable {α : Type*} (o c : α)

/-! ### Holes -/

def hole (k : List α) : List α := o :: o :: (k ++ [c, c])

/-- A name has no brackets. -/
structure Plain (k : List α) : Prop where
  opening : o ∉ k
  closing : c ∉ k

lemma hole_ne_nil (k : List α) : hole o c k ≠ [] := List.cons_ne_nil _ _

lemma reverse_hole (k : List α) : (hole o c k).reverse = hole c o k.reverse := by simp [hole]

variable {o c}

lemma Plain.reverse {k : List α} (hk : Plain o c k) : Plain c o k.reverse :=
  ⟨fun h => hk.closing (List.mem_reverse.mp h), fun h => hk.opening (List.mem_reverse.mp h)⟩

lemma Plain.opening_not_mem (hoc : o ≠ c) {k : List α} (hk : Plain o c k) : o ∉ k ++ [c, c] := by
  simp [hk.opening, hoc]

/-- No hole ends inside another one. -/
lemma noCross_hole_left (hoc : o ≠ c) {k : List α} (hk : Plain o c k) (j x z : List α) :
    NoCross (hole o c k) x (hole o c j ++ z) := by
  have hko := hk.opening_not_mem hoc
  rintro s t hst hs ht - htz
  obtain ⟨t, rfl⟩ : ∃ t', t = o :: t' := by
    cases t with
    | nil => exact absurd rfl ht
    | cons a t => exact ⟨t, by rw [(List.cons_prefix_cons.mp htz).1]⟩
  have htz := (List.cons_prefix_cons.mp htz).2
  match s with
  | [] => exact hs rfl
  | [a] =>
    obtain ⟨-, htail⟩ := List.cons.inj hst
    obtain rfl := (List.cons.inj htail).2
    cases k with
    | nil => exact hoc (List.cons_prefix_cons.mp htz).1.symm
    | cons a k => exact hk.opening ((List.cons_prefix_cons.mp htz).1 ▸ List.mem_cons_self)
  | a :: b :: s =>
    obtain ⟨-, htail⟩ := List.cons.inj hst
    rw [(List.cons.inj htail).2] at hko
    exact hko (List.mem_append_right s List.mem_cons_self)

/-- No hole begins inside another one. -/
lemma noCross_hole_right (hoc : o ≠ c) {k : List α} (hk : Plain o c k) (j x z : List α) :
    NoCross (hole o c k) (x ++ hole o c j) z := by
  apply NoCross.reverse
  rw [List.reverse_append, reverse_hole, reverse_hole]
  exact noCross_hole_left hoc.symm hk.reverse j.reverse z.reverse x.reverse

variable [DecidableEq α]

lemma occurrences_hole (hoc : o ≠ c) {k j : List α} (hk : Plain o c k) (hj : Plain o c j) :
    occurrences (hole o c k) (hole o c j) = if j = k then 1 else 0 := by
  have hname : hole o c k <+: hole o c j ↔ j = k := by
    refine ⟨?_, fun h => h ▸ List.prefix_rfl⟩
    rintro ⟨t, ht⟩
    have htail : k ++ [c, c] ++ t = j ++ [c, c] := (List.cons.inj (List.cons.inj ht).2).2
    have hbefore : ∀ {l : List α} (r : List α), c ∉ l → (l ++ c :: r).takeWhile (· ≠ c) = l := by
      intro l r hl
      have hall : ∀ a ∈ l, decide (a ≠ c) = true := fun a ha =>
        decide_eq_true fun hac => hl (hac ▸ ha)
      rw [List.takeWhile_append_of_pos hall, List.takeWhile_cons_of_neg (by simp), List.append_nil]
    rw [← hbefore [c] hj.closing, ← htail, List.append_assoc]
    exact hbefore (c :: t) hk.closing
  have htail : occurrences (hole o c k) (o :: (j ++ [c, c])) = 0 := by
    rw [occurrences, occurrences_eq_zero rfl (hj.opening_not_mem hoc), if_neg]
    rintro ⟨t, ht⟩
    have hhead : j ++ [c, c] = o :: (k ++ [c, c] ++ t) := (List.cons.inj ht).2.symm
    exact hj.opening_not_mem hoc (hhead ▸ List.mem_cons_self)
  have hcons : occurrences (hole o c k) (hole o c j) =
      (if hole o c k <+: hole o c j then 1 else 0) +
        occurrences (hole o c k) (o :: (j ++ [c, c])) := rfl
  rw [hcons, htail]
  simp only [hname, Nat.add_zero]

/-! ### Pieces -/

inductive Piece (α : Type*) where
  | char (a : α)
  | hole (k : List α)
  deriving DecidableEq

/-- The pieces of a template with holes of the names `keys`; the first `skip` elements belong to the
hole before. -/
def piecesFrom (o c : α) (keys : List (List α)) : ℕ → List α → List (Piece α)
  | _, [] => []
  | skip + 1, _ :: l => piecesFrom o c keys skip l
  | 0, a :: l =>
    match keys.find? fun k => hole o c k <+: a :: l with
    | some k => .hole k :: piecesFrom o c keys ((hole o c k).length - 1) l
    | none   => .char a :: piecesFrom o c keys 0 l

def pieces (o c : α) (keys : List (List α)) (l : List α) : List (Piece α) :=
  piecesFrom o c keys 0 l

/-- Every hole is filled with the value of its name. -/
def fill (value : List α → List α) (ps : List (Piece α)) : List α :=
  ps.flatMap fun
    | .char a => [a]
    | .hole k => value k

/-- All holes of the template are filled at once. -/
def expand (o c : α) (keys : List (List α)) (value : List α → List α) (template : List α) :
    List α :=
  fill value (pieces o c keys template)

/-- The holes of each name in turn are replaced. -/
def replaceHoles (o c : α) (value : List α → List α) (keys : List (List α)) (text : List α) :
    List α :=
  keys.foldl (fun text k => replace (hole o c k) (value k) text) text

/-! ### Filling -/

omit [DecidableEq α] in
@[simp] lemma fill_append (value : List α → List α) (ps qs : List (Piece α)) :
    fill value (ps ++ qs) = fill value ps ++ fill value qs := List.flatMap_append

omit [DecidableEq α] in
@[simp] lemma fill_hole_cons (value : List α → List α) (k : List α) (ps : List (Piece α)) :
    fill value (.hole k :: ps) = value k ++ fill value ps := List.flatMap_cons

omit [DecidableEq α] in
@[simp] lemma fill_char_cons (value : List α → List α) (a : α) (ps : List (Piece α)) :
    fill value (.char a :: ps) = a :: fill value ps := List.flatMap_cons

omit [DecidableEq α] in
lemma fill_congr {value value' : List α → List α} {ps : List (Piece α)}
    (h : ∀ k, .hole k ∈ ps → value k = value' k) : fill value ps = fill value' ps := by
  refine List.flatMap_congr fun p hp => ?_
  cases p with
  | char a => rfl
  | hole k => exact h k hp

omit [DecidableEq α] in
/-- Induction along the holes that have `q`. -/
@[elab_as_elim] lemma hole_induction (q : List α → Prop) {P : List (Piece α) → Prop}
    (base : ∀ ps, (∀ k, .hole k ∈ ps → ¬q k) → P ps)
    (step : ∀ ps k qs, (∀ j, .hole j ∈ ps → ¬q j) → q k → P qs → P (ps ++ .hole k :: qs))
    (ps : List (Piece α)) : P ps := by
  have hrun : ∀ qs ps : List (Piece α), (∀ k, .hole k ∈ ps → ¬q k) → P (ps ++ qs) := by
    intro qs
    induction qs with
    | nil =>
      intro ps hps
      rw [List.append_nil]
      exact base ps hps
    | cons p qs ih =>
      intro ps hps
      by_cases hp : ∃ k, p = .hole k ∧ q k
      · obtain ⟨k, rfl, hk⟩ := hp
        refine step ps k qs hps hk ?_
        exact ih [] fun j hj => absurd hj List.not_mem_nil
      · rw [List.append_cons]
        refine ih _ fun j hj hqj => ?_
        rcases List.mem_append.mp hj with hj | hj
        · exact hps j hj hqj
        · exact hp ⟨j, (List.mem_singleton.mp hj).symm, hqj⟩
  exact hrun ps [] fun j hj => absurd hj List.not_mem_nil

/-- A measure of lists that adds up. -/
lemma measure_fill_update {m : List α → ℕ} (hnil : m [] = 0) (hm : ∀ x y, m (x ++ y) = m x + m y)
    (value : List α → List α) (k v : List α) (ps : List (Piece α)) :
    m (fill (Function.update value k v) ps) + ps.count (.hole k) * m (value k) =
      m (fill value ps) + ps.count (.hole k) * m v := by
  induction ps with
  | nil => simp [fill, hnil]
  | cons p ps ih =>
    cases p with
    | char a =>
      rw [fill_char_cons, fill_char_cons, List.count_cons_of_ne (by simp),
        ← List.singleton_append, hm, ← List.singleton_append (l := fill value ps), hm,
        Nat.add_assoc, ih, Nat.add_assoc]
    | hole j =>
      rw [fill_hole_cons, fill_hole_cons, hm, hm]
      by_cases hj : j = k
      · subst hj
        rw [Function.update_self, List.count_cons_self, Nat.succ_mul, Nat.succ_mul]
        omega
      · rw [Function.update_of_ne hj, List.count_cons_of_ne (by simpa using hj), Nat.add_assoc, ih,
          Nat.add_assoc]

lemma count_eq_zero_of_fill_eq {value : List α → List α} {k v : List α} {ps : List (Piece α)}
    (hlength : v.length = (value k).length) (hne : v ≠ value k)
    (h : fill (Function.update value k v) ps = fill value ps) : ps.count (.hole k) = 0 := by
  induction ps with
  | nil => rfl
  | cons p ps ih =>
    cases p with
    | char a =>
      rw [List.count_cons_of_ne (by simp)]
      exact ih (List.cons.inj h).2
    | hole j =>
      rw [fill_hole_cons, fill_hole_cons] at h
      by_cases hj : j = k
      · subst hj
        rw [Function.update_self] at h
        exact absurd (List.append_inj_left h hlength) hne
      · rw [Function.update_of_ne hj] at h
        rw [List.count_cons_of_ne (by simpa using hj)]
        exact ih (List.append_cancel_left h)

/-! ### The pieces of a text -/

variable {keys : List (List α)}

lemma prefix_of_find? {l k : List α} (h : (keys.find? fun k => hole o c k <+: l) = some k) :
    hole o c k <+: l := by
  simpa using List.find?_some h

lemma fill_piecesFrom (skip : ℕ) (l : List α) :
    fill (hole o c) (piecesFrom o c keys skip l) = l.drop skip := by
  induction l generalizing skip with
  | nil => simp [piecesFrom, fill]
  | cons a l ih =>
    cases skip with
    | succ skip => exact ih skip
    | zero =>
      rw [piecesFrom]
      cases hk : keys.find? fun k => hole o c k <+: a :: l with
      | none => simp [ih]
      | some k =>
        obtain ⟨t, ht⟩ := prefix_of_find? hk
        have hl : l = o :: (k ++ [c, c]) ++ t := (List.cons.inj ht).2.symm
        simp only [fill_hole_cons, ih]
        rw [List.drop_zero, ← ht, hl]
        simp [hole]

/-- The pieces make up the text. -/
lemma fill_pieces (l : List α) : fill (hole o c) (pieces o c keys l) = l := fill_piecesFrom 0 l

lemma mem_keys_of_mem_piecesFrom {skip : ℕ} {l k : List α}
    (h : .hole k ∈ piecesFrom o c keys skip l) : k ∈ keys := by
  induction l generalizing skip with
  | nil => exact absurd h (by simp [piecesFrom])
  | cons a l ih =>
    cases skip with
    | succ skip => exact ih h
    | zero =>
      rw [piecesFrom] at h
      cases hj : keys.find? fun k => hole o c k <+: a :: l with
      | none =>
        simp only [hj, List.mem_cons, reduceCtorEq, false_or] at h
        exact ih h
      | some j =>
        simp only [hj, List.mem_cons, Piece.hole.injEq] at h
        rcases h with rfl | h
        · exact List.mem_of_find?_eq_some hj
        · exact ih h

lemma replaceFrom_hole (k v : List α) (skip : ℕ) (l : List α) :
    replaceFrom (hole o c k) v skip l =
      fill (Function.update (hole o c) k v) (piecesFrom o c [k] skip l) := by
  induction l generalizing skip with
  | nil => cases skip <;> rfl
  | cons a l ih =>
    cases skip with
    | succ skip => exact ih skip
    | zero =>
      rw [replaceFrom, piecesFrom, List.find?_singleton]
      by_cases hk : hole o c k <+: a :: l
      · rw [if_pos hk, if_pos (decide_eq_true hk), fill_hole_cons, Function.update_self, ih]
      · rw [if_neg hk, if_neg (by simpa using hk), fill_char_cons, ih]

/-- To replace the holes of one name is to fill them. -/
lemma replace_hole (k v l : List α) :
    replace (hole o c k) v l = fill (Function.update (hole o c) k v) (pieces o c [k] l) :=
  replaceFrom_hole k v 0 l

section

variable (hoc : o ≠ c)

include hoc

lemma occurrences_append_hole {k j : List α} (hk : Plain o c k) (hj : Plain o c j) (x z : List α) :
    occurrences (hole o c k) (x ++ (hole o c j ++ z)) =
      occurrences (hole o c k) x + ((if j = k then 1 else 0) + occurrences (hole o c k) z) := by
  have hright := noCross_hole_right hoc hk j [] z
  rw [List.nil_append] at hright
  rw [occurrences_append (noCross_hole_left hoc hk j x z), occurrences_append hright,
    occurrences_hole hoc hk hj]

lemma replace_append_hole {k : List α} (hk : Plain o c k) (v x z : List α) :
    replace (hole o c k) v (x ++ (hole o c k ++ z)) =
      replace (hole o c k) v x ++ (v ++ replace (hole o c k) v z) := by
  rw [replace_append (hole_ne_nil o c k) (noCross_hole_left hoc hk k x z),
    replace_append_self (hole_ne_nil o c k)]

lemma occurrences_drop (hkeys : ∀ k ∈ keys, Plain o c k) {k : List α} (hk : k ∈ keys) (skip : ℕ)
    (l : List α) :
    occurrences (hole o c k) (l.drop skip) = (piecesFrom o c keys skip l).count (.hole k) := by
  induction l generalizing skip with
  | nil => cases skip <;> rfl
  | cons a l ih =>
    cases skip with
    | succ skip => exact ih skip
    | zero =>
      rw [piecesFrom]
      cases hj : keys.find? fun k => hole o c k <+: a :: l with
      | none =>
        have hno : ¬hole o c k <+: a :: l := by simpa using List.find?_eq_none.mp hj k hk
        simp [occurrences, hno, ← ih 0]
      | some j =>
        obtain ⟨t, ht⟩ := prefix_of_find? hj
        have hl : l.drop ((hole o c j).length - 1) = t := by
          have hl : l = o :: (j ++ [c, c]) ++ t := (List.cons.inj ht).2.symm
          rw [hl]
          simp [hole]
        have happend := occurrences_append_hole hoc (hkeys k hk)
          (hkeys j (List.mem_of_find?_eq_some hj)) [] t
        rw [List.nil_append, ht, occurrences, Nat.zero_add] at happend
        simp only [List.drop_zero]
        rw [happend, List.count_cons, ← ih, hl, Nat.add_comm]
        simp

/-- The holes of a text are the occurrences of their patterns. -/
lemma occurrences_eq_count (hkeys : ∀ k ∈ keys, Plain o c k) {k : List α} (hk : k ∈ keys)
    (l : List α) :
    occurrences (hole o c k) l = (pieces o c keys l).count (.hole k) :=
  occurrences_drop hoc hkeys hk 0 l

end

end Foundation.Templates
