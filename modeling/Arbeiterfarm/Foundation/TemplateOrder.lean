import Arbeiterfarm.Foundation.Templates
import Mathlib.Data.List.Perm.Basic
import Mathlib.Tactic.LinearCombination
import Mathlib.Tactic.Zify

/-!
# One name after the other

The holes of each name in turn are replaced. The result is the text in which all holes are filled at
once if the values make no new holes. If the values of all names but two are `Inert`, no order gives
it otherwise.
-/

namespace Foundation.Templates

variable {α : Type*} [DecidableEq α] {o c : α} {keys : List (List α)}

/-! ### One name -/

lemma eq_of_add_mul_eq {a b n m p v : ℕ} (hne : p ≠ v) (hn : a + n * p = b + n * v)
    (hm : a + m * p = b + m * v) : n = m := by
  zify at hne hn hm ⊢
  have hmul : ((n : ℤ) - m) * (p - v) = 0 := by linear_combination hn - hm
  exact sub_eq_zero.mp ((mul_eq_zero.mp hmul).resolve_right (sub_ne_zero.mpr hne))

section

variable (hoc : o ≠ c) {k : List α} (hk : Plain o c k) {value : List α → List α}

lemma fill_update_of_not_mem (value : List α → List α) (v : List α) {ps : List (Piece α)}
    (h : .hole k ∉ ps) : fill (Function.update value k v) ps = fill value ps := by
  refine fill_congr fun j hj => Function.update_of_ne ?_ _ _
  rintro rfl
  exact h hj

include hoc hk

lemma replace_of_occurrences_eq_zero {l : List α} (h : occurrences (hole o c k) l = 0)
    (v : List α) :
    replace (hole o c k) v l = l := by
  rw [occurrences_eq_count hoc (List.forall_mem_singleton.mpr hk) List.mem_cons_self,
    List.count_eq_zero] at h
  rw [replace_hole, fill_update_of_not_mem _ _ h, fill_pieces]

lemma measure_replace {m : List α → ℕ} (hnil : m [] = 0) (hm : ∀ x y, m (x ++ y) = m x + m y)
    (v l : List α) :
    m (replace (hole o c k) v l) + occurrences (hole o c k) l * m (hole o c k) =
      m l + occurrences (hole o c k) l * m v := by
  rw [replace_hole, occurrences_eq_count hoc (List.forall_mem_singleton.mpr hk) List.mem_cons_self,
    measure_fill_update hnil hm, fill_pieces]

lemma occurrences_eq_zero_of_replace {v l : List α} (hlength : v.length = (hole o c k).length)
    (hne : v ≠ hole o c k) (h : replace (hole o c k) v l = l) :
    occurrences (hole o c k) l = 0 := by
  rw [occurrences_eq_count hoc (List.forall_mem_singleton.mpr hk) List.mem_cons_self]
  refine count_eq_zero_of_fill_eq hlength hne ?_
  rw [← replace_hole, h, fill_pieces]

variable (hvalue : value k = hole o c k)

include hvalue

/-- Holes that are not filled are there. -/
lemma count_le_occurrences (ps : List (Piece α)) :
    ps.count (.hole k) ≤ occurrences (hole o c k) (fill value ps) := by
  induction ps using hole_induction (· = k) with
  | base ps hps =>
    rw [List.count_eq_zero_of_not_mem fun hmem => hps k hmem rfl]
    exact Nat.zero_le _
  | step ps j qs hps hj ih =>
    subst hj
    rw [fill_append, fill_hole_cons, hvalue, occurrences_append_hole hoc hk hk, if_pos rfl,
      List.count_append, List.count_cons_self,
      List.count_eq_zero_of_not_mem fun hmem => hps j hmem rfl]
    omega

/-- The holes are filled and nothing else is replaced, if and only if there are no others. -/
lemma replace_fill_iff (v : List α) (ps : List (Piece α)) :
    replace (hole o c k) v (fill value ps) = fill (Function.update value k v) ps ↔
      v = hole o c k ∨ occurrences (hole o c k) (fill value ps) = ps.count (.hole k) := by
  constructor
  · intro h
    by_cases hv : v = hole o c k
    · exact Or.inl hv
    refine Or.inr ?_
    by_cases hlength : v.length = (hole o c k).length
    · induction ps using hole_induction (· = k) with
      | base ps hps =>
        have hmem : .hole k ∉ ps := fun hmem => hps k hmem rfl
        rw [fill_update_of_not_mem _ _ hmem] at h
        rw [List.count_eq_zero_of_not_mem hmem]
        exact occurrences_eq_zero_of_replace hoc hk hlength hv h
      | step ps j qs hps hj ih =>
        subst hj
        have hmem : .hole j ∉ ps := fun hmem => hps j hmem rfl
        rw [fill_append, fill_hole_cons, fill_append, fill_hole_cons, hvalue,
          Function.update_self, replace_append_hole hoc hk, fill_update_of_not_mem _ _ hmem] at h
        have hbefore :
            (replace (hole o c j) v (fill value ps)).length = (fill value ps).length := by
          have hmeasure := measure_replace hoc hk (m := List.length) rfl
            (fun _ _ => List.length_append) v (fill value ps)
          rw [hlength] at hmeasure
          exact Nat.add_right_cancel hmeasure
        obtain ⟨hps, hrest⟩ := List.append_inj h hbefore
        rw [fill_append, fill_hole_cons, hvalue, occurrences_append_hole hoc hk hk, if_pos rfl,
          ih (List.append_cancel_left hrest), List.count_append, List.count_cons_self,
          List.count_eq_zero_of_not_mem hmem,
          occurrences_eq_zero_of_replace hoc hk hlength hv hps, Nat.add_comm 1]
    · -- otherwise each replacement changes the length by the same
      have hreplaced := measure_replace hoc hk (m := List.length) rfl
        (fun _ _ => List.length_append) v (fill value ps)
      have hfilled := measure_fill_update (m := List.length) rfl
        (fun _ _ => List.length_append) value k v ps
      rw [h] at hreplaced
      rw [hvalue] at hfilled
      exact eq_of_add_mul_eq (Ne.symm hlength) hreplaced hfilled
  · rintro (rfl | hcount)
    · rw [← hvalue, Function.update_eq_self, hvalue, replace_hole, Function.update_eq_self,
        fill_pieces]
    · induction ps using hole_induction (· = k) with
      | base ps hps =>
        have hmem : .hole k ∉ ps := fun hmem => hps k hmem rfl
        rw [List.count_eq_zero_of_not_mem hmem] at hcount
        rw [fill_update_of_not_mem _ _ hmem, replace_of_occurrences_eq_zero hoc hk hcount]
      | step ps j qs hps hj ih =>
        subst hj
        have hmem : .hole j ∉ ps := fun hmem => hps j hmem rfl
        have hle := count_le_occurrences hoc hk hvalue qs
        rw [fill_append, fill_hole_cons, hvalue, occurrences_append_hole hoc hk hk, if_pos rfl,
          List.count_append, List.count_cons_self, List.count_eq_zero_of_not_mem hmem] at hcount
        have hbefore : occurrences (hole o c j) (fill value ps) = 0 := by omega
        rw [fill_append, fill_hole_cons, fill_append, fill_hole_cons, hvalue,
          Function.update_self, replace_append_hole hoc hk, fill_update_of_not_mem _ _ hmem,
          replace_of_occurrences_eq_zero hoc hk hbefore, ih (by omega)]

end

/-! ### Other names -/

section

variable (hoc : o ≠ c) {k : List α} (hk : Plain o c k)

include hoc hk

/-- To fill further holes makes no fewer holes of another name. -/
lemma occurrences_fill_le {value value' : List α → List α} {ps : List (Piece α)}
    (hps : ∀ j, .hole j ∈ ps → Plain o c j)
    (h : ∀ j, value j = value' j ∨ value j = hole o c j ∧ j ≠ k) :
    occurrences (hole o c k) (fill value ps) ≤ occurrences (hole o c k) (fill value' ps) := by
  induction ps using hole_induction (fun j => value j ≠ value' j) with
  | base ps hsame => rw [fill_congr fun j hj => not_not.mp (hsame j hj)]
  | step ps j qs hsame hj ih =>
    obtain ⟨hvalue, hjk⟩ := (h j).resolve_left hj
    have hqs := ih fun i hi => hps i (List.mem_append_right ps (List.mem_cons_of_mem _ hi))
    have hplain := hps j (List.mem_append_right ps List.mem_cons_self)
    rw [fill_append, fill_hole_cons, fill_append, fill_hole_cons, hvalue,
      occurrences_append_hole hoc hk hplain, if_neg hjk,
      fill_congr fun i hi => not_not.mp (hsame i hi)]
    have hrest := le_occurrences_append (hole o c k) (value' j) (fill value' qs)
    have hall := le_occurrences_append (hole o c k) (fill value' ps)
      (value' j ++ fill value' qs)
    omega

/-- A value without brackets that is no part of a name. -/
structure Inert (o c : α) (keys : List (List α)) (v : List α) : Prop where
  plain : Plain o c v
  no_part : ∀ k ∈ keys, ¬v <:+: k

omit [DecidableEq α] hoc hk in
lemma part_of_part_cons {v l : List α} {a : α} (h : v <:+: a :: l) (ha : a ∉ v) : v <:+: l := by
  rcases List.infix_cons_iff.mp h with hpre | htail
  · cases v with
    | nil => exact List.nil_infix
    | cons b v =>
      rw [(List.cons_prefix_cons.mp hpre).1] at ha
      exact absurd List.mem_cons_self ha
  · exact htail

omit [DecidableEq α] hoc hk in
lemma part_of_part_hole {v k : List α} (hv : Plain o c v) (h : v <:+: hole o c k) : v <:+: k := by
  have hopen := part_of_part_cons (part_of_part_cons h hv.opening) hv.opening
  rw [← List.reverse_infix, List.reverse_append] at hopen
  have hclose : c ∉ v.reverse := fun hmem => hv.closing (List.mem_reverse.mp hmem)
  exact List.reverse_infix.mp (part_of_part_cons (part_of_part_cons hopen hclose) hclose)

variable {v : List α} (hv : Inert o c keys v) (hkeys : k ∈ keys)

omit [DecidableEq α] hoc hk in
include hv hkeys in
lemma noCross_inert_left (x z : List α) : NoCross (hole o c k) x (v ++ z) := by
  rintro s t hst - ht - htz
  have hmem : c ∈ t := by
    have hlast : hole o c k = o :: o :: k ++ [c] ++ [c] := by simp [hole]
    refine List.mem_of_getLast? ?_
    rw [← List.getLast?_append_of_ne_nil s ht, ← hst, hlast, List.getLast?_concat]
  rcases List.prefix_or_prefix_of_prefix htz (List.prefix_append v z) with htv | hvt
  · exact hv.plain.closing (htv.subset hmem)
  · refine hv.no_part k hkeys (part_of_part_hole hv.plain ?_)
    rw [hst]
    exact hvt.isInfix.trans (List.suffix_append s t).isInfix

omit [DecidableEq α] hoc hk hkeys in
include hv in
lemma noCross_inert_right (k z : List α) : NoCross (hole o c k) v z := by
  rintro s t hst hs - hsv -
  cases s with
  | nil => exact hs rfl
  | cons a s =>
    obtain rfl := (List.cons.inj hst).1
    exact hv.plain.opening (hsv.subset List.mem_cons_self)

omit hoc hk in
include hv hkeys in
lemma occurrences_append_inert (x z : List α) :
    occurrences (hole o c k) (x ++ (v ++ z)) =
      occurrences (hole o c k) x + occurrences (hole o c k) z := by
  rw [occurrences_append (noCross_inert_left hv hkeys x z),
    occurrences_append (noCross_inert_right hv k z), occurrences_eq_zero rfl hv.plain.opening,
    Nat.zero_add]

include hv hkeys

lemma occurrences_fill_update {value : List α → List α} {j : List α} (hvalue : value j = hole o c j)
    (hj : Plain o c j) (hjk : j ≠ k) (ps : List (Piece α)) :
    occurrences (hole o c k) (fill (Function.update value j v) ps) =
      occurrences (hole o c k) (fill value ps) := by
  induction ps using hole_induction (· = j) with
  | base ps hps => rw [fill_update_of_not_mem _ _ fun hmem => hps j hmem rfl]
  | step ps i qs hps hi ih =>
    subst hi
    rw [fill_append, fill_hole_cons, fill_append, fill_hole_cons, hvalue, Function.update_self,
      fill_update_of_not_mem _ _ fun hmem => hps i hmem rfl,
      occurrences_append_inert hv hkeys, occurrences_append_hole hoc hk hj, if_neg hjk, ih,
      Nat.zero_add]

/-- To replace the holes of one name makes no hole of another and removes none. -/
lemma occurrences_replace {j : List α} (hj : Plain o c j) (hjk : j ≠ k) (l : List α) :
    occurrences (hole o c k) (replace (hole o c j) v l) = occurrences (hole o c k) l := by
  rw [replace_hole, occurrences_fill_update hoc hk hv hkeys rfl hj hjk, fill_pieces]

end

/-! ### All names -/

/-- The holes of the names in `done` are filled. -/
def visited (o c : α) (value : List α → List α) (done : List (List α)) (k : List α) : List α :=
  if k ∈ done then value k else hole o c k

/-- When the holes of all other names are filled, there are no more holes of a name than the
template has; a value that is the hole itself does not matter. -/
def NoNewHoles (o c : α) (keys : List (List α)) (value : List α → List α) (template : List α) :
    Prop :=
  ∀ k ∈ keys, value k = hole o c k ∨
    occurrences (hole o c k) (expand o c keys (Function.update value k (hole o c k)) template) =
      occurrences (hole o c k) template

variable {value : List α → List α} {done order : List (List α)} {k : List α} {ps : List (Piece α)}

variable (value) in
lemma visited_of_not_mem (h : k ∉ done) : visited o c value done k = hole o c k := if_neg h

lemma update_visited (value : List α → List α) (done : List (List α)) (k : List α) :
    Function.update (visited o c value done) k (value k) = visited o c value (k :: done) := by
  funext j
  by_cases hj : j = k
  · rw [hj, Function.update_self, visited, if_pos List.mem_cons_self]
  · rw [Function.update_of_ne hj, visited, visited]
    simp [hj]

lemma fill_visited_nil (template : List α) :
    fill (visited o c value []) (pieces o c keys template) = template :=
  (fill_congr fun _ _ => visited_of_not_mem value List.not_mem_nil).trans (fill_pieces template)

variable (done) in
/-- When all names are visited, the template is filled. -/
lemma fill_visited_of_subset (h : ∀ k ∈ keys, k ∈ done) (template : List α) :
    fill (visited o c value done) (pieces o c keys template) = expand o c keys value template :=
  fill_congr fun k hk => if_pos (h k (mem_keys_of_mem_piecesFrom hk))

/-- All names but one are visited. -/
lemma expand_update {k : List α} (hdone : ∀ j ∈ keys, j ∈ done ↔ j ≠ k) (template : List α) :
    expand o c keys (Function.update value k (hole o c k)) template =
      fill (visited o c value done) (pieces o c keys template) := by
  refine fill_congr fun j hj => ?_
  have hj := hdone j (mem_keys_of_mem_piecesFrom hj)
  by_cases hjk : j = k
  · rw [hjk, Function.update_self, visited_of_not_mem value]
    exact fun hmem => hj.mp (hjk ▸ hmem) hjk
  · rw [Function.update_of_ne hjk, visited, if_pos (hj.mpr hjk)]

lemma replaceHoles_append (order order' : List (List α)) (text : List α) :
    replaceHoles o c value (order ++ order') text =
      replaceHoles o c value order' (replaceHoles o c value order text) := List.foldl_append

section

variable (hoc : o ≠ c)

include hoc

/-- One name after the other is filled if no stage has other holes than those of the template. -/
lemma replaceHoles_visited {most : List (List α)} (hplain : ∀ k ∈ order, Plain o c k)
    (hstage : ∀ done ⊆ most, ∀ k ∈ order, k ∉ done → value k = hole o c k ∨
      occurrences (hole o c k) (fill (visited o c value done) ps) = ps.count (.hole k))
    (hnodup : order.Nodup) (hmost : order ⊆ most) (hdone : done ⊆ most)
    (hnew : ∀ k ∈ order, k ∉ done) :
    replaceHoles o c value order (fill (visited o c value done) ps) =
      fill (visited o c value (order.reverse ++ done)) ps := by
  induction order generalizing done with
  | nil => rfl
  | cons k order ih =>
    rw [List.nodup_cons] at hnodup
    have hk := hnew k List.mem_cons_self
    have hfill := (replace_fill_iff hoc (hplain k List.mem_cons_self) (visited_of_not_mem value hk)
      (value k) ps).mpr (hstage done hdone k List.mem_cons_self hk)
    rw [update_visited] at hfill
    have hrest := ih (fun j hj => hplain j (List.mem_cons_of_mem k hj))
      (fun done hdone j hj => hstage done hdone j (List.mem_cons_of_mem k hj)) hnodup.2
      (fun j hj => hmost (List.mem_cons_of_mem k hj))
      (List.cons_subset.mpr ⟨hmost List.mem_cons_self, hdone⟩) fun j hj hmem => by
        rcases List.mem_cons.mp hmem with rfl | hmem
        · exact hnodup.1 hj
        · exact hnew j (List.mem_cons_of_mem k hj) hmem
    rw [replaceHoles, List.foldl_cons, hfill, ← replaceHoles, hrest, List.reverse_cons,
      List.append_assoc, List.singleton_append]

lemma replaceHoles_of_stages (value : List α → List α) (template : List α)
    (hplain : ∀ k ∈ order, Plain o c k)
    (hstage : ∀ done ⊆ order, ∀ k ∈ order, k ∉ done → value k = hole o c k ∨
      occurrences (hole o c k) (fill (visited o c value done) (pieces o c keys template)) =
        (pieces o c keys template).count (.hole k))
    (hnodup : order.Nodup) :
    replaceHoles o c value order template =
      fill (visited o c value order.reverse) (pieces o c keys template) := by
  have hrun := replaceHoles_visited hoc hplain hstage hnodup (List.Subset.refl _)
    (List.nil_subset _) fun _ _ => List.not_mem_nil
  rwa [fill_visited_nil, List.append_nil] at hrun

variable (hkeys : ∀ k ∈ keys, Plain o c k) {template : List α}

include hkeys

/-- At a stage there are not more holes of a name than in the end. -/
lemma occurrences_visited (hk : k ∈ keys) (hnew : k ∉ done)
    (h : occurrences (hole o c k)
        (expand o c keys (Function.update value k (hole o c k)) template) =
      occurrences (hole o c k) template) :
    occurrences (hole o c k) (fill (visited o c value done) (pieces o c keys template)) =
      (pieces o c keys template).count (.hole k) := by
  refine le_antisymm ?_ (count_le_occurrences hoc (hkeys k hk) (visited_of_not_mem value hnew) _)
  rw [← occurrences_eq_count hoc hkeys hk, ← h]
  refine occurrences_fill_le hoc (hkeys k hk)
    (fun j hj => hkeys j (mem_keys_of_mem_piecesFrom hj)) fun j => ?_
  by_cases hjk : j = k
  · subst hjk
    rw [Function.update_self, visited_of_not_mem value hnew]
    exact Or.inl rfl
  · rw [Function.update_of_ne hjk]
    by_cases hj : j ∈ done
    · exact Or.inl (if_pos hj)
    · exact Or.inr ⟨visited_of_not_mem value hj, hjk⟩

/-- Without new holes every order gives the template with all holes filled at once. -/
lemma replaceHoles_eq_expand (hnodup : keys.Nodup) (h : NoNewHoles o c keys value template)
    (horder : order.Perm keys) :
    replaceHoles o c value order template = expand o c keys value template := by
  rw [replaceHoles_of_stages hoc value template (fun k hk => hkeys k (horder.subset hk))
    (fun done _ k hk hnew => (h k (horder.subset hk)).imp_right
      (occurrences_visited hoc hkeys (horder.subset hk) hnew))
    (horder.nodup_iff.mpr hnodup), fill_visited_of_subset]
  intro k hk
  exact List.mem_reverse.mpr (horder.mem_iff.mpr hk)

/-! ### Inert values -/

variable {rest : List (List α)} (hrest : ∀ k ∈ rest, k ∈ keys ∧ Inert o c keys (value k))

include hrest

variable (done) in
/-- Inert values make no holes. -/
lemma occurrences_visited_inert (hk : k ∈ keys) (hnew : k ∉ rest) (ps : List (Piece α)) :
    occurrences (hole o c k) (fill (visited o c value (rest ++ done)) ps) =
      occurrences (hole o c k) (fill (visited o c value done) ps) := by
  induction rest with
  | nil => rfl
  | cons j rest ih =>
    obtain ⟨⟨hj, hinert⟩, hrest⟩ := List.forall_mem_cons.mp hrest
    rw [List.mem_cons, not_or] at hnew
    rw [← ih hrest hnew.2]
    by_cases hmem : j ∈ rest ++ done
    · have hsame : visited o c value (j :: rest ++ done) = visited o c value (rest ++ done) := by
        funext i
        have hiff : i ∈ j :: (rest ++ done) ↔ i ∈ rest ++ done :=
          List.mem_cons.trans (or_iff_right_of_imp fun hij => hij ▸ hmem)
        rw [visited, visited, List.cons_append]
        simp only [hiff]
      rw [hsame]
    · rw [List.cons_append, ← update_visited]
      exact occurrences_fill_update hoc (hkeys k hk) hinert hk (visited_of_not_mem value hmem)
        (hkeys j hj) (Ne.symm hnew.1) ps

variable (done) in
/-- Each replacement by an inert value takes two opening brackets away; so if no more of them are
gone than the pieces have, every hole was one of theirs. -/
lemma occurrences_of_replaceHoles {text : List α} (slack : ℕ) (hnodup : rest.Nodup)
    (hnew : ∀ k ∈ rest, k ∉ done)
    (hcount : ∀ k ∈ rest, ps.count (.hole k) ≤ occurrences (hole o c k) text)
    (htext : text.count o + slack ≤ (fill (visited o c value done) ps).count o)
    (heq : (fill (visited o c value (rest.reverse ++ done)) ps).count o ≤
      (replaceHoles o c value rest text).count o) :
    slack = 0 ∧ ∀ k ∈ rest, occurrences (hole o c k) text = ps.count (.hole k) := by
  induction rest generalizing text slack done with
  | nil =>
    have hslack : text.count o + slack ≤ text.count o := htext.trans heq
    exact ⟨Nat.eq_zero_of_le_zero ((Nat.add_le_add_iff_left (k := 0)).mp hslack),
      List.forall_mem_nil _⟩
  | cons k rest ih =>
    obtain ⟨⟨hk, hinert⟩, hrest⟩ := List.forall_mem_cons.mp hrest
    rw [List.nodup_cons] at hnodup
    have hplain := hkeys k hk
    have hnone : (value k).count o = 0 := List.count_eq_zero_of_not_mem hinert.plain.opening
    have htwo : (hole o c k).count o = 2 := by
      rw [hole, List.count_cons_self, List.count_cons_self,
        List.count_eq_zero_of_not_mem (hplain.opening_not_mem hoc)]
    have hreplaced := measure_replace hoc hplain (m := List.count o) List.count_nil
      (fun _ _ => List.count_append) (value k) text
    have hfilled := measure_fill_update (m := List.count o) List.count_nil
      (fun _ _ => List.count_append) (visited o c value done) k (value k) ps
    rw [visited_of_not_mem value (hnew k List.mem_cons_self), update_visited] at hfilled
    rw [hnone, htwo] at hreplaced hfilled
    have hk' := hcount k List.mem_cons_self
    have hother : ∀ j ∈ rest, occurrences (hole o c j) (replace (hole o c k) (value k) text) =
        occurrences (hole o c j) text := fun j hj =>
      occurrences_replace hoc (hkeys j (hrest j hj).1) hinert (hrest j hj).1 hplain
        (fun h => hnodup.1 (h ▸ hj)) text
    rw [List.reverse_cons, List.append_assoc, List.singleton_append] at heq
    have hslack := ih (k :: done) hrest
      (slack + 2 * (occurrences (hole o c k) text - ps.count (.hole k))) hnodup.2
      (fun j hj hmem => by
        rcases List.mem_cons.mp hmem with rfl | hmem
        · exact hnodup.1 hj
        · exact hnew j (List.mem_cons_of_mem k hj) hmem)
      (fun j hj => (hcount j (List.mem_cons_of_mem k hj)).trans_eq (hother j hj).symm)
      (by omega) heq
    refine ⟨by omega, List.forall_mem_cons.mpr ⟨by omega, fun j hj => ?_⟩⟩
    rw [← hother j hj]
    exact hslack.2 j hj

/-! ### Two free values -/

/-- The last of the names, when only the two last ones have free values. -/
lemma noNewHoles_last {f n : List α} (hperm : keys.Perm (rest ++ [f, n])) (hnodup : keys.Nodup)
    (horders : ∀ order : List (List α), order.Perm keys →
      replaceHoles o c value order template = expand o c keys value template) :
    value n = hole o c n ∨
      occurrences (hole o c n) (expand o c keys (Function.update value n (hole o c n)) template) =
        occurrences (hole o c n) template := by
  have hmem : ∀ k, k ∈ keys ↔ k ∈ rest ∨ k = f ∨ k = n := by simp [hperm.mem_iff]
  have hparts := hperm.nodup_iff.mp hnodup
  rw [List.nodup_append] at hparts
  obtain ⟨hrestNodup, hfn, hdisjoint⟩ := hparts
  have hfn : f ≠ n := by simpa using hfn
  have hf : f ∉ rest := fun hmem => hdisjoint f hmem f (by simp) rfl
  have hn : n ∉ rest := fun hmem => hdisjoint n hmem n (by simp) rfl
  have hfkeys : f ∈ keys := (hmem f).mpr (by simp)
  have hnkeys : n ∈ keys := (hmem n).mpr (by simp)
  -- while the inert values are filled in, every name keeps its holes
  have hstage : ∀ done ⊆ rest, ∀ k ∈ keys, k ∉ done →
      occurrences (hole o c k) (fill (visited o c value done) (pieces o c keys template)) =
        (pieces o c keys template).count (.hole k) := by
    intro done hdone k hk hnew
    have hsame := occurrences_visited_inert [] hoc hkeys
      (fun j hj => hrest j (hdone hj)) hk hnew (pieces o c keys template)
    rw [List.append_nil, fill_visited_nil] at hsame
    exact hsame.trans (occurrences_eq_count hoc hkeys hk template)
  have hrun := replaceHoles_of_stages hoc value template (fun k hk => hkeys k (hrest k hk).1)
    (fun done hdone k hk hnew => Or.inr (hstage done hdone k (hrest k hk).1 hnew)) hrestNodup
  have hreverse : rest.reverse ⊆ rest := fun k hk => List.mem_reverse.mp hk
  have hfnew : f ∉ rest.reverse := fun hmem => hf (List.mem_reverse.mp hmem)
  have hfill := (replace_fill_iff hoc (hkeys f hfkeys) (visited_of_not_mem value hfnew) (value f)
    (pieces o c keys template)).mpr (Or.inr (hstage _ hreverse f hfkeys hfnew))
  rw [update_visited] at hfill
  -- then the last of the names has to keep its holes, too
  have hall := horders _ hperm.symm
  have hnew : n ∉ f :: rest.reverse := by simp [hn, hfn.symm]
  have hlast : replaceHoles o c value [f, n] (replaceHoles o c value rest template) =
      replace (hole o c n) (value n) (replace (hole o c f) (value f)
        (replaceHoles o c value rest template)) := rfl
  rw [replaceHoles_append, hlast, hrun, hfill,
    ← fill_visited_of_subset (n :: f :: rest.reverse) fun k hk => by
      have h := (hmem k).mp hk
      simp only [List.mem_cons, List.mem_reverse]
      tauto] at hall
  have hiff := replace_fill_iff hoc (hkeys n hnkeys) (visited_of_not_mem value hnew)
    (value n) (pieces o c keys template)
  rw [update_visited] at hiff
  rw [occurrences_eq_count hoc hkeys hnkeys template]
  rw [expand_update fun j hj => ?_]
  · exact hiff.mp hall
  · have hj := (hmem j).mp hj
    constructor
    · rintro hdone rfl
      exact hnew hdone
    · intro hjn
      simp only [List.mem_cons, List.mem_reverse]
      tauto

/-- If all values but two are inert, every order gives the template with all holes filled at once if
and only if there are no new holes. -/
theorem replaceHoles_eq_expand_iff {f n : List α} (hperm : keys.Perm (rest ++ [f, n]))
    (hnodup : keys.Nodup) :
    (∀ order : List (List α), order.Perm keys →
      replaceHoles o c value order template = expand o c keys value template) ↔
        NoNewHoles o c keys value template := by
  refine ⟨fun horders => ?_, fun h order horder =>
    replaceHoles_eq_expand hoc hkeys hnodup h horder⟩
  have hn := noNewHoles_last hoc hkeys hrest hperm hnodup horders
  have hswap : keys.Perm (rest ++ [n, f]) :=
    hperm.trans (List.Perm.append_left rest (List.Perm.swap n f []))
  have hf := noNewHoles_last hoc hkeys hrest hswap hnodup horders
  have hmem : ∀ k, k ∈ keys ↔ k ∈ rest ∨ k = f ∨ k = n := by simp [hperm.mem_iff]
  have hparts := hperm.nodup_iff.mp hnodup
  rw [List.nodup_append] at hparts
  obtain ⟨hrestNodup, hfn, hdisjoint⟩ := hparts
  -- the two free values first
  have hrun := replaceHoles_of_stages hoc value template
    (fun k hk => hkeys k ((hmem k).mpr (Or.inr (by simpa using hk))))
    (fun done _ k hk hnew => by
      have hk' := (hmem k).mpr (Or.inr (by simpa using hk))
      have hfree : value k = hole o c k ∨ occurrences (hole o c k)
          (expand o c keys (Function.update value k (hole o c k)) template) =
            occurrences (hole o c k) template := by
        rcases List.mem_pair.mp hk with rfl | rfl
        · exact hf
        · exact hn
      exact hfree.imp_right (occurrences_visited hoc hkeys hk' hnew))
    hfn
  have hnew : ∀ k ∈ rest, k ∉ [f, n].reverse := fun k hk hmem =>
    hdisjoint k hk k (List.mem_reverse.mp hmem) rfl
  have hall := horders _ (List.perm_append_comm.trans hperm.symm)
  rw [replaceHoles_append, hrun, ← fill_visited_of_subset (rest.reverse ++ [f, n].reverse)
    fun k hk => by
      have h := (hmem k).mp hk
      simp only [List.mem_append, List.mem_reverse, List.mem_pair]
      tauto] at hall
  -- then the inert ones take away the brackets of the pieces only
  have hinert := (occurrences_of_replaceHoles _ hoc hkeys hrest 0 hrestNodup hnew
    (fun k hk => count_le_occurrences hoc (hkeys k (hrest k hk).1)
      (visited_of_not_mem value (hnew k hk)) (pieces o c keys template)) le_rfl
    (congrArg (List.count o) hall).ge).2
  intro k hk
  rcases (hmem k).mp hk with hkrest | rfl | rfl
  · refine Or.inr ?_
    have hothers : ∀ j ∈ rest.filter (· ≠ k), j ∈ keys ∧ Inert o c keys (value j) := fun j hj =>
      hrest j (List.mem_of_mem_filter hj)
    have hsame := occurrences_visited_inert [f, n].reverse hoc hkeys hothers hk
      (fun hmem => of_decide_eq_true (List.mem_filter.mp hmem).2 rfl) (pieces o c keys template)
    rw [occurrences_eq_count hoc hkeys hk template, ← hinert k hkrest, ← hsame]
    refine congrArg (occurrences (hole o c k)) (expand_update (fun j hj => ?_) template)
    have hj := (hmem j).mp hj
    simp only [List.mem_append, List.mem_filter, List.mem_reverse, List.mem_pair]
    constructor
    · rintro (h | h) rfl
      · exact of_decide_eq_true h.2 rfl
      · exact hnew j hkrest (List.mem_reverse.mpr (List.mem_pair.mpr h))
    · exact fun hjk => hj.imp_left fun h => ⟨h, decide_eq_true hjk⟩
  · exact hf
  · exact hn

end

end Foundation.Templates
