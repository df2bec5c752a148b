import Arbeiterfarm.Core.Bytes
import Arbeiterfarm.Core.Text

/-!
# Indices in jq

`indices` looks for a text in a text and goes on one byte after each occurrence that it has found:
inside a character, if the text begins with one of several bytes, and past the end, if it is empty.
In an array it looks for elements only, also if it is asked for an array.
-/

namespace Arbeiterfarm.Tools.Jq

open Foundation.Offsets

/-- A value of the interpreter, up to its equality; `other` is what is neither text nor array. -/
inductive Val (A : Type) where
  | other (a : A)
  | str (s : List Char)
  | arr (vs : List (Val A))

variable {A : Type}

mutual

/-- The equality of values. -/
def Val.decEq [DecidableEq A] : (v w : Val A) → Decidable (v = w)
  | .other a, .other b => decidable_of_iff (a = b) (by simp)
  | .str s, .str t => decidable_of_iff (s = t) (by simp)
  | .arr vs, .arr ws => @decidable_of_iff _ (vs = ws) (by simp) (Val.decEqList vs ws)
  | .other _, .str _ | .other _, .arr _ | .str _, .other _ | .str _, .arr _ | .arr _, .other _
  | .arr _, .str _ => isFalse (by simp)

def Val.decEqList [DecidableEq A] : (vs ws : List (Val A)) → Decidable (vs = ws)
  | [], [] => isTrue rfl
  | v :: vs, w :: ws =>
    @decidable_of_iff _ (v = w ∧ vs = ws) (by simp)
      (@instDecidableAnd _ _ (Val.decEq v w) (Val.decEqList vs ws))
  | [], _ :: _ | _ :: _, [] => isFalse (by simp)

end

instance [DecidableEq A] : DecidableEq (Val A) := Val.decEq

/-- The width of a text in bytes. -/
def bytes (cs : List Char) : ℕ := width Char.utf8Size cs

@[simp] lemma bytes_nil : bytes [] = 0 := rfl

@[simp] lemma bytes_cons (c : Char) (cs : List Char) : bytes (c :: cs) = c.utf8Size + bytes cs :=
  rfl

@[simp] lemma bytes_append (cs ds : List Char) : bytes (cs ++ ds) = bytes cs + bytes ds :=
  width_append _ cs ds

/-- `str::find`. -/
def find (needle haystack : List Char) : Option ℕ :=
  (splitAround needle haystack).map fun p => bytes p.1

lemma le_of_split? {l : List Char} {n : ℕ} {p : List Char × List Char}
    (h : split? Char.utf8Size l n = some p) : n ≤ bytes l := by
  obtain ⟨rfl, hn⟩ := of_split?_eq_some (x := p.1) (y := p.2) h
  rw [bytes_append, ← hn]
  exact Nat.le_add_right _ _

/-- The search from the byte `start` on. To cut the text inside a character or behind its end is a
panic (`none`). -/
def stringIndices (haystack needle : List Char) (start : ℕ) : Option (List ℕ) :=
  match h : split? Char.utf8Size haystack start with
  | none => none
  | some p =>
    have := le_of_split? h
    match find needle p.2 with
    | none => some []
    | some pos =>
      (stringIndices haystack needle (start + (pos + 1))).map ((start + pos) :: ·)
termination_by bytes haystack + 1 - start
decreasing_by omega

/-- The outcome for one output of the needle's filter; `Error::Type` has the value. -/
def nativeIndices [DecidableEq A] (val needle : Val A) : Option (Except (Val A) (List ℕ)) :=
  match val, needle with
  | .str haystack, .str needle => (stringIndices haystack needle 0).map .ok
  | .arr haystack, needle =>
    some (.ok ((haystack.zipIdx.filter fun p => p.1 = needle).map Prod.snd))
  | val, _ => some (.error val)

/-! ### What it should find -/

/-- The list has the numbers with the property, in ascending order. -/
def Lists (p : ℕ → Prop) (indices : List ℕ) : Prop :=
  indices.Pairwise (· < ·) ∧ ∀ i, i ∈ indices ↔ p i

/-- The needle stands at the byte `i`. -/
def OccursAt (needle haystack : List Char) (i : ℕ) : Prop :=
  ∃ x y, haystack = x ++ y ∧ bytes x = i ∧ needle <+: y

/-- Nothing panics, and what is asked for is found. -/
def Finds [DecidableEq A] (val needle : Val A) : Prop :=
  match val, needle with
  | .str haystack, .str needle =>
    ∃ indices, nativeIndices (A := A) (.str haystack) (.str needle) = some (.ok indices) ∧
      (needle ≠ [] → Lists (OccursAt needle haystack) indices)
  | .arr haystack, .arr needle =>
    ∃ indices, nativeIndices (.arr haystack) (.arr needle) = some (.ok indices) ∧
      Lists (fun i => i < haystack.length ∧ needle <+: haystack.drop i) indices
  | .arr haystack, needle =>
    ∃ indices, nativeIndices (.arr haystack) needle = some (.ok indices) ∧
      Lists (fun i => haystack[i]? = some needle) indices
  | val, needle => (nativeIndices val needle).isSome

/-- A text is sought that begins with a character of one byte or does not occur. An array is sought
that is no element and does not occur, or the empty one among empty arrays. -/
def Findable (val needle : Val A) : Prop :=
  match val, needle with
  | .str haystack, .str needle =>
    ∃ c cs, needle = c :: cs ∧ (c.utf8Size = 1 ∨ ¬needle <:+: haystack)
  | .arr haystack, .arr needle =>
    (needle = [] ∧ ∀ v ∈ haystack, v = .arr []) ∨
      (needle ≠ [] ∧ .arr needle ∉ haystack ∧ ¬needle <:+: haystack)
  | _, _ => True

/-! ### Texts -/

variable {haystack needle x rest before after : List Char} {start : ℕ}

lemma stringIndices_eq_none (h : split? Char.utf8Size haystack start = none) :
    stringIndices haystack needle start = none := by
  rw [stringIndices]
  split
  · rfl
  · rename_i p hp
    exact absurd (h.symm.trans hp) (by simp)

/-- The search in the rest of the text. -/
lemma stringIndices_append (x rest needle : List Char) :
    stringIndices (x ++ rest) needle (bytes x) =
      match splitAround needle rest with
      | none => some []
      | some p => (stringIndices (x ++ rest) needle (bytes x + (bytes p.1 + 1))).map
          ((bytes x + bytes p.1) :: ·) := by
  have hsplit := split?_append Char.utf8Size_pos x rest
  rw [stringIndices]
  split
  · rename_i h
    exact absurd (h.symm.trans hsplit) (by simp)
  · rename_i p hp
    obtain rfl := Option.some.inj (hp.symm.trans hsplit)
    rw [find]
    cases splitAround needle rest <;> rfl

/-- No occurrence begins before the first one. -/
lemma length_le_of_splitAround (h : splitAround needle rest = some (before, after))
    {u v : List Char} (huv : rest = u ++ v) (hv : needle <+: v) : before.length ≤ u.length := by
  induction rest generalizing before u with
  | nil =>
    rw [splitAround] at h
    split_ifs at h
    cases h
    exact Nat.zero_le _
  | cons c rest ih =>
    by_cases hpre : needle <+: c :: rest
    · rw [splitAround_cons_pos hpre] at h
      cases h
      exact Nat.zero_le _
    · rw [splitAround_cons_neg hpre] at h
      obtain ⟨⟨before', after'⟩, htail, heq⟩ := Option.map_eq_some_iff.mp h
      cases heq
      cases u with
      | nil =>
        rw [List.nil_append] at huv
        exact absurd (huv ▸ hv) hpre
      | cons d u =>
        obtain ⟨-, huv⟩ := List.cons.inj huv
        exact Nat.succ_le_succ (ih htail huv)

/-- An occurrence is the first one, or it begins after the first character of that one. -/
lemma occursAt_iff_of_splitAround {c : Char} {cs : List Char} (hneedle : needle = c :: cs)
    (h : splitAround needle rest = some (before, after)) (i : ℕ) :
    OccursAt needle rest i ↔ i = bytes before ∨
      ∃ j, i = bytes before + (c.utf8Size + j) ∧ OccursAt needle (cs ++ after) j := by
  have hrest := eq_of_splitAround h
  subst hneedle
  constructor
  · rintro ⟨u, v, huv, rfl, hv⟩
    have hle := length_le_of_splitAround h huv hv
    have hbefore : before <+: rest := ⟨(c :: cs) ++ after, by rw [hrest, List.append_assoc]⟩
    obtain ⟨m, rfl⟩ := List.prefix_of_prefix_length_le hbefore ⟨v, huv.symm⟩ hle
    rw [huv, List.append_assoc, List.append_assoc] at hrest
    have hm := List.append_cancel_left hrest
    cases m with
    | nil => exact .inl (by rw [List.append_nil])
    | cons d m =>
      rw [List.cons_append, List.cons_append, List.cons.injEq] at hm
      obtain ⟨rfl, hm⟩ := hm
      exact .inr ⟨bytes m, by rw [bytes_append, bytes_cons], m, v, hm.symm, rfl, hv⟩
  · rintro (rfl | ⟨j, rfl, u, v, huv, rfl, hv⟩)
    · exact ⟨before, (c :: cs) ++ after, by rw [hrest, List.append_assoc], rfl, ⟨after, rfl⟩⟩
    · refine ⟨before ++ c :: u, v, ?_, by rw [bytes_append, bytes_cons], hv⟩
      rw [hrest, List.append_assoc, List.cons_append, huv, List.append_assoc, List.cons_append]

lemma not_occursAt (h : splitAround needle rest = none) (i : ℕ) : ¬OccursAt needle rest i := by
  rintro ⟨u, v, rfl, -, hv⟩
  exact splitAround_eq_none_iff.mp h (hv.isInfix.trans (List.suffix_append u v).isInfix)

/-- If the needle begins with a character of one byte, all occurrences are found. -/
lemma lists_stringIndices {c : Char} {cs : List Char} (hneedle : needle = c :: cs)
    (hc : c.utf8Size = 1) (x rest : List Char) :
    ∃ indices, stringIndices (x ++ rest) needle (bytes x) = some indices ∧
      Lists (fun i => ∃ j, i = bytes x + j ∧ OccursAt needle rest j) indices := by
  induction hn : rest.length using Nat.strong_induction_on generalizing x rest with
  | _ n ih =>
    rw [stringIndices_append]
    cases h : splitAround needle rest with
    | none =>
      refine ⟨[], rfl, List.Pairwise.nil, fun i => iff_of_false List.not_mem_nil ?_⟩
      rintro ⟨j, -, hj⟩
      exact not_occursAt h j hj
    | some p =>
      obtain ⟨before, after⟩ := p
      have hrest := eq_of_splitAround h
      have hx : x ++ rest = (x ++ before ++ [c]) ++ (cs ++ after) := by
        rw [hrest, hneedle]
        simp
      have hstart : bytes x + (bytes before + 1) = bytes (x ++ before ++ [c]) := by
        rw [bytes_append, bytes_append, bytes_cons, bytes_nil, hc, Nat.add_assoc]
      have hlt : (cs ++ after).length < n := by
        rw [← hn, hrest, hneedle]
        simp only [List.length_append, List.length_cons]
        omega
      obtain ⟨indices, hindices, hascending, hmem⟩ := ih _ hlt (x ++ before ++ [c]) _ rfl
      have hlater : ∀ i, i ∈ indices ↔
          ∃ j, i = bytes x + (bytes before + (c.utf8Size + j)) ∧
            OccursAt needle (cs ++ after) j := by
        intro i
        rw [hmem i, ← hstart, hc]
        simp only [Nat.add_assoc]
      simp only
      rw [hstart, hx, hindices]
      refine ⟨(bytes x + bytes before) :: indices, rfl, ?_, fun i => ?_⟩
      · refine List.pairwise_cons.mpr ⟨fun i hi => ?_, hascending⟩
        obtain ⟨j, rfl, -⟩ := (hlater i).mp hi
        omega
      · rw [List.mem_cons, hlater i]
        constructor
        · rintro (rfl | ⟨j, rfl, hj⟩)
          · exact ⟨_, rfl, (occursAt_iff_of_splitAround hneedle h _).mpr (.inl rfl)⟩
          · exact ⟨_, rfl, (occursAt_iff_of_splitAround hneedle h _).mpr (.inr ⟨j, rfl, hj⟩)⟩
        · rintro ⟨j, rfl, hj⟩
          rcases (occursAt_iff_of_splitAround hneedle h j).mp hj with rfl | ⟨k, rfl, hk⟩
          · exact .inl rfl
          · exact .inr ⟨k, rfl, hk⟩

/-- One byte behind the beginning of a character of several bytes there is no boundary. -/
lemma split?_inside {c : Char} (hc : c.utf8Size ≠ 1) (x y : List Char) :
    split? Char.utf8Size (x ++ c :: y) (bytes x + 1) = none := by
  by_contra h
  obtain ⟨⟨u, v⟩, huv⟩ := Option.ne_none_iff_exists'.mp h
  obtain ⟨heq, hwidth⟩ := (split?_eq_some_iff Char.utf8Size_pos).mp huv
  change bytes u = bytes x + 1 at hwidth
  obtain ⟨m, rfl⟩ := exists_append_of_width_le Char.utf8Size_pos heq
    (Nat.le_of_lt (Nat.lt_of_succ_le hwidth.ge))
  rw [List.append_assoc] at heq
  have hm := List.append_cancel_left heq
  rw [bytes_append, Nat.add_left_cancel_iff] at hwidth
  cases m with
  | nil => exact absurd hwidth (by simp)
  | cons d m =>
    obtain ⟨rfl, -⟩ := List.cons.inj hm
    rw [bytes_cons] at hwidth
    have := c.utf8Size_pos
    omega

lemma stringIndices_panics {c : Char} {cs : List Char} (hneedle : needle = c :: cs)
    (hc : c.utf8Size ≠ 1) (h : needle <:+: haystack) :
    stringIndices haystack needle 0 = none := by
  have hsome : splitAround needle haystack ≠ none := fun hnone =>
    splitAround_eq_none_iff.mp hnone h
  obtain ⟨⟨before, after⟩, hp⟩ := Option.ne_none_iff_exists'.mp hsome
  have hstart := stringIndices_append [] haystack needle
  rw [hp] at hstart
  have heq : haystack = before ++ c :: (cs ++ after) := by
    rw [eq_of_splitAround hp, hneedle]
    simp
  have hpanic : stringIndices haystack needle (0 + (bytes before + 1)) = none := by
    refine stringIndices_eq_none ?_
    rw [Nat.zero_add, heq]
    exact split?_inside hc before (cs ++ after)
  simp only [hpanic, List.nil_append, bytes_nil] at hstart
  exact hstart

/-- The search for the empty text goes on past the end. -/
lemma stringIndices_nil (x rest : List Char) : stringIndices (x ++ rest) [] (bytes x) = none := by
  have hempty : ∀ l : List Char, splitAround [] l = some ([], l) := by
    intro l
    cases l <;> rfl
  induction rest generalizing x with
  | nil =>
    rw [stringIndices_append, hempty]
    simp only
    rw [stringIndices_eq_none]
    · rfl
    · by_contra h
      obtain ⟨p, hp⟩ := Option.ne_none_iff_exists'.mp h
      have hle := le_of_split? hp
      rw [List.append_nil] at hle
      omega
  | cons c rest ih =>
    rw [stringIndices_append, hempty]
    simp only [bytes_nil, Nat.zero_add]
    by_cases hc : c.utf8Size = 1
    · have hstart : bytes x + 1 = bytes (x ++ [c]) := by
        rw [bytes_append, bytes_cons, bytes_nil, hc]
      have hx : x ++ c :: rest = (x ++ [c]) ++ rest := by simp
      rw [hstart, hx, ih]
      rfl
    · rw [stringIndices_eq_none (split?_inside hc x rest)]
      rfl

/-! ### Arrays -/

section

variable {α : Type} {p : ℕ → Prop} {indices : List ℕ}

lemma Lists.congr {q : ℕ → Prop} (h : Lists p indices) (hpq : ∀ i, p i ↔ q i) : Lists q indices :=
  ⟨h.1, fun i => (h.2 i).trans (hpq i)⟩

/-- The positions of the elements with a property. -/
lemma lists_zipIdx (q : α → Bool) (vs : List α) :
    Lists (fun i => ∃ v, vs[i]? = some v ∧ q v)
      ((vs.zipIdx.filter fun p => q p.1).map Prod.snd) := by
  refine ⟨?_, fun i => ?_⟩
  · have hsorted : (vs.zipIdx.map Prod.snd).Pairwise (· < ·) := by
      rw [List.zipIdx_map_snd]
      exact List.pairwise_lt_range'
    exact hsorted.sublist (List.filter_sublist.map Prod.snd)
  · rw [List.mem_map]
    constructor
    · rintro ⟨⟨v, j⟩, hmem, rfl⟩
      obtain ⟨hzip, hq⟩ := List.mem_filter.mp hmem
      exact ⟨v, List.mem_zipIdx_iff_getElem?.mp hzip, hq⟩
    · rintro ⟨v, hv, hq⟩
      exact ⟨(v, i), List.mem_filter.mpr ⟨List.mem_zipIdx_iff_getElem?.mpr hv, hq⟩, rfl⟩

end

section

variable [DecidableEq A]

lemma nativeIndices_arr (haystack : List (Val A)) (needle : Val A) : ∃ indices,
    nativeIndices (.arr haystack) needle = some (.ok indices) ∧
      Lists (fun i => haystack[i]? = some needle) indices := by
  refine ⟨(haystack.zipIdx.filter fun p => p.1 = needle).map Prod.snd, ?_, ?_⟩
  · cases needle <;> rfl
  refine (lists_zipIdx (fun v => decide (v = needle)) haystack).congr fun i => ?_
  simp

omit [DecidableEq A] in
/-- An array is no element of itself. -/
lemma arr_ne_head {vs ws : List (Val A)} {v : Val A} (hv : v = .arr vs) : vs ≠ v :: ws := by
  rintro rfl
  have hsize := congrArg sizeOf hv
  simp only [Val.arr.sizeOf_spec, List.cons.sizeOf_spec] at hsize
  omega

/-- At one place there is either an array or what it consists of, unless it is empty. -/
lemma finds_arr_iff (haystack needle : List (Val A)) :
    Finds (.arr haystack) (.arr needle) ↔
      Findable (A := A) (.arr haystack) (.arr needle) := by
  obtain ⟨indices, hindices, hlists⟩ := nativeIndices_arr haystack (.arr needle)
  have hfinds : Finds (.arr haystack) (.arr needle) ↔ ∀ i, haystack[i]? = some (.arr needle) ↔
      i < haystack.length ∧ needle <+: haystack.drop i := by
    constructor
    · rintro ⟨indices', hindices', hlists'⟩ i
      obtain rfl := Except.ok.inj (Option.some.inj (hindices.symm.trans hindices'))
      exact (hlists.2 i).symm.trans (hlists'.2 i)
    · intro h
      exact ⟨indices, hindices, hlists.congr h⟩
  rw [hfinds, Findable]
  cases needle with
  | nil =>
    simp only [List.nil_prefix, and_true, ne_eq, not_true, false_and, or_false, true_and]
    constructor
    · intro h v hv
      obtain ⟨i, hi, rfl⟩ := List.getElem_of_mem hv
      have hsome := (h i).mpr hi
      rw [List.getElem?_eq_getElem hi] at hsome
      exact Option.some.inj hsome
    · intro h i
      constructor
      · intro hi
        exact (List.getElem?_eq_some_iff.mp hi).1
      · intro hi
        rw [List.getElem?_eq_getElem hi, h _ (List.getElem_mem hi)]
  | cons v vs =>
    have hne : v :: vs ≠ [] := List.cons_ne_nil v vs
    simp only [hne, false_and, false_or, ne_eq, not_false_eq_true, true_and]
    have hboth : ∀ i, haystack[i]? = some (.arr (v :: vs)) → ¬v :: vs <+: haystack.drop i := by
      rintro i hi ⟨ws, hws⟩
      have hhead := congrArg List.head? hws
      rw [List.cons_append, List.head?_cons, List.head?_drop, hi] at hhead
      exact arr_ne_head (Option.some.inj hhead) rfl
    constructor
    · intro h
      refine ⟨fun hmem => ?_, fun hinfix => ?_⟩
      · obtain ⟨i, hi⟩ := List.mem_iff_getElem?.mp hmem
        exact hboth i hi ((h i).mp hi).2
      · obtain ⟨u, w, rfl⟩ := hinfix
        have hlt : u.length < (u ++ v :: vs ++ w).length := by simp
        have hpre : v :: vs <+: (u ++ v :: vs ++ w).drop u.length := by
          rw [List.append_assoc, List.drop_left]
          exact List.prefix_append _ _
        exact hboth _ ((h _).mpr ⟨hlt, hpre⟩) hpre
    · rintro ⟨hmem, hinfix⟩ i
      refine iff_of_false (fun hi => hmem (List.mem_of_getElem? hi)) fun hi => ?_
      exact hinfix (hi.2.isInfix.trans (List.drop_suffix i haystack).isInfix)

lemma finds_str_iff (haystack needle : List Char) :
    Finds (A := A) (.str haystack) (.str needle) ↔
      Findable (A := A) (.str haystack) (.str needle) := by
  have hfinds : Finds (A := A) (.str haystack) (.str needle) ↔ ∃ indices,
      stringIndices haystack needle 0 = some indices ∧
        (needle ≠ [] → Lists (OccursAt needle haystack) indices) := by
    simp only [Finds, nativeIndices, Option.map_eq_some_iff, Except.ok.injEq]
    simp
  rw [hfinds, Findable]
  cases needle with
  | nil =>
    have hnone : stringIndices haystack [] 0 = none := stringIndices_nil [] haystack
    simp [hnone]
  | cons c cs =>
    have hcons : (∃ d ds, c :: cs = d :: ds ∧
        (d.utf8Size = 1 ∨ ¬c :: cs <:+: haystack)) ↔
          c.utf8Size = 1 ∨ ¬c :: cs <:+: haystack := by
      constructor
      · rintro ⟨d, ds, heq, h⟩
        cases heq
        exact h
      · intro h
        exact ⟨c, cs, rfl, h⟩
    rw [hcons]
    by_cases hc : c.utf8Size = 1
    · refine iff_of_true ?_ (.inl hc)
      obtain ⟨indices, hindices, hlists⟩ :=
        lists_stringIndices (rfl : c :: cs = c :: cs) hc [] haystack
      refine ⟨indices, hindices, fun _ => hlists.congr fun i => ?_⟩
      simp
    · rw [or_iff_right hc]
      by_cases hinfix : c :: cs <:+: haystack
      · refine iff_of_false ?_ (not_not_intro hinfix)
        rintro ⟨indices, hindices, -⟩
        rw [stringIndices_panics rfl hc hinfix] at hindices
        cases hindices
      · refine iff_of_true ⟨[], ?_, fun _ => ⟨List.Pairwise.nil, fun i => ?_⟩⟩ hinfix
        · have hnone := splitAround_eq_none_iff.mpr hinfix
          have hstart := stringIndices_append [] haystack (c :: cs)
          rwa [hnone] at hstart
        · refine iff_of_false List.not_mem_nil (not_occursAt ?_ i)
          exact splitAround_eq_none_iff.mpr hinfix

/-- Everything is found exactly when the needle is a text that begins with a character of one byte
or does not occur, an array that is no element and does not occur (or empty among empty arrays), or
of another kind. -/
theorem finds_iff_findable (val needle : Val A) : Finds val needle ↔ Findable val needle := by
  cases val with
  | other a => exact iff_of_true rfl trivial
  | str haystack =>
    cases needle with
    | str needle => exact finds_str_iff haystack needle
    | other a => exact iff_of_true rfl trivial
    | arr vs => exact iff_of_true rfl trivial
  | arr haystack =>
    cases needle with
    | arr needle => exact finds_arr_iff haystack needle
    | other a => exact iff_of_true (nativeIndices_arr haystack _) trivial
    | str s => exact iff_of_true (nativeIndices_arr haystack _) trivial

/-- `"aé" | indices("é")` cuts the text inside its last character. -/
theorem not_finds_two_bytes : ¬Finds (A := Empty) (.str ['a', 'é']) (.str ['é']) := by
  rintro ⟨indices, hindices, -⟩
  have hnone : stringIndices ['a', 'é'] ['é'] 0 = none :=
    stringIndices_panics rfl (by decide) ⟨['a'], [], rfl⟩
  rw [nativeIndices, hnone] at hindices
  cases hindices

end

end Arbeiterfarm.Tools.Jq
