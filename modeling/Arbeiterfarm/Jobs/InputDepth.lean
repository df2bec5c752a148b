import Arbeiterfarm.Jobs.Enqueue

/-!
# The depth of an input

The depth of the input of a tool run is checked before the run is enqueued. It is computed with an
explicit stack of values and their depths; the computation ends early when it comes to a bound,
which is the limit of the tool plus one.
-/

namespace Arbeiterfarm.Jobs

mutual

/-- The nesting depth of a value; objects and arrays add 1. -/
def jsonDepth : Json → ℕ
  | .arr vs => elementsDepth vs + 1
  | .obj fields => fieldsDepth fields + 1
  | _ => 0

def elementsDepth : List Json → ℕ
  | [] => 0
  | v :: vs => max (jsonDepth v) (elementsDepth vs)

def fieldsDepth : List (String × Json) → ℕ
  | [] => 0
  | (_, v) :: fields => max (jsonDepth v) (fieldsDepth fields)

end

/-- The values in an object or an array. -/
def children : Json → Option (List Json)
  | .obj fields => some (fields.map (·.2))
  | .arr vs => some vs
  | _ => none

lemma sum_sizeOf_elements (vs : List Json) : (vs.map sizeOf).sum ≤ sizeOf vs := by
  induction vs with
  | nil => simp
  | cons v vs ih =>
    rw [List.map_cons, List.sum_cons, List.cons.sizeOf_spec]
    omega

lemma sum_sizeOf_fields (fields : List (String × Json)) :
    ((fields.map (·.2)).map sizeOf).sum ≤ sizeOf fields := by
  induction fields with
  | nil => simp
  | cons field fields ih =>
    rw [List.map_cons, List.map_cons, List.sum_cons, List.cons.sizeOf_spec, Prod.mk.sizeOf_spec]
    omega

lemma sum_sizeOf_children {v : Json} {vs : List Json} (h : children v = some vs) :
    (vs.map sizeOf).sum < sizeOf v := by
  cases v with
  | obj fields =>
    obtain rfl := Option.some.inj h
    rw [Json.obj.sizeOf_spec]
    exact Nat.lt_of_le_of_lt (sum_sizeOf_fields fields) (by omega)
  | arr elements =>
    obtain rfl := Option.some.inj h
    rw [Json.arr.sizeOf_spec]
    exact Nat.lt_of_le_of_lt (sum_sizeOf_elements elements) (by omega)
  | null | bool | num | str => cases h

lemma sizeOf_pos (v : Json) : 0 < sizeOf v := by
  cases v <;> simp +arith

section

-- whether the build checks the arithmetic for overflow
variable (overflow_checks : Bool)

/-- Addition of `u32` values; `none` stands for a panic. -/
def addU32 (a b : UInt32) : Option UInt32 :=
  if overflow_checks ∧ 4294967296 ≤ a.toNat + b.toNat then none else some (a + b)

def updateMax (max_depth child_depth : UInt32) : UInt32 :=
  if child_depth > max_depth then child_depth else max_depth

/-- The loop over the stack, whose top comes first. -/
def depthLoop (bail_at : UInt32) (stack : List (Json × UInt32)) (max_depth : UInt32) :
    Option UInt32 :=
  match stack with
  | [] => some max_depth
  | (v, depth) :: stack =>
    match h : children v with
    | some vs =>
      have := sum_sizeOf_children h
      (addU32 overflow_checks depth 1).bind fun d =>
        if d ≥ bail_at then some bail_at
        else
          depthLoop bail_at ((vs.map (·, d)).reverse ++ stack) (updateMax max_depth d)
    | none =>
      have := sizeOf_pos v
      depthLoop bail_at stack (updateMax max_depth depth)
termination_by (stack.map fun entry => sizeOf entry.1).sum
decreasing_by
  · simpa [Function.comp_def]
  · simpa

/-- The depth, or `bail_at` if it is not less. -/
def jsonDepthBounded (val : Json) (bail_at : UInt32) : Option UInt32 :=
  depthLoop overflow_checks bail_at [(val, 0)] 0

/-- The check of `enqueue`; `none` stands for a panic. -/
def checkDepth (input : Json) (max_input_depth : UInt32) : Option (Except EnqueueError Unit) := do
  let bail_at ← addU32 overflow_checks max_input_depth 1
  let depth ← jsonDepthBounded overflow_checks input bail_at
  if depth > max_input_depth then
    return .error (.invalidInput ("input depth " ++ toString depth ++ " exceeds max " ++
      toString max_input_depth))
  return .ok ()

end

/-! ### Depths -/

lemma fieldsDepth_eq (fields : List (String × Json)) :
    fieldsDepth fields = elementsDepth (fields.map (·.2)) := by
  induction fields with
  | nil => simp [fieldsDepth, elementsDepth]
  | cons field fields ih => rw [fieldsDepth, List.map_cons, elementsDepth, ih]

lemma jsonDepth_of_children {v : Json} {vs : List Json} (h : children v = some vs) :
    jsonDepth v = elementsDepth vs + 1 := by
  cases v with
  | obj fields =>
    obtain rfl := Option.some.inj h
    rw [jsonDepth, fieldsDepth_eq]
  | arr elements =>
    obtain rfl := Option.some.inj h
    rw [jsonDepth]
  | null | bool | num | str => cases h

lemma jsonDepth_of_no_children {v : Json} (h : children v = none) : jsonDepth v = 0 := by
  cases v with
  | obj fields => cases h
  | arr elements => cases h
  | null | bool | num | str => simp [jsonDepth]

lemma elementsDepth_le_iff {vs : List Json} {n : ℕ} :
    elementsDepth vs ≤ n ↔ ∀ v ∈ vs, jsonDepth v ≤ n := by
  induction vs with
  | nil => simp [elementsDepth]
  | cons v vs ih => simp [elementsDepth, ih]

/-- The greatest depth of a value that the entries of the stack contain. -/
def deepest (stack : List (Json × UInt32)) : ℕ :=
  (stack.map fun entry => entry.2.toNat + jsonDepth entry.1).foldr max 0

lemma deepest_le_iff {stack : List (Json × UInt32)} {n : ℕ} :
    deepest stack ≤ n ↔ ∀ entry ∈ stack, entry.2.toNat + jsonDepth entry.1 ≤ n := by
  induction stack with
  | nil => simp [deepest]
  | cons entry stack ih =>
    rw [List.forall_mem_cons, ← ih]
    exact Nat.max_le

lemma deepest_cons (v : Json) (depth : UInt32) (stack : List (Json × UInt32)) :
    deepest ((v, depth) :: stack) = max (depth.toNat + jsonDepth v) (deepest stack) := rfl

/-- What is pushed for an object or an array is as deep as its deepest value. -/
lemma deepest_push (vs : List Json) (d : UInt32) (stack : List (Json × UInt32)) :
    max d.toNat (deepest ((vs.map (·, d)).reverse ++ stack)) =
      max (d.toNat + elementsDepth vs) (deepest stack) := by
  refine eq_of_forall_ge_iff fun n => ?_
  have hvs : d.toNat + elementsDepth vs ≤ n ↔
      d.toNat ≤ n ∧ ∀ v ∈ vs, d.toNat + jsonDepth v ≤ n := by
    constructor
    · intro h
      refine ⟨Nat.le_of_add_right_le h, fun v hv => ?_⟩
      exact (Nat.add_le_add_left (elementsDepth_le_iff.mp (Nat.le_refl _) v hv) _).trans h
    · rintro ⟨hd, h⟩
      have hle : elementsDepth vs ≤ n - d.toNat :=
        elementsDepth_le_iff.mpr fun v hv => Nat.le_sub_of_add_le' (h v hv)
      omega
  rw [Nat.max_le, Nat.max_le, deepest_le_iff, deepest_le_iff, hvs]
  simp only [List.mem_append, List.mem_reverse, List.mem_map, or_imp, forall_and,
    forall_exists_index, and_imp, forall_apply_eq_imp_iff₂, and_assoc]

section

variable (overflow_checks : Bool)

lemma addU32_one {a : UInt32} (h : a.toNat + 1 < 4294967296) :
    addU32 overflow_checks a 1 = some (a + 1) ∧ (a + 1).toNat = a.toNat + 1 := by
  refine ⟨if_neg fun hover => Nat.not_le.mpr h hover.2, ?_⟩
  rw [UInt32.toNat_add, UInt32.toNat_one, Nat.mod_eq_of_lt h]

lemma toNat_updateMax (max_depth child_depth : UInt32) :
    (updateMax max_depth child_depth).toNat = max max_depth.toNat child_depth.toNat := by
  rw [updateMax]
  split_ifs with h
  · exact (Nat.max_eq_right (Nat.le_of_lt (UInt32.lt_iff_toNat_lt.mp h))).symm
  · exact (Nat.max_eq_left (Nat.le_of_not_lt (mt UInt32.lt_iff_toNat_lt.mpr h))).symm

lemma depthLoop_of_children {bail_at depth max_depth : UInt32} {v : Json} {vs : List Json}
    {stack : List (Json × UInt32)} (h : children v = some vs) :
    depthLoop overflow_checks bail_at ((v, depth) :: stack) max_depth =
      (addU32 overflow_checks depth 1).bind fun d =>
        if d ≥ bail_at then some bail_at
        else depthLoop overflow_checks bail_at ((vs.map (·, d)).reverse ++ stack)
          (updateMax max_depth d) := by
  rw [depthLoop]
  split
  · rename_i vs' hvs
    obtain rfl := Option.some.inj (h.symm.trans hvs)
    rfl
  · rename_i hnone
    cases h.symm.trans hnone

lemma depthLoop_of_no_children {bail_at depth max_depth : UInt32} {v : Json}
    {stack : List (Json × UInt32)} (h : children v = none) :
    depthLoop overflow_checks bail_at ((v, depth) :: stack) max_depth =
      depthLoop overflow_checks bail_at stack (updateMax max_depth depth) := by
  rw [depthLoop]
  split
  · rename_i vs hvs
    cases h.symm.trans hvs
  · rfl

/-- The values on the stack are not as deep as the bound, except for the value itself. -/
theorem depthLoop_eq (bail_at : UInt32) (stack : List (Json × UInt32)) (max_depth : UInt32)
    (hmax : max_depth.toNat ≤ bail_at.toNat)
    (hstack : ∀ entry ∈ stack, entry.2 = 0 ∨ entry.2.toNat < bail_at.toNat) :
    ∃ result, depthLoop overflow_checks bail_at stack max_depth = some result ∧
      result.toNat = min (max max_depth.toNat (deepest stack)) bail_at.toNat := by
  induction stack, max_depth using depthLoop.induct with
  | case1 max_depth =>
    refine ⟨max_depth, by rw [depthLoop], ?_⟩
    rw [deepest, List.map_nil, List.foldr_nil, Nat.max_zero, Nat.min_eq_left hmax]
  | case2 max_depth v depth stack vs h _ ih =>
    obtain ⟨hdepth, hstack⟩ := List.forall_mem_cons.mp hstack
    have hbound := bail_at.toNat_lt
    have hfits : depth.toNat + 1 < 4294967296 := by
      rcases hdepth with rfl | hlt
      · decide
      · exact Nat.lt_of_le_of_lt hlt hbound
    obtain ⟨hadd, hd⟩ := addU32_one overflow_checks hfits
    rw [depthLoop_of_children overflow_checks h, hadd, Option.bind_some, deepest_cons,
      jsonDepth_of_children h]
    by_cases hbail : depth + 1 ≥ bail_at
    · refine ⟨bail_at, if_pos hbail, ?_⟩
      have hle : bail_at.toNat ≤ depth.toNat + 1 := hd ▸ UInt32.le_iff_toNat_le.mp hbail
      have hdeep : bail_at.toNat ≤ depth.toNat + (elementsDepth vs + 1) := by omega
      exact (Nat.min_eq_right ((hdeep.trans (Nat.le_max_left _ _)).trans
        (Nat.le_max_right _ _))).symm
    · have hlt : (depth + 1).toNat < bail_at.toNat :=
        UInt32.lt_iff_toNat_lt.mp (UInt32.not_le.mp hbail)
      obtain ⟨result, hresult, heq⟩ := ih (depth + 1)
        (by rw [toNat_updateMax]; exact Nat.max_le.mpr ⟨hmax, Nat.le_of_lt hlt⟩) (by
          intro entry hentry
          rcases List.mem_append.mp hentry with hpushed | hold
          · obtain ⟨v, -, rfl⟩ := List.mem_map.mp (List.mem_reverse.mp hpushed)
            exact Or.inr hlt
          · exact hstack entry hold)
      refine ⟨result, (if_neg hbail).trans hresult, ?_⟩
      rw [heq, toNat_updateMax, Nat.max_assoc, deepest_push, hd, Nat.add_assoc,
        Nat.add_comm 1]
  | case3 max_depth v depth stack h _ ih =>
    obtain ⟨hdepth, hstack⟩ := List.forall_mem_cons.mp hstack
    have hle : depth.toNat ≤ bail_at.toNat := by
      rcases hdepth with rfl | hlt
      · exact Nat.zero_le _
      · exact Nat.le_of_lt hlt
    rw [depthLoop_of_no_children overflow_checks h, deepest_cons, jsonDepth_of_no_children h,
      Nat.add_zero]
    obtain ⟨result, hresult, heq⟩ := ih
      (by rw [toNat_updateMax]; exact Nat.max_le.mpr ⟨hmax, hle⟩) hstack
    refine ⟨result, hresult, ?_⟩
    rw [heq, toNat_updateMax, Nat.max_assoc]

theorem jsonDepthBounded_eq (val : Json) (bail_at : UInt32) :
    (jsonDepthBounded overflow_checks val bail_at).map (·.toNat) =
      some (min (jsonDepth val) bail_at.toNat) := by
  obtain ⟨result, hresult, heq⟩ := depthLoop_eq overflow_checks bail_at
    [(val, 0)] 0 (Nat.zero_le _) (by simp)
  rw [jsonDepthBounded, hresult, Option.map_some, heq]
  simp [deepest]

/-! ### The check -/

/-- The depth is bounded for every bound, and the check accepts the inputs within the limit. -/
def BoundsDepth (input : Json) (max_input_depth : UInt32) : Prop :=
  (∀ bail_at, (jsonDepthBounded overflow_checks input bail_at).map (·.toNat) =
      some (min (jsonDepth input) bail_at.toNat)) ∧
    (checkDepth overflow_checks input max_input_depth = some (.ok ()) ↔
      jsonDepth input ≤ max_input_depth.toNat)

/-- The check compares what it has computed up to the bound. -/
lemma checkDepth_eq_ok_iff {input : Json} {max_input_depth bail_at : UInt32}
    (h : addU32 overflow_checks max_input_depth 1 = some bail_at) :
    checkDepth overflow_checks input max_input_depth = some (.ok ()) ↔
      min (jsonDepth input) bail_at.toNat ≤ max_input_depth.toNat := by
  obtain ⟨depth, hdepth, heq⟩ :=
    Option.map_eq_some_iff.mp (jsonDepthBounded_eq overflow_checks input bail_at)
  simp only [checkDepth, h, hdepth, Option.bind_eq_bind, Option.bind_some]
  rw [← heq, ← UInt32.le_iff_toNat_le]
  by_cases hgt : depth > max_input_depth
  · simp [hgt, UInt32.not_le.mpr hgt]
  · simp [hgt, UInt32.not_lt.mp hgt]

theorem boundsDepth_iff (input : Json) (max_input_depth : UInt32) :
    BoundsDepth overflow_checks input max_input_depth ↔
      max_input_depth ≠ 4294967295 ∨ (overflow_checks ↔ 4294967296 ≤ jsonDepth input) := by
  rw [BoundsDepth, and_iff_right (jsonDepthBounded_eq overflow_checks input)]
  by_cases hlast : max_input_depth = 4294967295
  · -- the bound is not representable: the addition panics, or the bound is 0
    subst hlast
    cases overflow_checks with
    | true =>
      have hpanic : checkDepth true input 4294967295 = none := rfl
      have hlimit : (4294967295 : UInt32).toNat = 4294967295 := rfl
      simp only [hpanic, hlimit, reduceCtorEq, false_iff, ne_eq, not_true, false_or, true_iff]
      omega
    | false =>
      have hwraps : addU32 false 4294967295 1 = some 0 := rfl
      have hlimit : (4294967295 : UInt32).toNat = 4294967295 := rfl
      rw [checkDepth_eq_ok_iff false hwraps, hlimit, UInt32.toNat_zero, Nat.min_zero]
      simp only [ne_eq, not_true, false_or, Bool.false_eq_true, false_iff]
      omega
  · have hlt := max_input_depth.toNat_lt
    have hne : max_input_depth.toNat ≠ 4294967295 := fun heq =>
      hlast (UInt32.toNat_inj.mp heq)
    have hfits : max_input_depth.toNat + 1 < 4294967296 := by omega
    obtain ⟨hadd, hbail⟩ := addU32_one overflow_checks hfits
    rw [checkDepth_eq_ok_iff overflow_checks hadd, hbail, iff_true_right (Or.inl hlast)]
    omega

/-- With the greatest limit not even a scalar passes the check. -/
theorem not_boundsDepth_greatest_limit : ¬BoundsDepth true (.num (.int 1)) 4294967295 := by
  rintro ⟨-, h⟩
  have hdepth : jsonDepth (.num (.int 1)) ≤ (4294967295 : UInt32).toNat := by simp [jsonDepth]
  cases h.mpr hdepth

end

end Arbeiterfarm.Jobs
