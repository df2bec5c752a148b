import Mathlib.Data.Int.Notation
import Mathlib.Data.Nat.Notation
import Mathlib.Logic.Basic

/-!
# Ids and JSON values

JSON values are the payloads of the database columns and of the tool calls. Object fields keep
their order; a float is kept by the text it prints as.
-/

namespace Arbeiterfarm

/-- Row ids; only their equality matters. -/
abbrev Uuid := ℕ

inductive JsonNumber where
  | int (n : ℤ)
  | float (text : String)
  deriving DecidableEq, Repr

inductive Json where
  | null
  | bool (b : Bool)
  | num (n : JsonNumber)
  | str (s : String)
  | arr (vs : List Json)
  | obj (fields : List (String × Json))
  deriving Repr, Inhabited

namespace Json

mutual

def decEq : (a b : Json) → Decidable (a = b)
  | .null, .null => isTrue rfl
  | .bool a, .bool b => decidable_of_iff (a = b) (by simp)
  | .num a, .num b => decidable_of_iff (a = b) (by simp)
  | .str a, .str b => decidable_of_iff (a = b) (by simp)
  | .arr as, .arr bs => @decidable_of_iff _ (as = bs) (by simp) (decEqList as bs)
  | .obj as, .obj bs => @decidable_of_iff _ (as = bs) (by simp) (decEqFields as bs)
  | .null, .bool _ | .null, .num _ | .null, .str _ | .null, .arr _ | .null, .obj _
  | .bool _, .null | .bool _, .num _ | .bool _, .str _ | .bool _, .arr _ | .bool _, .obj _
  | .num _, .null | .num _, .bool _ | .num _, .str _ | .num _, .arr _ | .num _, .obj _
  | .str _, .null | .str _, .bool _ | .str _, .num _ | .str _, .arr _ | .str _, .obj _
  | .arr _, .null | .arr _, .bool _ | .arr _, .num _ | .arr _, .str _ | .arr _, .obj _
  | .obj _, .null | .obj _, .bool _ | .obj _, .num _ | .obj _, .str _ | .obj _, .arr _ =>
    isFalse (by simp)

def decEqList : (as bs : List Json) → Decidable (as = bs)
  | [], [] => isTrue rfl
  | a :: as, b :: bs =>
    @decidable_of_iff _ (a = b ∧ as = bs) (by simp)
      (@instDecidableAnd _ _ (decEq a b) (decEqList as bs))
  | [], _ :: _ | _ :: _, [] => isFalse (by simp)

def decEqFields : (as bs : List (String × Json)) → Decidable (as = bs)
  | [], [] => isTrue rfl
  | (k, a) :: as, (l, b) :: bs =>
    @decidable_of_iff _ (k = l ∧ a = b ∧ as = bs) (by simp [and_assoc])
      (@instDecidableAnd _ _ inferInstance
        (@instDecidableAnd _ _ (decEq a b) (decEqFields as bs)))
  | [], _ :: _ | _ :: _, [] => isFalse (by simp)

end

instance : DecidableEq Json := decEq

/-- The field of an object. -/
def get (v : Json) (key : String) : Option Json :=
  match v with
  | .obj fields => fields.lookup key
  | _ => none

def asBool : Json → Option Bool
  | .bool b => some b
  | _ => none

def asStr : Json → Option String
  | .str s => some s
  | _ => none

def asArray : Json → Option (List Json)
  | .arr vs => some vs
  | _ => none

def asU64 : Json → Option ℕ
  | .num (.int n) => if 0 ≤ n ∧ n < 18446744073709551616 then some n.toNat else none
  | _ => none

def asI64 : Json → Option ℤ
  | .num (.int n) =>
    if -9223372036854775808 ≤ n ∧ n < 9223372036854775808 then some n else none
  | _ => none

def isString : Json → Bool
  | .str _ => true
  | _ => false

def isNumber : Json → Bool
  | .num _ => true
  | _ => false

/-- The element of an array. -/
def index (v : Json) (i : ℕ) : Option Json :=
  match v with
  | .arr vs => vs[i]?
  | _ => none

/-- The field of an object, if it is a string. -/
def strField (v : Json) (key : String) : Option String := (v.get key).bind asStr

/-- The field of an object, if it is a natural number. -/
def u64Field (v : Json) (key : String) : Option ℕ := (v.get key).bind asU64

/-! ### Reading records -/

variable {α : Type}

/-- A field with a default for a missing one. -/
def fieldOr (v : Json) (key : String) (read : Json → Option α) (default : α) : Option α :=
  match v.get key with
  | some field => read field
  | none => some default

/-- A field that may be missing or null. -/
def optionalField (v : Json) (key : String) (read : Json → Option α) : Option (Option α) :=
  match v.get key with
  | none | some .null => some none
  | some field => (read field).map some

def readList (read : Json → Option α) (v : Json) : Option (List α) := v.asArray.bind (·.mapM read)

/-- A list is read back if its elements are. -/
lemma readList_map {read : Json → Option α} {write : α → Json} {l : List α}
    (h : ∀ a ∈ l, read (write a) = some a) : readList read (.arr (l.map write)) = some l := by
  show (l.map write).mapM read = some l
  induction l with
  | nil => rfl
  | cons a l ih =>
    rw [List.map_cons, List.mapM_cons, h a List.mem_cons_self,
      ih fun b hb => h b (List.mem_cons_of_mem a hb)]
    rfl

lemma asArray_eq_some {v : Json} {vs : List Json} (h : v.asArray = some vs) : v = .arr vs := by
  cases v with
  | arr ws =>
    cases h
    rfl
  | _ => cases h

end Json

end Arbeiterfarm
