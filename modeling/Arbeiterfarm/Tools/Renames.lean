import Arbeiterfarm.Core.Bytes
import Arbeiterfarm.Core.JsonMap
import Arbeiterfarm.Foundation.WordSubstitution
import Mathlib.Data.List.Sort

/-!
# Replacing names in decompiled code

A new name of a function is put in place of the old one in the code, where the old name stands
between two word boundaries. The code is read byte by byte, and every byte that is kept is written
as the character with its number.

The renames of a project are a hash map from old to new names. They are put over a decompiled value,
which is an array of functions with their names or an object with the names as keys. A name is
looked up once, but the code goes through all renames, one after the other.
-/

namespace Arbeiterfarm.Tools

open Foundation.Words

/-! ### The scanner -/

/-- `[A-Za-z0-9_]`. -/
def isWordCode (n : ℕ) : Bool :=
  (48 ≤ n && n ≤ 57) || (65 ≤ n && n ≤ 90) || (97 ≤ n && n ≤ 122) || n == 95

def isWordChar (b : UInt8) : Bool := isWordCode b.toNat

/-- `&bytes[i..j]`. -/
def byteSlice (bytes : List UInt8) (i j : ℕ) : Option (List UInt8) :=
  if i ≤ j ∧ j ≤ bytes.length then some ((bytes.drop i).take (j - i)) else none

/-- The loop ends with a position and what has been written; `none` is a panic, or more than `fuel`
rounds. -/
def replaceLoop (bytes old_bytes : List UInt8) (new : List Char) :
    ℕ → ℕ → List Char → Option (ℕ × List Char)
  | 0, _, _ => none
  | fuel + 1, i, result =>
    let old_len := old_bytes.length
    if i ≤ bytes.length - old_len then
      (byteSlice bytes i (i + old_len)).bind fun window =>
        let before_ok := i == 0 || !bytes[i - 1]?.any isWordChar
        let after_ok := i + old_len ≥ bytes.length || !bytes[i + old_len]?.any isWordChar
        if window = old_bytes ∧ before_ok ∧ after_ok then
          replaceLoop bytes old_bytes new fuel (i + old_len) (result ++ new)
        else bytes[i]?.bind fun b =>
          replaceLoop bytes old_bytes new fuel (i + 1) (result ++ [byteAsChar b])
    else some (i, result)

def replaceWordBoundary (text old new : String) : Option String :=
  if old.isEmpty then some text
  else
    let bytes := utf8 text.toList
    (replaceLoop bytes (utf8 old.toList) new.toList (bytes.length + 1) 0 []).bind fun r =>
      if r.1 < bytes.length then
        (sliceBytes text r.1 bytes.length).map fun rest => String.ofList r.2 ++ rest
      else some (String.ofList r.2)

/-! ### What it is for -/

def isNameChar (c : Char) : Bool := isWordCode c.toNat

def IsName (s : String) : Prop := s ≠ "" ∧ ∀ c ∈ s.toList, isNameChar c

instance (s : String) : Decidable (IsName s) :=
  have := List.decidableBAll (fun c => isNameChar c = true) s.toList
  instDecidableAnd

/-- Every maximal identifier `old` is replaced by `new`. -/
def renamed (text old new : String) : String :=
  String.ofList (mapWords isNameChar (instead old.toList new.toList) [] text.toList)

/-- The old name stands somewhere in the text between two word boundaries. -/
def StandsAlone (text old : String) : Prop :=
  ∃ x y, utf8 text.toList = x ++ (utf8 old.toList ++ y) ∧ outside isWordChar x.getLast? ∧
    outside isWordChar y.head?

def Ascii (bytes : List UInt8) : Prop := ∀ b ∈ bytes, b.toNat < 128

instance (bytes : List UInt8) : Decidable (Ascii bytes) :=
  List.decidableBAll (fun b : UInt8 => b.toNat < 128) bytes

/-- The text is at least as long as the old name, it is ASCII up to the last place where this may
begin, and what stands between two word boundaries is an identifier. -/
structure Replaceable (text old new : String) : Prop where
  fits : (utf8 old.toList).length ≤ (utf8 text.toList).length
  ascii : Ascii ((utf8 text.toList).take ((utf8 text.toList).length - (utf8 old.toList).length + 1))
  name : IsName old ∨ ¬ StandsAlone text old ∨ new = old

/-! ### The overlay of new names -/

/-- A hash map; the order of its entries means nothing. -/
structure RenameMap where
  entries : List (String × String)
  nodup : (entries.map Prod.fst).Nodup

namespace RenameMap

variable (renames : RenameMap)

def get (name : String) : Option String := renames.entries.lookup name

/-- The name that something gets: `renames.get(name)`, or the name itself. -/
def newName (name : String) : String := (renames.get name).getD name

end RenameMap

/-- The renames with longer old names come first; others stay in the order of the iteration. -/
def sortRenames (iter : List (String × String)) : List (String × String) :=
  iter.insertionSort fun a b => utf8Len b.1 ≤ utf8Len a.1

def replaceAllWithWordBoundary (text : String) : List (String × String) → Option String
  | [] => some text
  | (old, new) :: rest =>
    (replaceWordBoundary text old new).bind fun result => replaceAllWithWordBoundary result rest

/-- `func[key] = value` for a key that is there. -/
def setField (key : String) (value : Json) : List (String × Json) → List (String × Json)
  | [] => []
  | (k, v) :: fields =>
    if k = key then (k, value) :: fields else (k, v) :: setField key value fields

def assign (func : Json) (key : String) (value : Json) : Json :=
  match func with
  | .obj fields => .obj (setField key value fields)
  | v => v

section

variable (rename : String → Option String) (rewrite : String → Option String)

/-- The name of a function is replaced, if it is in the map. -/
def overlayName (func : Json) : Json :=
  match func.strField "name" with
  | some name =>
    match rename name with
    | some new_name => assign func "name" (.str new_name)
    | none => func
  | none => func

/-- The code of a function is rewritten, if it has any. -/
def overlayCode (func : Json) : Option Json :=
  match func.strField "code" with
  | some code => (rewrite code).map fun new_code =>
    if new_code ≠ code then assign func "code" (.str new_code) else func
  | none => some func

/-- Names are looked up with `rename`, and the code of each function goes through `rewrite`. -/
def overlay : Json → Option Json
  | .arr funcs => (funcs.mapM fun func => overlayCode rewrite (overlayName rename func)).map .arr
  | .obj fields =>
    (fields.mapM fun e => (overlayCode rewrite e.2).map fun val =>
      ((rename e.1).getD e.1, val)).map fun entries => .obj (Json.insertAll [] entries)
  | v => some v

end

/-- `iter` is the order in which the map is iterated. -/
def applyRenamesOverlay (renames : RenameMap) (iter : List (String × String)) (decompiled : Json) :
    Option Json :=
  if iter.isEmpty then some decompiled
  else
    overlay renames.get (fun code => replaceAllWithWordBoundary code (sortRenames iter)) decompiled

/-- A decompiled value. The keys of an object are sorted. -/
structure Decompiled where
  value : Json
  sorted : ∀ fields, value = .obj fields → Json.SortedKeys fields

/-! ### What it is for -/

/-- The old name and the new one, character by character. -/
def spelled (e : String × String) : List Char × List Char := (e.1.toList, e.2.toList)

/-- All names are put in place of the old ones at once. -/
def renamedTogether (names : List (String × String)) (code : String) : String :=
  String.ofList (replaceTogether isNameChar (names.map spelled) code.toList)

/-- The functions of a value in either format. -/
def functions : Json → List Json
  | .arr funcs => funcs
  | .obj fields => fields.map Prod.snd
  | _ => []

/-- The code texts of a value. -/
def codes (decompiled : Json) : List String :=
  (functions decompiled).filterMap fun func => func.strField "code"

/-- The names that the functions of a value carry. -/
def ownNames : Json → List String
  | .arr funcs => funcs.filterMap fun func => func.strField "name"
  | .obj fields => fields.map Prod.fst
  | _ => []

/-- The names of functions that keep them. -/
def keptNames (renames : RenameMap) (decompiled : Json) : List String :=
  (ownNames decompiled).filter fun name => (renames.get name).isNone

/-- What every name becomes, the longest names first. Where two old names of one length overlap, the
one that comes first in `order` is taken. -/
def nameTable (renames : RenameMap) (order : List (String × String)) (decompiled : Json) :
    List (String × String) :=
  sortRenames (order ++ (keptNames renames decompiled).map fun name => (name, name))

/-- One substitution of names gives the names of the functions and what stands for them in all code
between two word boundaries. It is the result for all orders of iteration, and no function is
lost. -/
def IsSimultaneous (renames : RenameMap) (decompiled : Json) : Prop :=
  ∃ order, order.Perm renames.entries ∧ ∃ result,
    overlay renames.get
      (fun code => some (renamedTogether (nameTable renames order decompiled) code)) decompiled =
        some result ∧
    (functions result).length = (functions decompiled).length ∧
    ∀ iter, iter.Perm renames.entries → applyRenamesOverlay renames iter decompiled = some result

/-! ### When it is that -/

/-- The new name in place of the old one, wherever this stands between two word boundaries. -/
def replaced (text old new : String) : String :=
  String.ofList (replaceWord isNameChar (spelled (old, new)) text.toList)

/-- What has been read, with the old name where it was cut out. -/
def readOf (old_bytes : List UInt8) (tokens : List (Option UInt8)) : List UInt8 :=
  fill (fun b => [b]) old_bytes tokens

/-- The text is at least as long as the old name, and what is kept of it is ASCII up to the last
place where the old name may begin. -/
structure Rewritable (text old : String) : Prop where
  fits : (utf8 old.toList).length ≤ (utf8 text.toList).length
  ascii : ∀ x b y,
    cutWords isWordChar (utf8 old.toList) 0 none (utf8 text.toList) = x ++ some b :: y →
      (utf8 old.toList).length ≤ (readOf (utf8 old.toList) (some b :: y)).length → b.toNat < 128

/-- The renames one after the other, each of them in what the last one has left. -/
def renamedInTurn : List (String × String) → String → String
  | [], text => text
  | (old, new) :: rest, text => renamedInTurn rest (replaced text old new)

/-- Each text on the way is rewritable. -/
def RewritableInTurn : List (String × String) → String → Prop
  | [], _ => True
  | (old, new) :: rest, text =>
    (old = "" ∨ Rewritable text old) ∧ RewritableInTurn rest (replaced text old new)

/-- A character of an identifier, or of any of the names. -/
def isPieceChar (renames : RenameMap) (decompiled : Json) (c : Char) : Bool :=
  isNameChar c || renames.entries.any (fun e => e.1.toList.contains c || e.2.toList.contains c) ||
    (ownNames decompiled).any fun name => name.toList.contains c

/-- In every order of iteration, each text on the way is rewritable, and the renames in turn make of
each piece of a code what they make of it at once. Keys of an object stay distinct. -/
structure Compatible (renames : RenameMap) (decompiled : Json) : Prop where
  keys : ∀ fields, decompiled = .obj fields → (fields.map fun e => renames.newName e.1).Nodup
  rewritable : ∀ iter, iter.Perm renames.entries → ∀ code ∈ codes decompiled,
    RewritableInTurn (sortRenames iter) code
  direct : ∃ order, order.Perm renames.entries ∧
    ∀ iter, iter.Perm renames.entries → ∀ code ∈ codes decompiled,
      ∀ w ∈ words (isPieceChar renames decompiled) [] code.toList,
        renamedInTurn (sortRenames iter) (String.ofList w) =
          renamedTogether (nameTable renames order decompiled) (String.ofList w)

end Arbeiterfarm.Tools
