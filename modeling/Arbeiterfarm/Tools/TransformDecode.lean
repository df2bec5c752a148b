import Arbeiterfarm.Web.UrlEncoding

/-!
# Hex digits and percent escapes

`transform.decode` takes hex digits two bytes at a time from the UTF-8 text of its input. A pair
that is no text by itself counts as the digits `00`, and the parser of a number allows a sign before
its digits. A percent sign takes the next two bytes in the same way.
-/

namespace Arbeiterfarm.Tools

open Web

/-! ### Pairs of digits -/

/-- `is_ascii_whitespace`. -/
def isAsciiWhitespace (code : ℕ) : Bool :=
  code = 9 || code = 10 || code = 12 || code = 13 || code = 32

/-- The text of two bytes: `from_utf8(chunk).unwrap_or("00")`. -/
def pairText (b c : UInt8) : List Char := (fromUtf8 [b, c]).getD ['0', '0']

/-- `u8::from_str_radix` of the text of two bytes. -/
def pairValue (b c : UInt8) : Option UInt8 :=
  if (fromUtf8 [b, c]).isSome then hexByte b c else hexByte 48 48

def invalidDigit : String := "invalid digit found in string"

/-- The value of each pair. The number of bytes is even. -/
def pairValues {ε : Type} (invalid : List Char → ε) : List UInt8 → Except ε (List UInt8)
  | b :: c :: rest =>
    match pairValue b c with
    | some value => (pairValues invalid rest).map (value :: ·)
    | none       => .error (invalid (pairText b c))
  | _ => .ok []

/-- An error of the tool. -/
structure DecodeError where
  code : String
  message : String
  deriving DecidableEq, Repr

/-- The encoding `hex`: every byte of the input is taken for a character. -/
def decodeHex (data : List UInt8) : Except DecodeError (List UInt8) :=
  let hex_str := (data.filter fun b => !isAsciiWhitespace b.toNat).map byteAsChar
  if (utf8 hex_str).length % 2 ≠ 0 then .error ⟨"decode_error", "hex string has odd length"⟩
  else
    pairValues (fun s => ⟨"hex_error", s!"invalid hex at '{String.ofList s}': " ++ invalidDigit⟩)
      (utf8 hex_str)

/-- `parse_hex_key`. -/
def parseHexKey (hex : String) : Except String (List UInt8) :=
  let clean := hex.toList.filter fun c => !isAsciiWhitespace c.toNat
  if (utf8 clean).length % 2 ≠ 0 then .error "XOR key hex has odd length"
  else
    pairValues (fun s => s!"invalid hex in key at '{String.ofList s}': " ++ invalidDigit)
      (utf8 clean)

/-! ### Percent escapes -/

def percentBytes : List UInt8 → List UInt8
  | [] => []
  | [b] => [plainByte b]
  | [b, c] => [plainByte b, plainByte c]
  | b :: c :: d :: rest =>
    if b = 37 then
      match pairValue c d with
      | some value => value :: percentBytes rest
      | none       => plainByte b :: percentBytes (c :: d :: rest)
    else plainByte b :: percentBytes (c :: d :: rest)

/-- `percent_decode`. -/
def percentDecode (s : String) : List UInt8 := percentBytes (utf8 s.toList)

/-! ### The grammar -/

/-- The digit of a number below 16. -/
def digitByte (n : ℕ) : UInt8 := UInt8.ofNat (if n < 10 then 48 + n else 87 + n)

/-- Hex encoding. -/
def hexText (bytes : List UInt8) : List UInt8 :=
  bytes.flatMap fun b => [digitByte (b.toNat / 16), digitByte (b.toNat % 16)]

/-- `to_ascii_lowercase`. -/
def lowered (b : UInt8) : UInt8 := if 65 ≤ b.toNat ∧ b.toNat ≤ 90 then b + 32 else b

def isHexDigit (b : UInt8) : Bool := (hexDigit b).isSome

/-- The digits are accepted if there is an even number of them and nothing else, and what is read
from them is what they encode. -/
structure ReadsHex {ε : Type} (digits : List UInt8) (result : Except ε (List UInt8)) : Prop where
  accepts : (∃ bytes, result = .ok bytes) ↔ digits.length % 2 = 0 ∧ ∀ b ∈ digits, isHexDigit b
  inverts : ∀ bytes, result = .ok bytes ↔ digits.map lowered = hexText bytes

/-- Only a percent sign and two digits are an escape. -/
def percentRead : List UInt8 → List UInt8
  | [] => []
  | [b] => [plainByte b]
  | [b, c] => [plainByte b, plainByte c]
  | b :: c :: d :: rest =>
    match hexDigit c, hexDigit d with
    | some hi, some lo =>
      if b = 37 then UInt8.ofNat (hi * 16 + lo) :: percentRead rest
      else plainByte b :: percentRead (c :: d :: rest)
    | _, _ => plainByte b :: percentRead (c :: d :: rest)

/-! ### What else is accepted -/

/-- Two bytes that are read as a number without being two digits: a sign and a digit, or a part of a
longer character. -/
def IsMisread (b c : UInt8) : Prop :=
  fromUtf8 [b, c] = none ∨ (b = 43 ∧ isHexDigit c)

instance (b c : UInt8) : Decidable (IsMisread b c) := inferInstanceAs (Decidable (_ ∨ _))

def pairs : List UInt8 → List (UInt8 × UInt8)
  | b :: c :: rest => (b, c) :: pairs rest
  | _ => []

/-- Either every pair is two digits, or one of them is rejected. -/
def PairsDecide (bytes : List UInt8) : Prop :=
  bytes.length % 2 ≠ 0 ∨ (∀ p ∈ pairs bytes, isHexDigit p.1 ∧ isHexDigit p.2) ∨
    ∃ p ∈ pairs bytes, ¬(isHexDigit p.1 ∧ isHexDigit p.2) ∧ ¬IsMisread p.1 p.2

/-- No percent sign stands before two bytes that are misread. -/
def EscapesDecide (bytes : List UInt8) : Prop :=
  ∀ b c, [37, b, c] <:+: bytes → ¬IsMisread b c

end Arbeiterfarm.Tools
