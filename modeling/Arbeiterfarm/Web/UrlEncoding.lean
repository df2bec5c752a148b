import Arbeiterfarm.Core.Bytes

/-!
# Percent-encoded texts

The decoder reads a text by index, and an index or a range past the end of its bytes would be a
panic (`none`). It never is one: the loop takes the same turns as `decodeBytes`, which undoes
`encode`.
-/

namespace Arbeiterfarm.Web

/-! ### Bytes -/

def hexDigit (b : UInt8) : Option ℕ :=
  let n := b.toNat
  if 48 ≤ n ∧ n ≤ 57 then some (n - 48)
  else if 65 ≤ n ∧ n ≤ 70 then some (n - 55)
  else if 97 ≤ n ∧ n ≤ 102 then some (n - 87)
  else none

/-- `from_str_radix` of two characters; a sign may stand first. -/
def hexByte (b c : UInt8) : Option UInt8 :=
  if b = 43 then (hexDigit c).map UInt8.ofNat
  else (hexDigit b).bind fun hi => (hexDigit c).map fun lo => UInt8.ofNat (hi * 16 + lo)

/-- A plus sign stands for a space. -/
def plainByte (b : UInt8) : UInt8 := if b = 43 then 32 else b

/-- The characters that `encode` leaves as they are. -/
def isUnreserved (b : UInt8) : Bool :=
  let n := b.toNat
  (65 ≤ n && n ≤ 90) || (97 ≤ n && n ≤ 122) || (48 ≤ n && n ≤ 57) || n = 45 || n = 95 || n = 46 ||
    n = 126

def upperHex (n : ℕ) : Char := Char.ofNat (if n < 10 then 48 + n else 55 + n)

def encodeByte (b : UInt8) : List Char :=
  if isUnreserved b then [Char.ofNat b.toNat]
  else ['%', upperHex (b.toNat / 16), upperHex (b.toNat % 16)]

def encode (s : List Char) : List Char := (utf8 s).flatMap encodeByte

/-- The bytes that are encoded. A percent sign is only an escape if two bytes follow it. -/
def decodeBytes : List UInt8 → Option (List UInt8)
  | [] => some []
  | [b] => some [plainByte b]
  | [b, c] => some [plainByte b, plainByte c]
  | b :: c :: d :: rest =>
    if b = 37 then (hexByte c d).bind fun byte => (decodeBytes rest).map (byte :: ·)
    else (decodeBytes (c :: d :: rest)).map (plainByte b :: ·)

/-- The text that is encoded. -/
def decode (s : List Char) : Option (List Char) := (decodeBytes (utf8 s)).bind fromUtf8

/-! ### Encodings -/

/-- A byte that ends the parameter or the attribute, or that decoding changes. -/
def isReserved (b : UInt8) : Bool := b = 34 || b = 37 || b = 38 || b = 43

/-- The second bytes are a percent-encoding of the first: any byte may be escaped, and those that
are not reserved may stand for themselves. -/
inductive Encodes : List UInt8 → List UInt8 → Prop
  | nil : Encodes [] []
  | literal {b : UInt8} {bs es : List UInt8} (hb : isReserved b = false) (h : Encodes bs es) :
      Encodes (b :: bs) (b :: es)
  | escaped {b hi lo : UInt8} {bs es : List UInt8} (hhi : hexDigit hi = some (b.toNat / 16))
      (hlo : hexDigit lo = some (b.toNat % 16)) (h : Encodes bs es) :
      Encodes (b :: bs) (37 :: hi :: lo :: es)
  | space {bs es : List UInt8} (h : Encodes bs es) : Encodes (32 :: bs) (43 :: es)

lemma upperHex_eq : ∀ n < 16, utf8 [upperHex n] = [UInt8.ofNat (upperHex n).toNat] ∧
    hexDigit (UInt8.ofNat (upperHex n).toNat) = some n := by decide

lemma utf8_of_unreserved : ∀ n < 256, isUnreserved (UInt8.ofNat n) →
    utf8 [Char.ofNat n] = [UInt8.ofNat n] ∧ isReserved (UInt8.ofNat n) = false := by decide +kernel

lemma Encodes.encodeByte (b : UInt8) {bs es : List UInt8} (h : Encodes bs es) :
    Encodes (b :: bs) (utf8 (encodeByte b) ++ es) := by
  have hb := b.toNat_lt
  rw [Web.encodeByte]
  by_cases hplain : isUnreserved b
  · have hbyte := utf8_of_unreserved b.toNat hb (by rwa [UInt8.ofNat_toNat])
    rw [UInt8.ofNat_toNat] at hbyte
    rw [if_pos hplain, hbyte.1]
    exact .literal hbyte.2 h
  · have hhi := upperHex_eq (b.toNat / 16) (by omega)
    have hlo := upperHex_eq (b.toNat % 16) (by omega)
    have hutf8 : utf8 ['%', upperHex (b.toNat / 16), upperHex (b.toNat % 16)] =
        [37] ++ (utf8 [upperHex (b.toNat / 16)] ++ utf8 [upperHex (b.toNat % 16)]) := by
      rw [← utf8_append]
      rfl
    rw [if_neg hplain, hutf8, hhi.1, hlo.1]
    exact .escaped hhi.2 hlo.2 h

/-- What `encode` makes of a text is an encoding of it. -/
lemma encodes_encode (s : List Char) : Encodes (utf8 s) (utf8 (encode s)) := by
  rw [encode]
  induction utf8 s with
  | nil => exact .nil
  | cons b bs ih =>
    rw [List.flatMap_cons, utf8_append]
    exact ih.encodeByte b

/-- Quotation marks are escaped. -/
lemma Encodes.quote_not_mem {bs es : List UInt8} (h : Encodes bs es) : 34 ∉ es := by
  have hdigit : ∀ {b : UInt8} {n : ℕ}, hexDigit b = some n → 34 ≠ b := by
    rintro b n hb rfl
    cases hb
  induction h with
  | nil => simp
  | literal hb h ih =>
    refine List.not_mem_cons_of_ne_of_not_mem ?_ ih
    rintro rfl
    cases hb
  | escaped hhi hlo h ih => simp [ih, hdigit hhi, hdigit hlo]
  | space h ih => simp [ih]

lemma decodeBytes_cons {b : UInt8} (hb : b ≠ 37) (bs : List UInt8) :
    decodeBytes (b :: bs) = (decodeBytes bs).map (plainByte b :: ·) := by
  match bs with
  | [] => rfl
  | [c] => rfl
  | c :: d :: rest => rw [decodeBytes, if_neg hb]

lemma hexByte_eq {b hi lo : UInt8} (hhi : hexDigit hi = some (b.toNat / 16))
    (hlo : hexDigit lo = some (b.toNat % 16)) : hexByte hi lo = some b := by
  have hplus : hi ≠ 43 := by
    rintro rfl
    cases hhi
  rw [hexByte, if_neg hplus, hhi, hlo]
  simp only [Option.bind_some, Option.map_some, Nat.div_add_mod', UInt8.ofNat_toNat]

/-- Decoding undoes every encoding, whatever follows it. -/
lemma decodeBytes_append {bs es : List UInt8} (h : Encodes bs es) (rest : List UInt8) :
    decodeBytes (es ++ rest) = (decodeBytes rest).map (bs ++ ·) := by
  induction h with
  | nil => simp
  | @literal b bs es hb h ih =>
    simp only [isReserved, Bool.or_eq_false_iff, decide_eq_false_iff_not] at hb
    rw [List.cons_append, decodeBytes_cons hb.1.1.2, ih, Option.map_map, plainByte, if_neg hb.2]
    rfl
  | @escaped b hi lo bs es hhi hlo h ih =>
    rw [List.cons_append, List.cons_append, List.cons_append, decodeBytes, if_pos rfl,
      hexByte_eq hhi hlo, Option.bind_some, ih, Option.map_map]
    rfl
  | @space bs es h ih =>
    rw [List.cons_append, decodeBytes_cons (by decide), ih, Option.map_map]
    rfl

lemma decode_append {u encoded : List Char} (h : Encodes (utf8 u) (utf8 encoded))
    (params : List Char) : decode (encoded ++ params) = (decode params).map (u ++ ·) := by
  rw [decode, decode, utf8_append, decodeBytes_append h]
  cases decodeBytes (utf8 params) with
  | none => rfl
  | some bs => exact fromUtf8_append u bs

namespace Urlencoding

/-- The characters that need no escape in a URL. -/
def IsUnreservedChar (c : Char) : Prop := c.isAlphanum ∨ c ∈ ['-', '_', '.', '~']

instance (c : Char) : Decidable (IsUnreservedChar c) :=
  inferInstanceAs (Decidable (c.isAlphanum = true ∨ c ∈ ['-', '_', '.', '~']))

/-! ### Decoding by index -/

/-- The value of the digits; one that does not fit into a byte is an error. -/
def hexValue (value : ℕ) : List UInt8 → Option ℕ
  | []      => some value
  | b :: bs =>
    match hexDigit b with
    | none => none
    | some digit => if value * 16 + digit < 256 then hexValue (value * 16 + digit) bs else none

/-- `u8::from_str_radix` with radix 16; a plus sign may stand before the digits. -/
def fromStrRadix (src : List UInt8) : Option UInt8 :=
  let digits := if src.head? = some 43 then src.tail else src
  if digits = [] then none else (hexValue 0 digits).map UInt8.ofNat

/-- `&bytes[i..j]`. -/
def slice (bytes : List UInt8) (i j : ℕ) : Option (List UInt8) :=
  if i ≤ j ∧ j ≤ bytes.length then some ((bytes.take j).drop i) else none

/-- The loop of `decode` from index `i` on. -/
def decodeLoop (bytes : List UInt8) (i : ℕ) (result : List UInt8) :
    Option (Except Unit (List UInt8)) :=
  if i < bytes.length then
    match bytes[i]? with
    | none => none
    | some b =>
      if b = 37 ∧ i + 2 < bytes.length then
        match slice bytes (i + 1) (i + 3) with
        | none => none
        | some pair =>
          match (fromUtf8 pair).bind fun hex => fromStrRadix (utf8 hex) with
          | none => some (.error ())
          | some byte => decodeLoop bytes (i + 3) (result ++ [byte])
      -- a percent sign in the last two bytes stands for itself
      else if b = 43 then decodeLoop bytes (i + 1) (result ++ [32])
      else decodeLoop bytes (i + 1) (result ++ [b])
  else some (.ok result)
termination_by bytes.length - i

def decode (s : List Char) : Option (Except Unit (List Char)) :=
  match decodeLoop (utf8 s) 0 [] with
  | none => none
  | some (.error e) => some (.error e)
  | some (.ok result) =>
    match fromUtf8 result with
    | none => some (.error ())
    | some text => some (.ok text)

/-! ### A pair of digits -/

lemma hexDigit_bounds {b : UInt8} {n : ℕ} (h : hexDigit b = some n) : n < 16 ∧ b.toNat < 128 := by
  simp only [hexDigit] at h
  split_ifs at h <;> obtain rfl := Option.some.inj h <;> omega

lemma hexValue_cons {value : ℕ} (hvalue : value < 16) (b : UInt8) (bs : List UInt8) :
    hexValue value (b :: bs) = (hexDigit b).bind fun digit => hexValue (value * 16 + digit) bs := by
  rw [hexValue]
  cases hdigit : hexDigit b with
  | none => rfl
  | some digit =>
    have hlt := (hexDigit_bounds hdigit).1
    exact if_pos (by omega)

lemma fromStrRadix_pair (b c : UInt8) : fromStrRadix [b, c] = hexByte b c := by
  rw [fromStrRadix, hexByte]
  by_cases hplus : b = 43
  · rw [if_pos hplus, hplus]
    simp only [List.head?_cons, if_true, List.tail_cons, hexValue_cons (Nat.zero_lt_succ 15)]
    cases hexDigit c <;> simp [hexValue]
  · have hhead : ¬ [b, c].head? = some 43 := by simpa using hplus
    rw [if_neg hplus]
    simp only [if_neg hhead, hexValue_cons (Nat.zero_lt_succ 15)]
    cases hhi : hexDigit b with
    | none => simp
    | some hi =>
      have hlt : 0 * 16 + hi < 16 := by simpa using (hexDigit_bounds hhi).1
      simp only [Option.bind_some, hexValue_cons hlt]
      cases hexDigit c <;> simp [hexValue]

/-- Both bytes of a number are ASCII characters. -/
lemma lt_of_hexByte {b c byte : UInt8} (h : hexByte b c = some byte) :
    b.toNat < 128 ∧ c.toNat < 128 := by
  rw [hexByte] at h
  by_cases hplus : b = 43
  · rw [if_pos hplus] at h
    obtain ⟨n, hn, -⟩ := Option.map_eq_some_iff.mp h
    exact ⟨by simp [hplus], (hexDigit_bounds hn).2⟩
  · rw [if_neg hplus] at h
    obtain ⟨hi, hhi, hrest⟩ := Option.bind_eq_some_iff.mp h
    obtain ⟨lo, hlo, -⟩ := Option.map_eq_some_iff.mp hrest
    exact ⟨(hexDigit_bounds hhi).2, (hexDigit_bounds hlo).2⟩

/-- To read the pair as a text first makes no difference. -/
lemma bind_fromUtf8_pair (b c : UInt8) :
    ((fromUtf8 [b, c]).bind fun hex => fromStrRadix (utf8 hex)) = hexByte b c := by
  cases hhex : fromUtf8 [b, c] with
  | some hex => rw [Option.bind_some, fromUtf8_eq_some_iff.mp hhex, fromStrRadix_pair]
  | none =>
    rw [Option.bind_none]
    cases hbyte : hexByte b c with
    | none => rfl
    | some byte =>
      obtain ⟨hb, hc⟩ := lt_of_hexByte hbyte
      have hutf8 : utf8 ([byteAsChar b] ++ [byteAsChar c]) = [b] ++ [c] := by
        rw [utf8_append, utf8_byteAsChar hb, utf8_byteAsChar hc]
      have hsome : fromUtf8 [b, c] = some ([byteAsChar b] ++ [byteAsChar c]) :=
        fromUtf8_eq_some_iff.mpr hutf8
      simp [hsome] at hhex

/-! ### The loop -/

lemma slice_append (before middle rest : List UInt8) :
    slice (before ++ (middle ++ rest)) before.length (before.length + middle.length) =
      some middle := by
  rw [slice, if_pos ⟨Nat.le_add_right _ _, by simp⟩, List.take_length_add_append,
    List.drop_left, List.take_left]

/-- The outcome of the loop, given what becomes of the bytes that are left. -/
def outcome (result : List UInt8) : Option (List UInt8) → Except Unit (List UInt8)
  | none         => .error ()
  | some decoded => .ok (result ++ decoded)

lemma outcome_map (result : List UInt8) (b : UInt8) (left : Option (List UInt8)) :
    outcome result (left.map (b :: ·)) = outcome (result ++ [b]) left := by
  cases left with
  | none => rfl
  | some decoded => simp [outcome]

/-- From the beginning of `rest` on, the loop decodes it, whatever stands before it. -/
def LoopDecodes (rest : List UInt8) : Prop :=
  ∀ before result, decodeLoop (before ++ rest) before.length result =
    some (outcome result (decodeBytes rest))

lemma loopDecodes_nil : LoopDecodes [] := by
  intro before result
  rw [decodeLoop, if_neg (by simp), decodeBytes, outcome, List.append_nil]

lemma decodeBytes_plain {b : UInt8} {rest : List UInt8} (hb : b = 37 → rest.length < 2) :
    decodeBytes (b :: rest) = (decodeBytes rest).map (plainByte b :: ·) := by
  by_cases hpercent : b = 37
  · match rest, hb hpercent with
    | [], _ => rfl
    | [c], _ => rfl
  · exact decodeBytes_cons hpercent rest

/-- A turn that takes one byte. -/
lemma loopDecodes_plain {b : UInt8} {rest : List UInt8} (hb : b = 37 → rest.length < 2)
    (h : LoopDecodes rest) : LoopDecodes (b :: rest) := by
  intro before result
  have hescape : ¬ (b = 37 ∧ before.length + 2 < (before ++ b :: rest).length) := by
    rintro ⟨hpercent, hlt⟩
    rw [List.length_append, Nat.add_lt_add_iff_left, List.length_cons, Nat.succ_lt_succ_iff] at hlt
    exact absurd (hb hpercent) (Nat.not_lt.mpr hlt)
  have hget : (before ++ b :: rest)[before.length]? = some b := by simp
  have hturn : decodeLoop (before ++ b :: rest) before.length result =
      decodeLoop (before ++ b :: rest) (before.length + 1) (result ++ [plainByte b]) := by
    rw [decodeLoop, if_pos (by simp), hget]
    simp only [if_neg hescape, plainByte]
    by_cases hplus : b = 43
    · rw [if_pos hplus, if_pos hplus]
    · rw [if_neg hplus, if_neg hplus]
  have hnext := h (before ++ [b]) (result ++ [plainByte b])
  rw [List.append_assoc, List.singleton_append, List.length_append, List.length_singleton] at hnext
  rw [hturn, hnext, decodeBytes_plain hb, outcome_map]

/-- A turn that takes a percent sign and the two bytes after it. -/
lemma loopDecodes_escape (c d : UInt8) {rest : List UInt8} (h : LoopDecodes rest) :
    LoopDecodes (37 :: c :: d :: rest) := by
  intro before result
  have hget : (before ++ 37 :: c :: d :: rest)[before.length]? = some 37 := by simp
  have hpair : slice (before ++ 37 :: c :: d :: rest) (before.length + 1) (before.length + 3) =
      some [c, d] := by
    have hslice := slice_append (before ++ [37]) [c, d] rest
    rw [List.append_assoc, List.length_append] at hslice
    exact hslice
  have hescape : (37 : UInt8) = 37 ∧
      before.length + 2 < (before ++ 37 :: c :: d :: rest).length := by simp
  rw [decodeLoop, if_pos (by simp), hget, decodeBytes, if_pos rfl]
  dsimp only
  rw [if_pos hescape, hpair]
  simp only [bind_fromUtf8_pair]
  cases hexByte c d with
  | none => rfl
  | some byte =>
    have hnext := h (before ++ [37, c, d]) (result ++ [byte])
    rw [List.append_assoc, List.length_append] at hnext
    rw [Option.bind_some, outcome_map]
    exact hnext

lemma loopDecodes (bytes : List UInt8) : LoopDecodes bytes := by
  induction bytes using decodeBytes.induct with
  | case1 => exact loopDecodes_nil
  | case2 b => exact loopDecodes_plain (fun _ => by simp) loopDecodes_nil
  | case3 b c =>
    have hlast : LoopDecodes [c] := loopDecodes_plain (fun _ => by simp) loopDecodes_nil
    exact loopDecodes_plain (fun _ => by simp) hlast
  | case4 c d rest ih => exact loopDecodes_escape c d ih
  | case5 b c d rest hb ih => exact loopDecodes_plain (fun hpercent => absurd hpercent hb) ih

/-- No index is out of bounds, and the outcome is that of `decodeBytes`. -/
lemma decode_eq (s : List Char) :
    decode s = some (match Web.decode s with
      | none => .error ()
      | some text => .ok text) := by
  have hloop := loopDecodes (utf8 s) [] []
  rw [List.nil_append, List.length_nil] at hloop
  rw [decode, hloop, Web.decode]
  cases decodeBytes (utf8 s) with
  | none => rfl
  | some decoded =>
    simp only [outcome, List.nil_append, Option.bind_some]
    cases fromUtf8 decoded <;> rfl

/-! ### Encoding -/

lemma isUnreservedChar_of_unreserved : ∀ n < 256, isUnreserved (UInt8.ofNat n) →
    IsUnreservedChar (Char.ofNat n) := by decide +kernel

lemma isUnreservedChar_upperHex : ∀ n < 16, IsUnreservedChar (upperHex n) := by decide

lemma mem_encodeByte {b : UInt8} {c : Char} (h : c ∈ encodeByte b) :
    IsUnreservedChar c ∨ c = '%' := by
  rw [encodeByte] at h
  by_cases hplain : isUnreserved b
  · rw [if_pos hplain, List.mem_singleton] at h
    have hchar := isUnreservedChar_of_unreserved b.toNat b.toNat_lt
    rw [UInt8.ofNat_toNat] at hchar
    exact .inl (h ▸ hchar hplain)
  · have hdigits : b.toNat / 16 < 16 ∧ b.toNat % 16 < 16 :=
      ⟨Nat.div_lt_of_lt_mul b.toNat_lt, Nat.mod_lt _ (Nat.zero_lt_succ 15)⟩
    rw [if_neg hplain] at h
    simp only [List.mem_cons, List.not_mem_nil, or_false] at h
    obtain rfl | rfl | rfl := h
    · exact .inr rfl
    · exact .inl (isUnreservedChar_upperHex _ hdigits.1)
    · exact .inl (isUnreservedChar_upperHex _ hdigits.2)

lemma decode_encode (s : List Char) : decode (encode s) = some (.ok s) := by
  have happend := decode_append (encodes_encode s) []
  have hnil : Web.decode [] = some [] := fromUtf8_utf8 []
  rw [hnil, List.append_nil, Option.map_some, List.append_nil] at happend
  rw [decode_eq, happend]

/-- Encoded texts are plain and read back, and no text makes the decoder panic. -/
theorem decode_undoes_encode :
    (∀ s : List Char, decode (encode s) = some (.ok s) ∧
      ∀ c ∈ encode s, IsUnreservedChar c ∨ c = '%') ∧
    ∀ s : List Char, ∃ result, decode s = some result := by
  refine ⟨fun s => ⟨decode_encode s, ?_⟩, fun s => ⟨_, decode_eq s⟩⟩
  intro c hc
  obtain ⟨b, -, hmem⟩ := List.mem_flatMap.mp hc
  exact mem_encodeByte hmem

end Urlencoding

end Arbeiterfarm.Web
