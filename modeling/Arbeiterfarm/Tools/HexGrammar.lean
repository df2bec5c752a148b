import Arbeiterfarm.Tools.TransformDecode
import Mathlib.Tactic.SplitIfs

/-!
# The grammar of hex digits and percent escapes

The decoders read what they should exactly when no misread pair decides: a text with a misread pair
is only refused if another pair is no number, and a percent sign before a misread pair always gives
a wrong byte.
-/

namespace Arbeiterfarm.Tools

open Web

/-! ### Digits -/

lemma toNat_lowered (b : UInt8) : (lowered b).toNat =
    if 65 ≤ b.toNat ∧ b.toNat ≤ 90 then b.toNat + 32 else b.toNat := by
  rw [lowered]
  split_ifs with h
  · rw [UInt8.toNat_add]
    exact Nat.mod_eq_of_lt (by simp; omega)
  · rfl

lemma toNat_digitByte {n : ℕ} (hn : n < 16) :
    (digitByte n).toNat = if n < 10 then 48 + n else 87 + n := by
  rw [digitByte, UInt8.toNat_ofNat']
  exact Nat.mod_eq_of_lt (by split_ifs <;> omega)

/-- A digit in either case is the lowercase digit of its value. -/
lemma hexDigit_eq_some_iff {b : UInt8} {n : ℕ} :
    hexDigit b = some n ↔ n < 16 ∧ lowered b = digitByte n := by
  have hiff : n < 16 → (lowered b = digitByte n ↔ (lowered b).toNat = (digitByte n).toNat) :=
    fun _ => UInt8.toNat_inj.symm
  rw [hexDigit]
  constructor
  · intro h
    have hn : n < 16 := by
      split_ifs at h <;> simp at h <;> omega
    rw [hiff hn, toNat_lowered, toNat_digitByte hn]
    refine ⟨hn, ?_⟩
    split_ifs at h <;> simp at h <;> split_ifs <;> omega
  · rintro ⟨hn, h⟩
    rw [hiff hn, toNat_lowered, toNat_digitByte hn] at h
    split_ifs at h ⊢ <;> first | (simp; omega) | omega

lemma isHexDigit_iff {b : UInt8} : isHexDigit b ↔ ∃ n < 16, lowered b = digitByte n := by
  simp [isHexDigit, Option.isSome_iff_exists, hexDigit_eq_some_iff]

lemma digitByte_injective {m n : ℕ} (hm : m < 16) (hn : n < 16) (h : digitByte m = digitByte n) :
    m = n := by
  have hnat := congrArg UInt8.toNat h
  rw [toNat_digitByte hm, toNat_digitByte hn] at hnat
  split_ifs at hnat <;> omega

lemma lt_of_isHexDigit {b : UInt8} (h : isHexDigit b) : b.toNat < 128 := by
  by_contra hge
  simp only [isHexDigit, hexDigit] at h
  split_ifs at h <;> first | omega | simp at h

/-! ### Pairs -/

lemma fromUtf8_pair {b c : UInt8} (hb : b.toNat < 128) (hc : c.toNat < 128) :
    fromUtf8 [b, c] = some [byteAsChar b, byteAsChar c] := by
  rw [fromUtf8_eq_some_iff, ← List.singleton_append, utf8_append, utf8_byteAsChar hb,
    utf8_byteAsChar hc]
  rfl

lemma not_isMisread {b c : UInt8} (hb : isHexDigit b) (hc : isHexDigit c) : ¬IsMisread b c := by
  rintro (hcut | ⟨rfl, -⟩)
  · simp [fromUtf8_pair (lt_of_isHexDigit hb) (lt_of_isHexDigit hc)] at hcut
  · exact absurd hb (by decide)

/-- Two digits are the byte that they encode. -/
lemma pairValue_of_digits {b c : UInt8} {hi lo : ℕ} (hb : hexDigit b = some hi)
    (hc : hexDigit c = some lo) : pairValue b c = some (UInt8.ofNat (hi * 16 + lo)) := by
  have hb' : isHexDigit b := by simp [isHexDigit, hb]
  have hc' : isHexDigit c := by simp [isHexDigit, hc]
  have hplus : b ≠ 43 := by
    rintro rfl
    cases hb
  rw [pairValue, fromUtf8_pair (lt_of_isHexDigit hb') (lt_of_isHexDigit hc'), Option.isSome_some,
    if_pos rfl, hexByte, if_neg hplus, hb, hc]
  rfl

lemma isSome_pairValue_iff {b c : UInt8} :
    (pairValue b c).isSome ↔ (isHexDigit b ∧ isHexDigit c) ∨ IsMisread b c := by
  rw [pairValue, IsMisread]
  cases htext : fromUtf8 [b, c] with
  | none => simp [show hexByte 48 48 = some 0 from rfl]
  | some s =>
    rw [Option.isSome_some, if_pos rfl, hexByte]
    by_cases hplus : b = 43
    · subst hplus
      simp [isHexDigit, show hexDigit 43 = none from rfl]
    · rw [if_neg hplus]
      cases hb : hexDigit b <;> cases hc : hexDigit c <;> simp [isHexDigit, hb, hc, hplus]

/-! ### Texts of pairs -/

section

variable {ε : Type} (invalid : List Char → ε)

lemma pairs_cons (b c : UInt8) (rest : List UInt8) :
    pairs (b :: c :: rest) = (b, c) :: pairs rest := rfl

lemma length_cons_cons_mod (b c : UInt8) (rest : List UInt8) :
    (b :: c :: rest).length % 2 = rest.length % 2 := Nat.add_mod_right rest.length 2

lemma forall_pairs_iff (p : UInt8 → Bool) : ∀ bytes : List UInt8, bytes.length % 2 = 0 →
    ((∀ q ∈ pairs bytes, p q.1 ∧ p q.2) ↔ ∀ b ∈ bytes, p b)
  | [], _ => by simp [pairs]
  | [b], h => by simp at h
  | b :: c :: rest, h => by
    rw [length_cons_cons_mod] at h
    have ih := forall_pairs_iff p rest h
    rw [pairs_cons]
    simp only [List.forall_mem_cons, ih, and_assoc]

/-- Values are read as long as every pair has one. -/
lemma exists_pairValues_iff : ∀ bytes : List UInt8,
    (∃ values, pairValues invalid bytes = .ok values) ↔
      ∀ q ∈ pairs bytes, (pairValue q.1 q.2).isSome
  | [] => by simp [pairValues, pairs]
  | [b] => by simp [pairValues, pairs]
  | b :: c :: rest => by
    have ih := exists_pairValues_iff rest
    rw [pairs_cons, List.forall_mem_cons, ← ih, pairValues]
    cases pairValue b c with
    | none => simp
    | some value => cases pairValues invalid rest <;> simp [Except.map]

lemma hexText_cons (b : UInt8) (bytes : List UInt8) :
    hexText (b :: bytes) = digitByte (b.toNat / 16) :: digitByte (b.toNat % 16) :: hexText bytes :=
  rfl

/-- A byte and its two digits. -/
lemma eq_ofNat_iff {v : UInt8} {hi lo : ℕ} (hhi : hi < 16) (hlo : lo < 16) :
    UInt8.ofNat (hi * 16 + lo) = v ↔
      digitByte hi = digitByte (v.toNat / 16) ∧ digitByte lo = digitByte (v.toNat % 16) := by
  have hv := v.toNat_lt
  have hsum : (UInt8.ofNat (hi * 16 + lo)).toNat = hi * 16 + lo := by
    rw [UInt8.toNat_ofNat']
    exact Nat.mod_eq_of_lt (by omega)
  rw [← UInt8.toNat_inj, hsum]
  constructor
  · intro h
    rw [show v.toNat / 16 = hi by omega, show v.toNat % 16 = lo by omega]
    exact ⟨rfl, rfl⟩
  · rintro ⟨h, h'⟩
    have hhi' := digitByte_injective hhi (by omega) h
    have hlo' := digitByte_injective hlo (by omega) h'
    omega

/-- Digits are read as the bytes that they encode. -/
lemma pairValues_eq_ok_iff : ∀ (digits values : List UInt8), digits.length % 2 = 0 →
    (∀ b ∈ digits, isHexDigit b) →
      (pairValues invalid digits = .ok values ↔ digits.map lowered = hexText values)
  | [], values, _, _ => by
    cases values with
    | nil => simp [pairValues, hexText]
    | cons v values => simp [pairValues, hexText_cons]
  | [b], _, h, _ => by simp at h
  | b :: c :: rest, values, h, hdigits => by
    obtain ⟨hb, hc, hrest⟩ : isHexDigit b ∧ isHexDigit c ∧ ∀ b ∈ rest, isHexDigit b := by
      simpa using hdigits
    obtain ⟨hi, hhi⟩ := Option.isSome_iff_exists.mp hb
    obtain ⟨lo, hlo⟩ := Option.isSome_iff_exists.mp hc
    obtain ⟨hhi16, hlow⟩ := hexDigit_eq_some_iff.mp hhi
    obtain ⟨hlo16, hlow'⟩ := hexDigit_eq_some_iff.mp hlo
    rw [length_cons_cons_mod] at h
    rw [pairValues, pairValue_of_digits hhi hlo, List.map_cons, List.map_cons, hlow, hlow']
    cases values with
    | nil => cases pairValues invalid rest <;> simp [Except.map, hexText]
    | cons v values =>
      have ih := pairValues_eq_ok_iff rest values h hrest
      rw [hexText_cons, List.cons_eq_cons, List.cons_eq_cons, ← ih, ← and_assoc,
        ← eq_ofNat_iff hhi16 hlo16]
      cases pairValues invalid rest <;> simp [Except.map]

lemma length_hexText (bytes : List UInt8) : (hexText bytes).length = 2 * bytes.length := by
  induction bytes with
  | nil => rfl
  | cons b bytes ih =>
    rw [hexText_cons, List.length_cons, List.length_cons, ih, List.length_cons, Nat.mul_succ]

lemma isHexDigit_of_hexText {digits values : List UInt8} (h : digits.map lowered = hexText values) :
    ∀ b ∈ digits, isHexDigit b := by
  intro b hb
  have hmem : lowered b ∈ hexText values := h ▸ List.mem_map_of_mem hb
  obtain ⟨v, -, hv⟩ := List.mem_flatMap.mp hmem
  have hlt := v.toNat_lt
  rcases List.mem_pair.mp hv with hhi | hlo
  · exact isHexDigit_iff.mpr ⟨_, by omega, hhi⟩
  · exact isHexDigit_iff.mpr ⟨_, Nat.mod_lt _ (by decide), hlo⟩

/-- What is not all digits is read as it should be if it is refused. -/
lemma readsHex_iff_not_exists {digits : List UInt8} {result : Except ε (List UInt8)}
    (hnot : ¬∀ b ∈ digits, isHexDigit b) :
    ReadsHex digits result ↔ ¬∃ values, result = .ok values := by
  constructor
  · intro h hok
    exact hnot (h.accepts.mp hok).2
  · intro hok
    refine ⟨iff_of_false hok fun h => hnot h.2,
      fun values => iff_of_false (fun h => ?_) fun h => ?_⟩
    · exact hok ⟨values, h⟩
    · exact hnot (isHexDigit_of_hexText h)

/-- Digits are read as they should be exactly when no misread pair decides. -/
lemma readsHex_iff (odd : ε) (bytes : List UInt8) :
    ReadsHex bytes (if bytes.length % 2 ≠ 0 then .error odd else pairValues invalid bytes) ↔
      PairsDecide bytes := by
  by_cases hodd : bytes.length % 2 ≠ 0
  · rw [if_pos hodd]
    refine iff_of_true ⟨by simp [hodd], fun values => iff_of_false nofun fun h => hodd ?_⟩
      (Or.inl hodd)
    rw [← List.length_map lowered, h, length_hexText, Nat.mul_mod_right]
  · rw [if_neg hodd]
    have heven : bytes.length % 2 = 0 := not_not.mp hodd
    by_cases hall : ∀ b ∈ bytes, isHexDigit b
    · have hpairs := (forall_pairs_iff isHexDigit bytes heven).mpr hall
      refine iff_of_true ⟨?_, fun values => pairValues_eq_ok_iff invalid bytes values heven hall⟩
        (Or.inr (Or.inl hpairs))
      refine iff_of_true ((exists_pairValues_iff invalid bytes).mpr fun q hq => ?_) ⟨heven, hall⟩
      exact isSome_pairValue_iff.mpr (Or.inl (hpairs q hq))
    · have hpairs := mt (forall_pairs_iff isHexDigit bytes heven).mp hall
      rw [readsHex_iff_not_exists hall, exists_pairValues_iff, PairsDecide, or_iff_right hodd,
        or_iff_right hpairs]
      simp only [isSome_pairValue_iff]
      push Not
      rfl

end

/-- The bytes of the input as characters, without white space. -/
def hexBytes (data : List UInt8) : List UInt8 :=
  utf8 ((data.filter fun b => !isAsciiWhitespace b.toNat).map byteAsChar)

lemma utf8_latin1 {bytes : List UInt8} (h : ∀ b ∈ bytes, isHexDigit b) :
    utf8 (bytes.map byteAsChar) = bytes := by
  induction bytes with
  | nil => rfl
  | cons b bytes ih =>
    obtain ⟨hb, hrest⟩ := List.forall_mem_cons.mp h
    rw [List.map_cons, ← List.singleton_append, utf8_append, utf8_byteAsChar (lt_of_isHexDigit hb),
      ih hrest, List.singleton_append]

lemma forall_utf8_latin1_iff (bytes : List UInt8) :
    (∀ b ∈ utf8 (bytes.map byteAsChar), isHexDigit b) ↔ ∀ b ∈ bytes, isHexDigit b := by
  constructor
  · intro h b hb
    by_cases hlt : b.toNat < 128
    · refine h b (List.mem_flatMap.mpr ⟨byteAsChar b, List.mem_map_of_mem hb, ?_⟩)
      have hself := utf8_byteAsChar hlt
      rw [utf8_cons, utf8_nil, List.append_nil] at hself
      rw [hself]
      exact List.mem_cons_self
    · -- the bytes of this character are no digits
      obtain ⟨x, hx⟩ := List.exists_mem_of_length_pos
        (String.length_utf8EncodeChar (byteAsChar b) ▸ (byteAsChar b).utf8Size_pos)
      have hhigh := le_of_mem_utf8EncodeChar (by rw [toNat_byteAsChar]; omega) x hx
      have hdigit := h x (List.mem_flatMap.mpr ⟨byteAsChar b, List.mem_map_of_mem hb, hx⟩)
      exact absurd (lt_of_isHexDigit hdigit) (Nat.not_lt_of_le hhigh)
  · intro h
    rwa [utf8_latin1 h]

/-- It does not matter that the bytes are read as characters first. -/
lemma readsHex_latin1_iff {ε : Type} (bytes : List UInt8) (result : Except ε (List UInt8)) :
    ReadsHex bytes result ↔ ReadsHex (utf8 (bytes.map byteAsChar)) result := by
  by_cases hall : ∀ b ∈ bytes, isHexDigit b
  · rw [utf8_latin1 hall]
  · rw [readsHex_iff_not_exists hall,
      readsHex_iff_not_exists (mt (forall_utf8_latin1_iff bytes).mp hall)]

/-! ### Percent escapes -/

lemma escapesDecide_cons (b : UInt8) (bytes : List UInt8) :
    EscapesDecide (b :: bytes) ↔
      (∀ c d, [37, c, d] <+: b :: bytes → ¬IsMisread c d) ∧ EscapesDecide bytes := by
  simp only [EscapesDecide, List.infix_cons_iff, or_imp, forall_and]

lemma escapesDecide_cons_of_ne {b : UInt8} (hb : b ≠ 37) (bytes : List UInt8) :
    EscapesDecide (b :: bytes) ↔ EscapesDecide bytes := by
  rw [escapesDecide_cons, and_iff_right]
  intro c d h
  exact absurd (List.cons_prefix_cons.mp h).1.symm hb

lemma escapesDecide_percent (c d : UInt8) (rest : List UInt8) :
    EscapesDecide (37 :: c :: d :: rest) ↔ ¬IsMisread c d ∧ EscapesDecide (c :: d :: rest) := by
  rw [escapesDecide_cons]
  refine and_congr_left fun _ => ?_
  constructor
  · intro h
    exact h c d ⟨rest, rfl⟩
  · rintro h c' d' ⟨rest', heq⟩
    obtain ⟨rfl, rfl, -⟩ : c' = c ∧ d' = d ∧ rest' = rest := by simpa using heq
    exact h

lemma escapesDecide_of_length_le {bytes : List UInt8} (h : bytes.length ≤ 2) :
    EscapesDecide bytes := by
  intro c d hinfix
  exact absurd hinfix.length_le (Nat.not_le_of_lt (Nat.lt_succ_of_le h))

/-- A misread pair has a value below 16. -/
lemma toNat_of_isMisread {b c v : UInt8} (h : IsMisread b c) (hv : pairValue b c = some v) :
    v.toNat < 16 := by
  rw [pairValue] at hv
  rcases h with hcut | ⟨rfl, hc⟩
  · rw [hcut] at hv
    obtain rfl := Option.some.inj hv
    decide
  · obtain ⟨n, hn⟩ := Option.isSome_iff_exists.mp hc
    have htext := fromUtf8_pair (b := 43) (by decide) (lt_of_isHexDigit hc)
    rw [htext, Option.isSome_some, if_pos rfl, hexByte, if_pos rfl, hn] at hv
    obtain rfl := Option.some.inj hv
    rw [UInt8.toNat_ofNat']
    exact Nat.lt_of_le_of_lt (Nat.mod_le _ _) (hexDigit_eq_some_iff.mp hn).1

lemma percentRead_of_not {b c d : UInt8} (rest : List UInt8)
    (h : ¬(b = 37 ∧ isHexDigit c ∧ isHexDigit d)) :
    percentRead (b :: c :: d :: rest) = plainByte b :: percentRead (c :: d :: rest) := by
  rw [percentRead]
  cases hc : hexDigit c with
  | none => rfl
  | some hi =>
    cases hd : hexDigit d with
    | none => rfl
    | some lo => exact if_neg fun hb => h ⟨hb, by simp [isHexDigit, hc], by simp [isHexDigit, hd]⟩

/-- Escapes are read as they should be exactly when none is misread. -/
lemma percentBytes_eq_iff : ∀ bytes : List UInt8,
    percentBytes bytes = percentRead bytes ↔ EscapesDecide bytes
  | [] => iff_of_true rfl (escapesDecide_of_length_le (by decide))
  | [b] => iff_of_true rfl (escapesDecide_of_length_le (by simp))
  | [b, c] => iff_of_true rfl (escapesDecide_of_length_le (by simp))
  | b :: c :: d :: rest => by
    have ih := percentBytes_eq_iff (c :: d :: rest)
    by_cases hb : b = 37
    · subst hb
      rw [escapesDecide_percent, percentBytes, if_pos rfl]
      by_cases hdigits : isHexDigit c ∧ isHexDigit d
      · obtain ⟨hi, hhi⟩ := Option.isSome_iff_exists.mp hdigits.1
        obtain ⟨lo, hlo⟩ := Option.isSome_iff_exists.mp hdigits.2
        have hc : c ≠ 37 := by rintro rfl; cases hhi
        have hd : d ≠ 37 := by rintro rfl; cases hlo
        rw [and_iff_right (not_isMisread hdigits.1 hdigits.2), escapesDecide_cons_of_ne hc,
          escapesDecide_cons_of_ne hd, ← percentBytes_eq_iff rest, pairValue_of_digits hhi hlo,
          percentRead, hhi, hlo]
        simp
      · rw [percentRead_of_not rest fun h => hdigits h.2]
        by_cases hmis : IsMisread c d
        · obtain ⟨v, hv⟩ := Option.isSome_iff_exists.mp
            (isSome_pairValue_iff.mpr (Or.inr hmis))
          refine iff_of_false (fun heq => ?_) fun h => h.1 hmis
          rw [hv] at heq
          have hhead : v = 37 := (List.cons.inj heq).1
          exact absurd (toNat_of_isMisread hmis hv) (by rw [hhead]; decide)
        · have hnone : pairValue c d = none := by
            rw [← Option.not_isSome_iff_eq_none, isSome_pairValue_iff]
            exact not_or_intro hdigits hmis
          rw [hnone, and_iff_right hmis, ← ih]
          simp
    · rw [percentRead_of_not rest fun h => hb h.1, percentBytes, if_neg hb,
        escapesDecide_cons_of_ne hb, ← ih, List.cons_eq_cons, and_iff_right rfl]

/-! ### The three decoders -/

/-- What the decoders read exactly as they should. -/
theorem decoders_exact_iff (data : List UInt8) (key text : String) :
    (ReadsHex (data.filter fun b => !isAsciiWhitespace b.toNat) (decodeHex data) ↔
        PairsDecide (hexBytes data)) ∧
      (ReadsHex (utf8 (key.toList.filter fun c => !isAsciiWhitespace c.toNat)) (parseHexKey key) ↔
        PairsDecide (utf8 (key.toList.filter fun c => !isAsciiWhitespace c.toNat))) ∧
      (percentDecode text = percentRead (utf8 text.toList) ↔ EscapesDecide (utf8 text.toList)) := by
  refine ⟨?_, readsHex_iff _ _ _, percentBytes_eq_iff _⟩
  rw [readsHex_latin1_iff]
  exact readsHex_iff _ _ _

/-- A sign and a digit are read as a byte, and so is each half of a character. -/
theorem misread_bytes :
    (decodeHex [43, 102] = .ok [15] ∧ ¬ReadsHex [43, 102] (decodeHex [43, 102])) ∧
      decodeHex [97, 233, 97] = .ok [0, 0] ∧
      (parseHexKey "aéa" = .ok [0, 0] ∧ ¬ReadsHex (utf8 "aéa".toList) (parseHexKey "aéa")) ∧
      percentDecode "%+f" = [15] ∧ percentRead (utf8 "%+f".toList) = [37, 32, 102] ∧
      percentDecode "%aé" = [0, 169] ∧ percentRead (utf8 "%aé".toList) = [37, 97, 195, 169] := by
  have hsign : decodeHex [43, 102] = .ok [15] := by decide +kernel
  have hcut : parseHexKey "aéa" = .ok [0, 0] := by decide +kernel
  have hkey : 195 ∈ utf8 "aéa".toList := by decide +kernel
  refine ⟨⟨hsign, fun h => ?_⟩, by decide +kernel, ⟨hcut, fun h => ?_⟩, by decide +kernel,
    by decide +kernel, by decide +kernel, by decide +kernel⟩
  · exact absurd ((h.accepts.mp ⟨_, hsign⟩).2 43 List.mem_cons_self) (by decide)
  · exact absurd ((h.accepts.mp ⟨_, hcut⟩).2 195 hkey) (by decide)

end Arbeiterfarm.Tools
