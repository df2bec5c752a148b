import Arbeiterfarm.Foundation.Offsets

/-!
# Byte offsets of texts

A text is measured in bytes of its UTF-8 form. To cut it at an offset inside a character is a panic
(`none`).
-/

namespace Arbeiterfarm

open Foundation.Offsets

/-- `len` of a string. -/
def utf8Len (s : String) : ℕ := width Char.utf8Size s.toList

/-- `is_char_boundary`. -/
def IsCharBoundary (s : String) (n : ℕ) : Prop := IsBoundary Char.utf8Size s.toList n

instance (s : String) (n : ℕ) : Decidable (IsCharBoundary s n) :=
  inferInstanceAs (Decidable (IsBoundary Char.utf8Size s.toList n))

/-- `&s[..n]`. -/
def firstBytes (s : String) (n : ℕ) : Option String :=
  (split? Char.utf8Size s.toList n).map fun p => String.ofList p.1

/-- `&s[i..j]`. -/
def sliceBytes (s : String) (i j : ℕ) : Option String :=
  (slice? Char.utf8Size s.toList i j).map String.ofList

/-- `floor_char_boundary`: the last boundary of a character up to `pos`. -/
def floorCharBoundary (text : String) (pos : ℕ) : ℕ :=
  if pos ≥ utf8Len text then utf8Len text else floorBoundary Char.utf8Size text.toList pos

/-- `rfind`. -/
def rfind (s pat : String) : Option ℕ := lastOccurrence Char.utf8Size pat.toList s.toList

@[simp] lemma isSome_firstBytes (s : String) (n : ℕ) :
    (firstBytes s n).isSome ↔ IsCharBoundary s n := by
  rw [firstBytes, Option.isSome_map]
  rfl

lemma isCharBoundary_utf8Len (s : String) : IsCharBoundary s (utf8Len s) :=
  isBoundary_width Char.utf8Size_pos s.toList

lemma isCharBoundary_floorCharBoundary (s : String) (pos : ℕ) :
    IsCharBoundary s (floorCharBoundary s pos) := by
  rw [floorCharBoundary]
  by_cases h : pos ≥ utf8Len s
  · rw [if_pos h]
    exact isCharBoundary_utf8Len s
  · rw [if_neg h]
    exact isBoundary_floorBoundary _ _

lemma floorCharBoundary_le (s : String) (pos : ℕ) : floorCharBoundary s pos ≤ pos := by
  rw [floorCharBoundary]
  by_cases h : pos ≥ utf8Len s
  · rwa [if_pos h]
  · rw [if_neg h]
    exact floorBoundary_le _ _

/-- The text up to a boundary. -/
lemma exists_firstBytes_floorCharBoundary (s : String) (pos : ℕ) :
    ∃ t, firstBytes s (floorCharBoundary s pos) = some t ∧ t.toList <+: s.toList ∧
      utf8Len t ≤ pos := by
  obtain ⟨t, ht⟩ := Option.isSome_iff_exists.mp
    ((isSome_firstBytes s _).mpr (isCharBoundary_floorCharBoundary s pos))
  refine ⟨t, ht, ?_⟩
  obtain ⟨⟨x, y⟩, hsplit, rfl⟩ := Option.map_eq_some_iff.mp ht
  obtain ⟨hs, hx⟩ := of_split?_eq_some hsplit
  rw [utf8Len, String.toList_ofList, hx, hs]
  exact ⟨List.prefix_append x y, floorCharBoundary_le s pos⟩

lemma utf8ByteSize_eq (s : String) : s.utf8ByteSize = utf8Len s := by
  have hchars (cs : List Char) : (String.ofList cs).utf8ByteSize = width Char.utf8Size cs := by
    induction cs with
    | nil => rfl
    | cons c cs ih =>
      rw [String.ofList_cons, String.utf8ByteSize_append, String.utf8ByteSize_singleton, ih]
      rfl
  rw [utf8Len, ← hchars, String.ofList_toList]

lemma sliceBytes_eq_some_iff {s t : String} {i j : ℕ} :
    sliceBytes s i j = some t ↔
      ∃ x y, s.toList = x ++ (t.toList ++ y) ∧ width Char.utf8Size x = i ∧ utf8Len t + i = j := by
  rw [sliceBytes, Option.map_eq_some_iff]
  simp only [slice?_eq_some_iff Char.utf8Size_pos]
  constructor
  · rintro ⟨m, ⟨x, y, hs, hi, hj⟩, rfl⟩
    exact ⟨x, y, by rw [String.toList_ofList, hs], hi, by rw [utf8Len, String.toList_ofList, hj]⟩
  · rintro ⟨x, y, hs, hi, hj⟩
    exact ⟨t.toList, ⟨x, y, hs, hi, hj⟩, String.ofList_toList⟩

lemma exists_sliceBytes {s : String} {i j : ℕ} (hij : i ≤ j) (hi : IsCharBoundary s i)
    (hj : IsCharBoundary s j) : ∃ t, sliceBytes s i j = some t := by
  obtain ⟨m, hm⟩ := isSome_slice? Char.utf8Size_pos hij hi hj
  exact ⟨String.ofList m, by rw [sliceBytes, hm]; rfl⟩

lemma utf8Size_eq_one_iff (c : Char) : c.utf8Size = 1 ↔ c.toNat < 128 := by
  rw [Char.utf8Size_eq_one_iff, UInt32.le_iff_toNat_le]
  exact Nat.lt_succ_iff.symm

/-- A text of ASCII characters can be cut anywhere. -/
lemma isCharBoundary_of_ascii {s : String} (hs : ∀ c ∈ s.toList, c.utf8Size = 1) {n : ℕ}
    (hn : n ≤ utf8Len s) : IsCharBoundary s n := by
  have hwidth : ∀ l : List Char, (∀ c ∈ l, c.utf8Size = 1) → width Char.utf8Size l = l.length := by
    intro l hl
    induction l with
    | nil => rfl
    | cons c l ih =>
      rw [width_cons, hl c (by simp), ih fun d hd => hl d (by simp [hd]), List.length_cons,
        Nat.add_comm]
  refine (isBoundary_iff Char.utf8Size_pos).mpr
    ⟨s.toList.take n, s.toList.drop n, (List.take_append_drop n _).symm, ?_⟩
  rw [utf8Len, hwidth _ hs] at hn
  rw [hwidth _ fun c hc => hs c (List.mem_of_mem_take hc), List.length_take, Nat.min_eq_left hn]

/-! ### Texts and their bytes -/

/-- The bytes of a text. -/
def utf8 (cs : List Char) : List UInt8 := cs.flatMap String.utf8EncodeChar

/-- `b as char`. -/
def byteAsChar (b : UInt8) : Char := Char.ofNat b.toNat

/-- `String::from_utf8`. -/
def fromUtf8 (bs : List UInt8) : Option (List Char) :=
  (String.fromUTF8? bs.toByteArray).map String.toList

@[simp] lemma utf8_nil : utf8 [] = [] := rfl

@[simp] lemma utf8_cons (c : Char) (cs : List Char) :
    utf8 (c :: cs) = String.utf8EncodeChar c ++ utf8 cs := rfl

@[simp] lemma utf8_append (cs ds : List Char) : utf8 (cs ++ ds) = utf8 cs ++ utf8 ds := by
  simp [utf8]

lemma utf8Encode_eq (cs : List Char) : cs.utf8Encode = (utf8 cs).toByteArray := rfl

lemma toList_loop (bs : ByteArray) (i : ℕ) (seen : List UInt8) :
    ByteArray.toList.loop bs i seen = seen.reverse ++ bs.data.toList.drop i := by
  induction i, seen using ByteArray.toList.loop.induct bs with
  | case1 i seen hi ih =>
    have hlt : i < bs.data.toList.length := hi
    have hget : bs.get! i = bs.data.toList[i] := getElem!_pos bs.data i hi
    rw [ByteArray.toList.loop, if_pos hi, ih, List.reverse_cons, hget, List.append_assoc,
      List.singleton_append, ← List.drop_eq_getElem_cons]
  | case2 i seen hi =>
    rw [ByteArray.toList.loop, if_neg hi, List.drop_of_length_le (Nat.le_of_not_lt hi),
      List.append_nil]

lemma toList_toUTF8 (s : String) : s.toUTF8.toList = utf8 s.toList := by
  have hbytes : s.toUTF8 = (utf8 s.toList).toByteArray := String.utf8Encode_toList.symm
  rw [hbytes, ByteArray.toList, toList_loop, List.toList_data_toByteArray]
  rfl

lemma fromUtf8_eq_some_iff {bs : List UInt8} {cs : List Char} :
    fromUtf8 bs = some cs ↔ utf8 cs = bs := by
  rw [fromUtf8, Option.map_eq_some_iff, ← List.toByteArray_inj, ← utf8Encode_eq]
  constructor
  · rintro ⟨s, hs, rfl⟩
    rw [String.fromUTF8?] at hs
    by_cases hvalid : bs.toByteArray.IsValidUTF8
    · rw [dif_pos hvalid] at hs
      obtain rfl := Option.some.inj hs
      exact String.utf8Encode_toList
    · rw [dif_neg hvalid] at hs
      cases hs
  · intro h
    refine ⟨String.ofList cs, ?_, String.toList_ofList⟩
    have hvalid : bs.toByteArray.IsValidUTF8 := h ▸ ByteArray.isValidUTF8_utf8Encode
    rw [String.fromUTF8?, dif_pos hvalid, Option.some.injEq, ← String.toByteArray_inj,
      String.toByteArray_ofList, h]
    rfl

@[simp] lemma fromUtf8_utf8 (cs : List Char) : fromUtf8 (utf8 cs) = some cs :=
  fromUtf8_eq_some_iff.mpr rfl

lemma utf8_injective : Function.Injective utf8 := fun cs ds h => by
  have := fromUtf8_utf8 cs
  rw [h, fromUtf8_utf8] at this
  exact (Option.some.inj this).symm

lemma length_utf8 (cs : List Char) : (utf8 cs).length = width Char.utf8Size cs := by
  induction cs with
  | nil => rfl
  | cons c cs ih => rw [utf8_cons, List.length_append, String.length_utf8EncodeChar, ih, width_cons]

lemma utf8EncodeChar_of_lt {c : Char} (h : c.toNat < 128) :
    ∃ b : UInt8, String.utf8EncodeChar c = [b] ∧ b.toNat = c.toNat := by
  refine ⟨c.val.toUInt8, String.utf8EncodeChar_eq_singleton ((utf8Size_eq_one_iff c).mpr h), ?_⟩
  rw [UInt32.toNat_toUInt8]
  exact Nat.mod_eq_of_lt (Nat.lt_of_lt_of_le h (by decide))

lemma toNat_byteAsChar (b : UInt8) : (byteAsChar b).toNat = b.toNat := by
  have hbyte : ∀ n < 256, (Char.ofNat n).toNat = n := by decide +kernel
  exact hbyte _ b.toNat_lt

lemma utf8_byteAsChar {b : UInt8} (h : b.toNat < 128) : utf8 [byteAsChar b] = [b] := by
  obtain ⟨b', hb', hnat⟩ := utf8EncodeChar_of_lt (c := byteAsChar b) (by rwa [toNat_byteAsChar])
  rw [toNat_byteAsChar] at hnat
  rw [utf8_cons, utf8_nil, List.append_nil, hb', UInt8.toNat_inj.mp hnat]

/-- The bytes of any other character have the high bit. -/
lemma le_of_mem_utf8EncodeChar {c : Char} (h : 128 ≤ c.toNat) :
    ∀ b ∈ String.utf8EncodeChar c, 128 ≤ b.toNat := by
  have hor : ∀ (a m : UInt8), 128 ≤ m.toNat → 128 ≤ (a ||| m).toNat := fun a m hm => by
    rw [UInt8.toNat_or]
    exact Nat.le_trans hm Nat.right_le_or
  have hne : c.utf8Size ≠ 1 := fun hone => absurd ((utf8Size_eq_one_iff c).mp hone) (by omega)
  rcases c.utf8Size_eq with hsize | hsize | hsize | hsize
  · exact absurd hsize hne
  · rw [String.utf8EncodeChar_eq_cons_cons hsize, List.forall_mem_cons, List.forall_mem_singleton]
    exact ⟨hor _ _ (by decide), hor _ _ (by decide)⟩
  · rw [String.utf8EncodeChar_eq_cons_cons_cons hsize, List.forall_mem_cons, List.forall_mem_cons,
      List.forall_mem_singleton]
    exact ⟨hor _ _ (by decide), hor _ _ (by decide), hor _ _ (by decide)⟩
  · rw [String.utf8EncodeChar_eq_cons_cons_cons_cons hsize, List.forall_mem_cons,
      List.forall_mem_cons, List.forall_mem_cons, List.forall_mem_singleton]
    exact ⟨hor _ _ (by decide), hor _ _ (by decide), hor _ _ (by decide), hor _ _ (by decide)⟩

/-- Bytes after a text are a text if they are one by themselves. -/
lemma fromUtf8_append (cs : List Char) (bs : List UInt8) :
    fromUtf8 (utf8 cs ++ bs) = (fromUtf8 bs).map (cs ++ ·) := by
  ext ds
  rw [fromUtf8_eq_some_iff, Option.map_eq_some_iff]
  simp only [fromUtf8_eq_some_iff]
  constructor
  · intro h
    have hencode : cs.utf8Encode ++ bs.toByteArray = ds.utf8Encode := by
      rw [utf8Encode_eq, utf8Encode_eq, h, List.toByteArray_append]
    obtain ⟨es, rfl⟩ := List.isPrefix_of_utf8Encode_append_eq_utf8Encode _ hencode
    exact ⟨es, by simpa using h, rfl⟩
  · rintro ⟨es, rfl, rfl⟩
    exact utf8_append cs es

lemma exists_of_utf8_append {cs ds : List Char} {bs : List UInt8} (h : utf8 cs ++ bs = utf8 ds) :
    ∃ es, ds = cs ++ es ∧ utf8 es = bs := by
  have hsome := fromUtf8_utf8 ds
  rw [← h, fromUtf8_append, Option.map_eq_some_iff] at hsome
  obtain ⟨es, hes, rfl⟩ := hsome
  exact ⟨es, rfl, fromUtf8_eq_some_iff.mp hes⟩

/-- What is cut off at the end is the rest of the bytes. -/
lemma utf8_of_sliceBytes {s t : String} {x tail : List UInt8} (hs : utf8 s.toList = x ++ tail)
    (h : sliceBytes s x.length (utf8 s.toList).length = some t) : utf8 t.toList = tail := by
  obtain ⟨y, z, hyz, hy, hlen⟩ := sliceBytes_eq_some_iff.mp h
  rw [← length_utf8] at hy
  rw [utf8Len, ← length_utf8, ← hy] at hlen
  rw [hyz, utf8_append, utf8_append, List.length_append, List.length_append] at hlen
  have hz : utf8 z = [] := List.length_eq_zero_iff.mp (by omega)
  rw [hyz, utf8_append, utf8_append, hz, List.append_nil] at hs
  exact (List.append_inj hs hy).2

lemma sliceBytes_of_utf8 {s : String} {cs ds : List Char} (hs : s.toList = cs ++ ds) :
    sliceBytes s (utf8 cs).length (utf8 s.toList).length = some (String.ofList ds) := by
  refine sliceBytes_eq_some_iff.mpr ⟨cs, [], ?_, (length_utf8 cs).symm, ?_⟩
  · rw [hs, String.toList_ofList, List.append_nil]
  · rw [utf8Len, String.toList_ofList, ← length_utf8, hs, utf8_append, List.length_append,
      Nat.add_comm]

end Arbeiterfarm
