import Arbeiterfarm.Tools.Renames

/-!
# When exactly the names are replaced

The scanner cuts out what stands between two word boundaries, up to the last place where the old
name may begin. It replaces exactly the identifiers that are the old name if all it has kept is
ASCII: any other byte becomes a character of two bytes, and the text grows.
-/

namespace Arbeiterfarm.Tools

open Foundation.Words Foundation.Offsets

variable {text old new : String}

/-! ### The bytes of names -/

lemma one_le_length_utf8 (c : Char) : 1 ≤ (utf8 [c]).length := by
  rw [utf8_cons, utf8_nil, List.append_nil, String.length_utf8EncodeChar]
  exact c.utf8Size_pos

lemma lt_of_length_utf8_byteAsChar {b : UInt8} (h : (utf8 [byteAsChar b]).length = 1) :
    b.toNat < 128 := by
  rw [utf8_cons, utf8_nil, List.append_nil, String.length_utf8EncodeChar, utf8Size_eq_one_iff,
    toNat_byteAsChar] at h
  exact h

lemma isWordCode_lt {n : ℕ} (h : isWordCode n) : n < 128 := by
  simp only [isWordCode, Bool.or_eq_true, Bool.and_eq_true, decide_eq_true_eq, beq_iff_eq] at h
  omega

lemma utf8EncodeChar_prefixFree {c d : Char} {x y : List UInt8}
    (h : String.utf8EncodeChar c ++ x = String.utf8EncodeChar d ++ y) : c = d := by
  have hbytes := congrArg List.toByteArray h
  rw [List.toByteArray_append, List.toByteArray_append] at hbytes
  have hdecode := congrArg (·.utf8DecodeChar? 0) hbytes
  simp only [ByteArray.utf8DecodeChar?_utf8EncodeChar_append] at hdecode
  exact Option.some.inj hdecode

/-- The bytes of a text as the characters written out. -/
lemma isCode_utf8 : IsCode isNameChar isWordChar String.utf8EncodeChar where
  ne_nil _ := String.utf8EncodeChar_ne_nil
  prefixFree _ _ _ _ := utf8EncodeChar_prefixFree
  first c d b hb hhead := by
    obtain ⟨i, hi, rfl⟩ := List.mem_iff_getElem.mp hb
    rw [List.getElem_tail] at hhead
    obtain ⟨a, x, hx⟩ := List.exists_cons_of_ne_nil (String.utf8EncodeChar_ne_nil (c := d))
    have hfirst := UInt8.isUTF8FirstByte_getElem_zero_utf8EncodeChar (c := d)
    simp only [hx, List.getElem_cons_zero] at hfirst
    rw [hx, List.head?_cons, Option.some.injEq] at hhead
    rw [hhead, UInt8.isUTF8FirstByte_getElem_utf8EncodeChar] at hfirst
    exact Nat.succ_ne_zero _ hfirst
  inWord c b hb := by
    by_cases hlt : c.toNat < 128
    · obtain ⟨b', hb', hnat⟩ := utf8EncodeChar_of_lt hlt
      rw [hb', List.mem_singleton] at hb
      rw [hb, isWordChar, hnat, isNameChar]
    · have hle := le_of_mem_utf8EncodeChar (Nat.le_of_not_lt hlt) b hb
      have hc : ¬ isNameChar c := fun hc => hlt (isWordCode_lt hc)
      have hbyte : ¬ isWordChar b := fun hbyte => absurd (isWordCode_lt hbyte) (by omega)
      simp [hc, hbyte]

/-- The words of a text are the words of its bytes. -/
lemma utf8_mapWords (w new cs : List Char) :
    utf8 (mapWords isNameChar (instead w new) [] cs) =
      mapWords isWordChar (instead (utf8 w) (utf8 new)) [] (utf8 cs) := by
  refine (mapWords_flatMap isCode_utf8 (fun v => ?_) [] cs).symm
  by_cases hv : v = w
  · rw [hv, instead_self]
    exact instead_self _ _
  · rw [instead_of_ne new hv]
    exact instead_of_ne _ fun heq => hv (utf8_injective heq)

lemma utf8_ne_nil (h : old ≠ "") : utf8 old.toList ≠ [] := fun hnil =>
  h (String.toList_eq_nil_iff.mp (utf8_injective hnil))

lemma IsName.isWordChar (h : IsName old) : ∀ b ∈ utf8 old.toList, isWordChar b := by
  intro b hb
  obtain ⟨c, hc, hbc⟩ := List.mem_flatMap.mp hb
  obtain ⟨b', hb', hnat⟩ := utf8EncodeChar_of_lt (isWordCode_lt (h.2 c hc))
  rw [hb', List.mem_singleton] at hbc
  rw [hbc, Tools.isWordChar, hnat]
  exact h.2 c hc

/-! ### The scanner -/

/-- The scanner looks at the bytes around a place as `cutWords` does. -/
lemma matches_iff {bytes old_bytes x rest : List UInt8} (hbytes : bytes = x ++ rest) :
    (rest.take old_bytes.length = old_bytes ∧
        (x.length == 0 || !bytes[x.length - 1]?.any isWordChar) = true ∧
        (decide (x.length + old_bytes.length ≥ bytes.length) ||
          !bytes[x.length + old_bytes.length]?.any isWordChar) = true) ↔
      old_bytes <+: rest ∧ outside isWordChar x.getLast? ∧
        outside isWordChar (rest.drop old_bytes.length).head? := by
  have houtside : ∀ o : Option UInt8, (!o.any isWordChar) = outside isWordChar o := by
    intro o
    cases o <;> rfl
  have hbefore : (x.length == 0 || !bytes[x.length - 1]?.any isWordChar) =
      outside isWordChar x.getLast? := by
    rw [houtside]
    cases x with
    | nil => rfl
    | cons b x =>
      rw [hbytes, List.getElem?_append_left (by simp), ← List.getLast?_eq_getElem?]
      rfl
  have hafter : (decide (x.length + old_bytes.length ≥ bytes.length) ||
      !bytes[x.length + old_bytes.length]?.any isWordChar) =
        outside isWordChar (rest.drop old_bytes.length).head? := by
    have hget : bytes[x.length + old_bytes.length]? = (rest.drop old_bytes.length).head? := by
      rw [hbytes, List.getElem?_append_right (Nat.le_add_right _ _), Nat.add_sub_cancel_left,
        List.head?_drop]
    by_cases hend : x.length + old_bytes.length ≥ bytes.length
    · rw [← hget, List.getElem?_eq_none hend, decide_eq_true hend]
      rfl
    · rw [decide_eq_false hend, Bool.false_or, houtside, hget]
  rw [hbefore, hafter, List.prefix_iff_eq_take, eq_comm]

/-- What the scanner has read when it ends: `tokens` up to the `tail`, in which no place is left
for the old name. Every byte that it has kept is at a place where the old name may begin. -/
structure Scanned (bytes old_bytes : List UInt8) (before : Option UInt8)
    (tokens : List (Option UInt8)) (tail : List UInt8) : Prop where
  cut : cutWords isWordChar old_bytes 0 before bytes = tokens ++ tail.map some
  short : tail.length < old_bytes.length
  kept : ∀ x b y, tokens = x ++ some b :: y →
    old_bytes.length ≤ (readOf old_bytes (some b :: y) ++ tail).length

lemma Scanned.bytes_eq {bytes old_bytes tail : List UInt8} {before : Option UInt8}
    {tokens : List (Option UInt8)} (h : Scanned bytes old_bytes before tokens tail)
    (hold : old_bytes ≠ []) : bytes = readOf old_bytes tokens ++ tail := by
  rw [← fill_self (p := isWordChar) hold before bytes, h.cut, fill_append, fill_map_some]
  simp [readOf]

lemma replaceLoop_spec {bytes old_bytes : List UInt8} (new : List Char) (hold : old_bytes ≠ [])
    (hfits : old_bytes.length ≤ bytes.length) {fuel : ℕ} {x rest : List UInt8}
    (hbytes : bytes = x ++ rest) (hfuel : rest.length < fuel) (result : List Char) :
    ∃ tokens tail,
      replaceLoop bytes old_bytes new fuel x.length result =
        some (bytes.length - tail.length, result ++ fill (fun b => [byteAsChar b]) new tokens) ∧
      Scanned rest old_bytes x.getLast? tokens tail := by
  induction fuel generalizing x rest result with
  | zero => exact absurd hfuel (Nat.not_lt_zero _)
  | succ fuel ih =>
    have hlen : bytes.length = x.length + rest.length := by rw [hbytes, List.length_append]
    have hpos := List.length_pos_iff.mpr hold
    rw [replaceLoop]
    by_cases hmore : x.length ≤ bytes.length - old_bytes.length
    · have hwindow : byteSlice bytes x.length (x.length + old_bytes.length) =
          some (rest.take old_bytes.length) := by
        rw [byteSlice, if_pos ⟨Nat.le_add_right _ _, by omega⟩, hbytes, List.drop_left,
          Nat.add_sub_cancel_left]
      simp only [if_pos hmore, hwindow, Option.bind_some, matches_iff hbytes]
      by_cases hmatch : old_bytes <+: rest ∧ outside isWordChar x.getLast? ∧
          outside isWordChar (rest.drop old_bytes.length).head?
      · obtain ⟨⟨y, rfl⟩, hbefore, hafter⟩ := hmatch
        rw [List.drop_left] at hafter
        rw [List.length_append] at hfuel
        have hsplit : bytes = (x ++ old_bytes) ++ y := by rw [hbytes, List.append_assoc]
        obtain ⟨tokens, tail, hloop, hscan⟩ := ih hsplit (by omega) (result ++ new)
        rw [List.getLast?_append_of_ne_nil _ hold] at hscan
        refine ⟨none :: tokens, tail, ?_, ?_, hscan.short, ?_⟩
        · rw [if_pos ⟨List.prefix_append _ _, hbefore, by rwa [List.drop_left]⟩,
            ← List.length_append, hloop, fill_cons_none, List.append_assoc]
        · rw [cutWords_of_match hold hbefore hafter, hscan.cut, List.cons_append]
        · intro x' b y' hsplit'
          obtain ⟨t, x', rfl⟩ : ∃ t x'', x' = t :: x'' :=
            List.exists_cons_of_ne_nil fun hnil => by simp [hnil] at hsplit'
          exact hscan.kept x' b y' (List.cons.inj hsplit').2
      · cases rest with
        | nil =>
          rw [List.length_nil] at hlen
          omega
        | cons a rest =>
          have hsplit : bytes = (x ++ [a]) ++ rest := by
            rw [hbytes, List.append_assoc, List.singleton_append]
          obtain ⟨tokens, tail, hloop, hscan⟩ := ih hsplit (Nat.lt_of_succ_lt_succ hfuel)
            (result ++ [byteAsChar a])
          have hget : bytes[x.length]? = some a := by
            rw [hbytes, List.getElem?_append_right (Nat.le_refl _), Nat.sub_self]
            rfl
          rw [List.getLast?_concat] at hscan
          refine ⟨some a :: tokens, tail, ?_, ?_, hscan.short, ?_⟩
          · rw [if_neg hmatch, hget, Option.bind_some, fill_cons_some, ← List.append_assoc]
            rw [List.length_append, List.length_singleton] at hloop
            exact hloop
          · rw [cutWords, if_neg hmatch, hscan.cut, List.cons_append]
          · intro x' b y' hsplit'
            cases x' with
            | nil =>
              -- the byte at this place
              obtain ⟨heq, rfl⟩ := List.cons.inj hsplit'
              obtain rfl := Option.some.inj heq
              rw [readOf, fill_cons_some, List.append_assoc, ← readOf, ← hscan.bytes_eq hold]
              simp only [List.length_cons, List.length_append, List.length_nil] at hlen ⊢
              omega
            | cons t x' => exact hscan.kept x' b y' (List.cons.inj hsplit').2
    · rw [if_neg hmore]
      refine ⟨[], rest, ?_, cutWords_of_length_lt (by omega) _, by omega,
        fun x' b y' hsplit' => by simp at hsplit'⟩
      rw [fill_nil, List.append_nil, hlen, Nat.add_sub_cancel]

/-! ### Texts -/

lemma replaceWordBoundary_eq_none (hold : old ≠ "")
    (hlt : (utf8 text.toList).length < (utf8 old.toList).length) :
    replaceWordBoundary text old new = none := by
  have hempty : ¬ old.isEmpty = true := by rwa [String.isEmpty_iff]
  rw [replaceWordBoundary, if_neg hempty]
  simp only
  rw [replaceLoop, if_pos (Nat.zero_le _), byteSlice, if_neg (by omega)]
  rfl

/-- What is written for the tokens. -/
def written (new : String) (tokens : List (Option UInt8)) : String :=
  String.ofList (fill (fun b => [byteAsChar b]) new.toList tokens)

lemma exists_scanned (new : String) (hold : old ≠ "")
    (hfits : (utf8 old.toList).length ≤ (utf8 text.toList).length) :
    ∃ tokens tail, Scanned (utf8 text.toList) (utf8 old.toList) none tokens tail ∧
      replaceWordBoundary text old new =
        if tail = [] then some (written new tokens)
        else (sliceBytes text (readOf (utf8 old.toList) tokens).length
          (utf8 text.toList).length).map fun rest => written new tokens ++ rest := by
  have hempty : ¬ old.isEmpty = true := by rwa [String.isEmpty_iff]
  have hne := utf8_ne_nil hold
  obtain ⟨tokens, tail, hloop, hscan⟩ := replaceLoop_spec new.toList hne hfits
    (List.nil_append _).symm (Nat.lt_succ_self _) []
  have hbytes := congrArg List.length (hscan.bytes_eq hne)
  rw [List.length_append] at hbytes
  refine ⟨tokens, tail, hscan, ?_⟩
  rw [List.length_nil] at hloop
  rw [replaceWordBoundary, if_neg hempty]
  simp only [hloop, Option.bind_some, List.nil_append]
  by_cases htail : tail = []
  · rw [if_pos htail, htail, List.length_nil, if_neg (by omega)]
    rfl
  · have hpos := List.length_pos_iff.mpr htail
    rw [if_neg htail, if_pos (by omega), hbytes, Nat.add_sub_cancel]
    rfl

/-- The bytes of the result, if there is one. -/
lemma utf8_of_replaceWordBoundary {s : String} (hold : old ≠ "")
    (h : replaceWordBoundary text old new = some s) :
    ∃ tokens tail, Scanned (utf8 text.toList) (utf8 old.toList) none tokens tail ∧
      utf8 s.toList = fill (fun b => utf8 [byteAsChar b]) (utf8 new.toList) tokens ++ tail := by
  have hne := utf8_ne_nil hold
  by_cases hfits : (utf8 old.toList).length ≤ (utf8 text.toList).length
  · obtain ⟨tokens, tail, hscan, hresult⟩ := exists_scanned new hold hfits
    have hwritten : utf8 (written new tokens).toList =
        fill (fun b => utf8 [byteAsChar b]) (utf8 new.toList) tokens := by
      rw [written, String.toList_ofList]
      exact flatMap_fill _ _ _ _
    refine ⟨tokens, tail, hscan, ?_⟩
    rw [hresult] at h
    by_cases htail : tail = []
    · rw [if_pos htail] at h
      rw [← Option.some.inj h, hwritten, htail, List.append_nil]
    · rw [if_neg htail, Option.map_eq_some_iff] at h
      obtain ⟨rest, hrest, rfl⟩ := h
      rw [String.toList_append, utf8_append, hwritten,
        utf8_of_sliceBytes (hscan.bytes_eq hne) hrest]
  · rw [replaceWordBoundary_eq_none hold (Nat.lt_of_not_le hfits)] at h
    cases h

/-- What is kept of a rewritable text is ASCII. -/
lemma Rewritable.kept (h : Rewritable text old) {tokens : List (Option UInt8)} {tail : List UInt8}
    (hscan : Scanned (utf8 text.toList) (utf8 old.toList) none tokens tail) :
    ∀ b, some b ∈ tokens → b.toNat < 128 := by
  intro b hb
  obtain ⟨x, y, rfl⟩ := List.append_of_mem hb
  refine h.ascii x b (y ++ tail.map some) (by simp [hscan.cut]) ?_
  rw [readOf, ← List.cons_append, fill_append, fill_map_some, List.flatMap_singleton', ← readOf]
  exact hscan.kept x b y rfl

/-- The tail is too short to have a place for the old name. -/
lemma Rewritable.of_kept (hfits : (utf8 old.toList).length ≤ (utf8 text.toList).length)
    {tokens : List (Option UInt8)} {tail : List UInt8}
    (hscan : Scanned (utf8 text.toList) (utf8 old.toList) none tokens tail)
    (hkept : ∀ b, some b ∈ tokens → b.toNat < 128) : Rewritable text old := by
  refine ⟨hfits, fun x b y hsplit hlen => ?_⟩
  have hshort : ∀ l : List UInt8, some b :: y = l.map some →
      ¬ l.length < (utf8 old.toList).length := by
    intro l hl
    rw [hl, readOf, fill_map_some, List.flatMap_singleton'] at hlen
    exact Nat.not_lt_of_le hlen
  have htail := hscan.short
  rw [hscan.cut] at hsplit
  rcases List.append_eq_append_iff.mp hsplit with ⟨z, -, hrest⟩ | ⟨z, htokens, hrest⟩
  · obtain ⟨l, l', rfl, -, hl'⟩ := List.map_eq_append_iff.mp hrest
    rw [List.length_append] at htail
    exact absurd (Nat.lt_of_le_of_lt (Nat.le_add_left _ _) htail) (hshort l' hl'.symm)
  · cases z with
    | nil => exact absurd htail (hshort tail hrest)
    | cons t z =>
      obtain ⟨rfl, -⟩ := List.cons.inj hrest
      exact hkept b (by simp [htokens])

/-- If only ASCII is kept, the old name is replaced where it stands alone. -/
lemma exists_replaceWordBoundary (new : String) (hold : old ≠ "") (h : Rewritable text old) :
    ∃ s, replaceWordBoundary text old new = some s ∧
      utf8 s.toList = fill (fun b => [b]) (utf8 new.toList)
        (cutWords isWordChar (utf8 old.toList) 0 none (utf8 text.toList)) := by
  have hne := utf8_ne_nil hold
  obtain ⟨tokens, tail, hscan, hresult⟩ := exists_scanned new hold h.fits
  have hwrite : ∀ name : String, utf8 (written name tokens).toList =
      fill (fun b => [b]) (utf8 name.toList) tokens := by
    intro name
    rw [written, String.toList_ofList]
    refine (flatMap_fill _ _ _ _).trans (fill_congr _ fun b hb => ?_)
    exact utf8_byteAsChar (h.kept hscan b hb)
  have hbytes := hscan.bytes_eq hne
  rw [readOf, ← hwrite old] at hbytes
  obtain ⟨rest, htext, hrest⟩ := exists_of_utf8_append hbytes.symm
  have hcut : fill (fun b => [b]) (utf8 new.toList)
      (cutWords isWordChar (utf8 old.toList) 0 none (utf8 text.toList)) =
        utf8 (written new tokens).toList ++ tail := by
    rw [hscan.cut, fill_append, fill_map_some, hwrite]
    simp
  rw [hresult]
  by_cases htail : tail = []
  · exact ⟨_, if_pos htail, by rw [hcut, htail, List.append_nil]⟩
  · rw [if_neg htail, readOf, ← hwrite old, sliceBytes_of_utf8 htext]
    refine ⟨_, rfl, ?_⟩
    rw [hcut, String.toList_append, String.toList_ofList, utf8_append, hrest]

/-- The bytes at the places where the old name may begin. -/
lemma rewritable_of_ascii (hold : old ≠ "")
    (hfits : (utf8 old.toList).length ≤ (utf8 text.toList).length)
    (hascii : Ascii ((utf8 text.toList).take
      ((utf8 text.toList).length - (utf8 old.toList).length + 1))) : Rewritable text old := by
  refine ⟨hfits, fun x b y hcut hlen => hascii b ?_⟩
  have hbytes := fill_self (p := isWordChar) (utf8_ne_nil hold) none (utf8 text.toList)
  rw [hcut, fill_append] at hbytes
  rw [readOf, fill_cons_some, List.length_append, List.length_singleton] at hlen
  rw [fill_cons_some, List.singleton_append] at hbytes
  have htext := congrArg List.length hbytes
  rw [List.length_append, List.length_cons] at htext
  rw [← hbytes, List.take_append, List.length_append, List.length_cons]
  refine List.mem_append_right _ ?_
  obtain ⟨n, hn⟩ : ∃ n, (fill (fun b => [b]) (utf8 old.toList) x).length +
      ((fill (fun b => [b]) (utf8 old.toList) y).length + 1) - (utf8 old.toList).length + 1 -
        (fill (fun b => [b]) (utf8 old.toList) x).length = n + 1 :=
    ⟨(fill (fun b => [b]) (utf8 old.toList) y).length + 1 - (utf8 old.toList).length, by omega⟩
  rw [hn, List.take_succ_cons]
  exact List.mem_cons_self

/-! ### Names and other texts -/

lemma utf8_renamed (text old new : String) : utf8 (renamed text old new).toList =
    mapWords isWordChar (instead (utf8 old.toList) (utf8 new.toList)) [] (utf8 text.toList) := by
  rw [renamed, String.toList_ofList, utf8_mapWords]

lemma utf8_renamed_of_isName (hold : IsName old) : utf8 (renamed text old new).toList =
    fill (fun b => [b]) (utf8 new.toList)
      (cutWords isWordChar (utf8 old.toList) 0 none (utf8 text.toList)) := by
  rw [utf8_renamed, fill_cutWords (utf8_ne_nil hold.1) hold.isWordChar]

/-- What is no identifier is not replaced. -/
lemma renamed_of_not_isName (hold : ¬ IsName old) : renamed text old new = text := by
  rw [renamed, mapWords_eq_self _ (List.forall_mem_nil _), List.nil_append, String.ofList_toList]
  intro w hne hw
  refine instead_of_ne _ ?_
  rintro rfl
  exact hold ⟨fun hnil => hne (String.toList_eq_nil_iff.mpr hnil), hw⟩

lemma toList_eq_of_utf8_eq {s t : String} (h : utf8 s.toList = utf8 t.toList) : s = t :=
  String.toList_inj.mp (utf8_injective h)

lemma none_mem_iff_standsAlone (hold : old ≠ "") :
    none ∈ cutWords isWordChar (utf8 old.toList) 0 none (utf8 text.toList) ↔
      StandsAlone text old := by
  rw [none_mem_cutWords_iff (utf8_ne_nil hold)]
  simp [StandsAlone]

lemma replaceWordBoundary_of_replaceable (h : old = "" ∨ Replaceable text old new) :
    replaceWordBoundary text old new = some (renamed text old new) := by
  by_cases hold : old = ""
  · rw [hold, renamed_of_not_isName fun hname => hname.1 rfl]
    rfl
  replace h := h.resolve_left hold
  obtain ⟨s, hs, hutf8⟩ :=
    exists_replaceWordBoundary new hold (rewritable_of_ascii hold h.fits h.ascii)
  rw [hs, Option.some.injEq]
  apply toList_eq_of_utf8_eq
  by_cases hname : IsName old
  · rw [hutf8, utf8_renamed_of_isName hname]
  · rw [renamed_of_not_isName hname, hutf8]
    rcases h.name with hyes | halone | hsame
    · exact absurd hyes hname
    · rw [fill_of_not_mem _ _ (utf8 old.toList) fun hmem =>
        halone ((none_mem_iff_standsAlone hold).mp hmem)]
      exact fill_self (utf8_ne_nil hold) _ _
    · rw [hsame]
      exact fill_self (utf8_ne_nil hold) _ _

lemma le_length_of_replaceWordBoundary {s : String} (hold : old ≠ "")
    (h : replaceWordBoundary text old new = some s) :
    (utf8 old.toList).length ≤ (utf8 text.toList).length := by
  by_contra hlt
  rw [replaceWordBoundary_eq_none hold (Nat.lt_of_not_le hlt)] at h
  cases h

/-- If a name was looked for and only ASCII was kept, all places where it may begin are ASCII. -/
lemma replaceable_of_kept (hname : IsName old)
    (hfits : (utf8 old.toList).length ≤ (utf8 text.toList).length)
    {tokens : List (Option UInt8)} {tail : List UInt8}
    (hscan : Scanned (utf8 text.toList) (utf8 old.toList) none tokens tail)
    (hkept : ∀ b, some b ∈ tokens → b.toNat < 128) : Replaceable text old new := by
  have hread : Ascii (readOf (utf8 old.toList) tokens) := by
    intro b hb
    obtain ⟨t, ht, hbt⟩ := List.mem_flatMap.mp hb
    cases t with
    | none => exact isWordCode_lt (hname.isWordChar b hbt)
    | some b' =>
      obtain rfl := List.mem_singleton.mp hbt
      exact hkept b ht
  refine ⟨hfits, fun b hb => ?_, Or.inl hname⟩
  have hbytes := hscan.bytes_eq (utf8_ne_nil hname.1)
  have hlen := congrArg List.length hbytes
  rw [List.length_append] at hlen
  have hshort := hscan.short
  rw [hbytes, List.take_append_of_le_length (by rw [← hbytes]; omega)] at hb
  exact hread b (List.mem_of_mem_take hb)

lemma replaceable_of_isName (hname : IsName old)
    (h : replaceWordBoundary text old new = some (renamed text old new)) :
    Replaceable text old new := by
  obtain ⟨tokens, tail, hscan, hutf8⟩ := utf8_of_replaceWordBoundary hname.1 h
  refine replaceable_of_kept hname (le_length_of_replaceWordBoundary hname.1 h) hscan ?_
  -- no byte that was kept has become two
  intro b hb
  rw [utf8_renamed_of_isName hname, hscan.cut, fill_append, fill_map_some,
    List.flatMap_singleton', List.append_cancel_right_eq] at hutf8
  exact lt_of_length_utf8_byteAsChar (length_eq_one_of_fill_eq
    (fun b => one_le_length_utf8 (byteAsChar b)) hutf8.symm b hb)

lemma replaceable_of_ascii (hold : old ≠ "") (htext : Ascii (utf8 text.toList))
    (h : replaceWordBoundary text old new = some (renamed text old new)) :
    Replaceable text old new := by
  have hfits := le_length_of_replaceWordBoundary hold h
  have hascii : Ascii ((utf8 text.toList).take
      ((utf8 text.toList).length - (utf8 old.toList).length + 1)) := fun b hb =>
    htext b (List.mem_of_mem_take hb)
  refine ⟨hfits, hascii, ?_⟩
  by_cases hname : IsName old
  · exact Or.inl hname
  · by_cases halone : StandsAlone text old
    · obtain ⟨s, hs, hutf8⟩ :=
        exists_replaceWordBoundary new hold (rewritable_of_ascii hold hfits hascii)
      rw [h, renamed_of_not_isName hname] at hs
      rw [← Option.some.inj hs] at hutf8
      have hfill := (fill_self (p := isWordChar) (utf8_ne_nil hold) none
        (utf8 text.toList)).trans hutf8
      have heq := eq_of_fill_eq hfill ((none_mem_iff_standsAlone hold).mpr halone)
      exact Or.inr (Or.inr (toList_eq_of_utf8_eq heq.symm))
    · exact Or.inr (Or.inl halone)

/-- A replaceable text gets the new name for each identifier that is the old one, and nothing else
changes. If the old name is an identifier or the text is ASCII, no other text does. -/
theorem replaceWordBoundary_renames (text old new : String) :
    (old = "" ∨ Replaceable text old new →
      replaceWordBoundary text old new = some (renamed text old new)) ∧
    (IsName old ∨ Ascii (utf8 text.toList) →
      (replaceWordBoundary text old new = some (renamed text old new) ↔
        old = "" ∨ Replaceable text old new)) := by
  refine ⟨replaceWordBoundary_of_replaceable, fun hcase =>
    ⟨fun h => ?_, replaceWordBoundary_of_replaceable⟩⟩
  by_cases hold : old = ""
  · exact Or.inl hold
  · rcases hcase with hname | hascii
    · exact Or.inr (replaceable_of_isName hname h)
    · exact Or.inr (replaceable_of_ascii hold hascii h)

/-- A letter before the call is written as two characters. -/
theorem accent_corrupted :
    IsName "FUN_001" ∧ replaceWordBoundary "é FUN_001()" "FUN_001" "f" = some "Ã© f()" ∧
      replaceWordBoundary "é FUN_001()" "FUN_001" "f" ≠ some (renamed "é FUN_001()" "FUN_001" "f") ∧
      replaceWordBoundary "main()" "FUN_001" "f" = none := by
  decide +kernel

end Arbeiterfarm.Tools
