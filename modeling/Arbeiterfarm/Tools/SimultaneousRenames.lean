import Arbeiterfarm.Foundation.Fallible
import Arbeiterfarm.Tools.Renames
import Arbeiterfarm.Tools.WholeNames

/-!
# When the overlay is one substitution

The overlay of a value comes down to what becomes of each code text. The renames in turn, like the
renames at once, act on each piece of a code by itself. A text that was written wrongly once has
more bytes that are not ASCII than before, so no later rename to a name in ASCII makes up for it.
-/

namespace Arbeiterfarm.Tools

open Foundation (lookup_cons_eq)
open Foundation.Words Foundation.Fallible

/-! ### The overlay of a value -/

section

variable {rename : String → Option String} {rewrite : String → Option String}

lemma lookup_setField_of_ne {key k : String} (h : k ≠ key) (value : Json)
    (fields : List (String × Json)) : (setField key value fields).lookup k = fields.lookup k := by
  induction fields with
  | nil => rfl
  | cons e fields ih =>
    obtain ⟨l, v⟩ := e
    rw [setField, lookup_cons_eq]
    by_cases hl : l = key
    · rw [if_pos hl, lookup_cons_eq, if_neg (hl ▸ h), if_neg (hl ▸ h)]
    · rw [if_neg hl, lookup_cons_eq, ih]

lemma lookup_setField {key : String} {v : Json} (value : Json) {fields : List (String × Json)}
    (h : fields.lookup key = some v) : (setField key value fields).lookup key = some value := by
  induction fields with
  | nil => cases h
  | cons e fields ih =>
    obtain ⟨l, w⟩ := e
    rw [lookup_cons_eq] at h
    rw [setField]
    by_cases hl : l = key
    · rw [if_pos hl, lookup_cons_eq, if_pos hl.symm]
    · rw [if_neg (Ne.symm hl)] at h
      rw [if_neg hl, lookup_cons_eq, if_neg (Ne.symm hl), ih h]

lemma strField_overlayName (func : Json) :
    (overlayName rename func).strField "code" = func.strField "code" := by
  have hassign : ∀ value, (assign func "name" value).strField "code" = func.strField "code" := by
    intro value
    cases func with
    | obj fields =>
      have hne : "code" ≠ "name" := by decide
      exact congrArg (·.bind Json.asStr) (lookup_setField_of_ne hne value fields)
    | _ => rfl
  rw [overlayName]
  split
  · split
    · exact hassign _
    · rfl
  · rfl

lemma setField_self {key : String} {v : Json} {fields : List (String × Json)}
    (h : fields.lookup key = some v) : setField key v fields = fields := by
  induction fields with
  | nil => rfl
  | cons e fields ih =>
    obtain ⟨l, w⟩ := e
    rw [lookup_cons_eq] at h
    rw [setField]
    by_cases hl : l = key
    · rw [if_pos hl.symm] at h
      rw [if_pos hl, Option.some.inj h]
    · rw [if_neg (Ne.symm hl)] at h
      rw [if_neg hl, ih h]

lemma lookup_of_strField {fields : List (String × Json)} {key s : String}
    (h : (Json.obj fields).strField key = some s) : fields.lookup key = some (.str s) := by
  obtain ⟨v, hv, hs⟩ := Option.bind_eq_some_iff.mp h
  cases v with
  | str t =>
    obtain rfl := Option.some.inj hs
    exact hv
  | _ => cases hs

/-- A function with code gets the code that is written for it. -/
lemma overlayCode_of_strField {func : Json} {code : String}
    (h : func.strField "code" = some code) :
    overlayCode rewrite func = (rewrite code).map fun new_code =>
      assign func "code" (.str new_code) := by
  rw [overlayCode, h]
  refine congrArg (Option.map · _) (funext fun new_code => ?_)
  by_cases hsame : new_code = code
  · rw [if_neg (not_not.mpr hsame), hsame]
    cases func with
    | obj fields => exact congrArg Json.obj (setField_self (lookup_of_strField h)).symm
    | _ => cases h
  · exact if_pos hsame

/-- The code that is written can be read off. -/
lemma overlayCode_eq_iff {h : String → String} (func : Json) :
    overlayCode rewrite func = overlayCode (fun code => some (h code)) func ↔
      ∀ code, func.strField "code" = some code → rewrite code = some (h code) := by
  cases hcode : func.strField "code" with
  | none =>
    rw [overlayCode, overlayCode, hcode]
    exact iff_of_true rfl fun code hsome => (nomatch hsome)
  | some code =>
    rw [overlayCode_of_strField hcode, overlayCode_of_strField hcode]
    constructor
    · rintro heq code' hsame
      obtain rfl := Option.some.inj hsame
      obtain ⟨new_code, hnew, hassign⟩ := Option.map_eq_some_iff.mp heq
      have hread : ∀ n, (assign func "code" (.str n)).strField "code" = some n := by
        intro n
        cases func with
        | obj fields =>
          exact congrArg (·.bind Json.asStr) (lookup_setField (.str n) (lookup_of_strField hcode))
        | _ => cases hcode
      have hboth := congrArg (·.strField "code") hassign
      simp only [hread, Option.some.injEq] at hboth
      rw [hnew, hboth]
    · intro hall
      rw [hall code rfl]

lemma isSome_overlayCode (h : String → String) (func : Json) :
    ∃ val, overlayCode (fun code => some (h code)) func = some val := by
  cases hcode : func.strField "code" with
  | none => exact ⟨func, by rw [overlayCode, hcode]⟩
  | some code => exact ⟨_, overlayCode_of_strField hcode⟩

/-- The entries of the new object, in the order of the old one. -/
def overlayEntry (rename rewrite : String → Option String) (e : String × Json) :
    Option (String × Json) :=
  (overlayCode rewrite e.2).map fun val => ((rename e.1).getD e.1, val)

lemma overlay_obj (fields : List (String × Json)) :
    overlay rename rewrite (.obj fields) =
      (fields.mapM (overlayEntry rename rewrite)).map fun entries =>
        .obj (Json.insertAll [] entries) := rfl

lemma keys_of_mapM {fields entries : List (String × Json)}
    (h : fields.mapM (overlayEntry rename rewrite) = some entries) :
    entries.map Prod.fst = fields.map fun e => (rename e.1).getD e.1 := by
  rw [mapM_eq_some_iff] at h
  have hkeys := congrArg (List.map (Option.map Prod.fst)) h
  rw [List.map_map, List.map_map] at hkeys
  apply List.map_injective_iff.mpr (Option.some_injective _)
  rw [List.map_map, List.map_map]
  refine hkeys.symm.trans (List.map_congr_left fun e he => ?_)
  obtain ⟨entry, -, hentry⟩ := List.mem_map.mp (h ▸ List.mem_map_of_mem he)
  rw [Function.comp_apply, ← hentry]
  obtain ⟨val, -, rfl⟩ := Option.map_eq_some_iff.mp hentry.symm
  rfl

/-- Under distinct new keys, the new object has the value of each entry. -/
lemma exists_lookup_of_mapM {fields entries : List (String × Json)}
    (h : fields.mapM (overlayEntry rename rewrite) = some entries)
    (hkeys : (fields.map fun e => (rename e.1).getD e.1).Nodup) {e : String × Json}
    (he : e ∈ fields) : ∃ val, overlayCode rewrite e.2 = some val ∧
      (Json.insertAll [] entries).lookup ((rename e.1).getD e.1) = some val := by
  have hmap := mapM_eq_some_iff.mp h
  obtain ⟨entry, hin, hentry⟩ := List.mem_map.mp (hmap ▸ List.mem_map_of_mem he)
  obtain ⟨val, hval, rfl⟩ := Option.map_eq_some_iff.mp hentry.symm
  rw [← keys_of_mapM h] at hkeys
  exact ⟨val, hval, Json.lookup_insertAll hkeys hin⟩

/-- The substitution gives a result for every value, and no function is lost exactly if the new keys
of an object are distinct. -/
lemma exists_overlay (rename : String → Option String) (h : String → String) (v : Json) :
    ∃ r, overlay rename (fun code => some (h code)) v = some r ∧
      ((functions r).length = (functions v).length ↔
        ∀ fields, v = .obj fields → (fields.map fun e => (rename e.1).getD e.1).Nodup) := by
  cases v with
  | arr funcs =>
    obtain ⟨out, hout⟩ := exists_mapM_eq_some (l := funcs)
      fun func _ => isSome_overlayCode h (overlayName rename func)
    refine ⟨.arr out, by rw [overlay, hout]; rfl, iff_of_true ?_ fun fields hf => (nomatch hf)⟩
    have hlen := congrArg List.length (mapM_eq_some_iff.mp hout)
    rw [List.length_map, List.length_map] at hlen
    exact hlen.symm
  | obj fields =>
    obtain ⟨entries, hentries⟩ : ∃ entries,
        fields.mapM (overlayEntry rename fun code => some (h code)) = some entries := by
      refine exists_mapM_eq_some fun e _ => ?_
      obtain ⟨val, hval⟩ := isSome_overlayCode h e.2
      exact ⟨_, by rw [overlayEntry, hval]; rfl⟩
    have hlen := congrArg List.length (mapM_eq_some_iff.mp hentries)
    rw [List.length_map, List.length_map] at hlen
    have hnil : Json.SortedKeys [] := List.Pairwise.nil
    have hcount := Json.length_insertAll_iff hnil entries
    refine ⟨.obj (Json.insertAll [] entries), by rw [overlay_obj, hentries]; rfl, ?_⟩
    rw [keys_of_mapM hentries, List.length_nil, Nat.zero_add] at hcount
    simp only [functions, List.length_map, hlen, hcount, Json.obj.injEq, forall_eq']
    simp
  | _ => exact ⟨_, rfl, iff_of_true rfl fun fields hf => (nomatch hf)⟩

/-- If no function is lost, the overlay is the substitution exactly if each code is written so. -/
lemma overlay_eq_some_iff {h : String → String} {v r : Json}
    (hr : overlay rename (fun code => some (h code)) v = some r)
    (hcount : (functions r).length = (functions v).length) :
    overlay rename rewrite v = some r ↔ ∀ code ∈ codes v, rewrite code = some (h code) := by
  have hcodes : (∀ code ∈ codes v, rewrite code = some (h code)) ↔ ∀ func ∈ functions v,
      ∀ code, func.strField "code" = some code → rewrite code = some (h code) := by
    simp only [codes, List.mem_filterMap]
    exact ⟨fun hall func hfunc code hcode => hall code ⟨func, hfunc, hcode⟩,
      fun hall code ⟨func, hfunc, hcode⟩ => hall func hfunc code hcode⟩
  rw [hcodes]
  cases v with
  | arr funcs =>
    obtain ⟨out, hout, rfl⟩ := Option.map_eq_some_iff.mp hr
    rw [mapM_eq_some_iff] at hout
    have harr : overlay rename rewrite (.arr funcs) = some (.arr out) ↔
        funcs.map (fun func => overlayCode rewrite (overlayName rename func)) = out.map some := by
      rw [← mapM_eq_some_iff, overlay, Option.map_eq_some_iff]
      simp
    rw [harr, ← hout, List.map_inj_left]
    simp only [overlayCode_eq_iff, strField_overlayName]
    rfl
  | obj fields =>
    obtain ⟨r', hr', hnodup⟩ := exists_overlay rename h (.obj fields)
    obtain rfl : r' = r := Option.some.inj (hr'.symm.trans hr)
    have hkeys := hnodup.mp hcount fields rfl
    rw [overlay_obj] at hr
    obtain ⟨entries, hentries, rfl⟩ := Option.map_eq_some_iff.mp hr
    rw [overlay_obj]
    simp only [functions, List.forall_mem_map, ← overlayCode_eq_iff]
    constructor
    · intro hoverlay e he
      obtain ⟨es, hes, hsame⟩ := Option.map_eq_some_iff.mp hoverlay
      obtain ⟨val, hval, hlookup⟩ := exists_lookup_of_mapM hes hkeys he
      obtain ⟨val', hval', hlookup'⟩ := exists_lookup_of_mapM hentries hkeys he
      rw [Json.obj.inj hsame, hlookup'] at hlookup
      rw [hval, hval', hlookup]
    · intro hall
      have hsame : fields.mapM (overlayEntry rename rewrite) = some entries := by
        rw [mapM_eq_some_iff, ← mapM_eq_some_iff.mp hentries]
        refine List.map_congr_left fun e he => ?_
        rw [overlayEntry, hall e he, overlayEntry]
      rw [hsame]
      rfl
  | _ => exact iff_of_true hr fun func hfunc => (nomatch hfunc)

end

/-! ### Orders of iteration -/

/-- With no renames, a decompiled value is its own overlay. -/
lemma overlay_none (v : Decompiled) :
    overlay (fun _ => none) (fun code => some code) v.value = some v.value := by
  have hcode : ∀ func : Json, overlayCode (fun code => some code) func = some func := by
    intro func
    rw [overlayCode]
    split
    · rw [Option.map_some, if_neg (not_not.mpr rfl)]
    · rfl
  obtain ⟨value, hsorted⟩ := v
  cases value with
  | arr funcs =>
    have hfuncs : (funcs.mapM fun func =>
        overlayCode (fun code => some code) (overlayName (fun _ => none) func)) = some funcs := by
      rw [mapM_eq_some_iff]
      refine List.map_congr_left fun func _ => (hcode _).trans ?_
      rw [overlayName]
      split <;> rfl
    rw [overlay, hfuncs]
    rfl
  | obj fields =>
    have hfields : fields.mapM (overlayEntry (fun _ => none) fun code => some code) =
        some fields := by
      rw [mapM_eq_some_iff]
      refine List.map_congr_left fun e _ => ?_
      rw [overlayEntry, hcode]
      rfl
    have hinsert : Json.insertAll [] fields = fields :=
      Json.insertAll_of_sorted (hsorted fields rfl)
    rw [overlay_obj, hfields, Option.map_some, hinsert]
  | _ => rfl

lemma applyRenamesOverlay_eq {renames : RenameMap} {iter : List (String × String)}
    (hiter : iter.Perm renames.entries) (v : Decompiled) :
    applyRenamesOverlay renames iter v.value = overlay renames.get
      (fun code => replaceAllWithWordBoundary code (sortRenames iter)) v.value := by
  rw [applyRenamesOverlay]
  by_cases hempty : iter.isEmpty
  · obtain rfl := List.isEmpty_iff.mp hempty
    have hget : renames.get = fun _ => none := by
      funext name
      rw [RenameMap.get, ← hiter.nil_eq]
      rfl
    rw [if_pos hempty, hget]
    exact (overlay_none v).symm
  · exact if_neg hempty

/-- The overlay of a value comes down to the keys and to what becomes of each code. -/
lemma isSimultaneous_iff (renames : RenameMap) (v : Decompiled) :
    IsSimultaneous renames v.value ↔
      (∀ fields, v.value = .obj fields → (fields.map fun e => renames.newName e.1).Nodup) ∧
      ∃ order, order.Perm renames.entries ∧
        ∀ iter, iter.Perm renames.entries → ∀ code ∈ codes v.value,
          replaceAllWithWordBoundary code (sortRenames iter) =
            some (renamedTogether (nameTable renames order v.value) code) := by
  constructor
  · rintro ⟨order, horder, r, hr, hlen, happly⟩
    obtain ⟨r', hr', hcount⟩ := exists_overlay renames.get
      (renamedTogether (nameTable renames order v.value)) v.value
    obtain rfl : r' = r := Option.some.inj (hr'.symm.trans hr)
    refine ⟨hcount.mp hlen, order, horder, fun iter hiter => ?_⟩
    rw [← overlay_eq_some_iff hr hlen, ← applyRenamesOverlay_eq hiter]
    exact happly iter hiter
  · rintro ⟨hkeys, order, horder, hall⟩
    obtain ⟨r, hr, hcount⟩ := exists_overlay renames.get
      (renamedTogether (nameTable renames order v.value)) v.value
    have hlen := hcount.mpr hkeys
    refine ⟨order, horder, r, hr, hlen, fun iter hiter => ?_⟩
    rw [applyRenamesOverlay_eq hiter, overlay_eq_some_iff hr hlen]
    exact hall iter hiter

/-! ### One rename -/

/-- In bytes, the old name is cut out where it is in characters. -/
lemma utf8_replaced {text old new : String} (hold : old ≠ "") :
    utf8 (replaced text old new).toList = fill (fun b => [b]) (utf8 new.toList)
      (cutWords isWordChar (utf8 old.toList) 0 none (utf8 text.toList)) := by
  have hne : old.toList ≠ [] := fun hnil => hold (String.toList_eq_nil_iff.mp hnil)
  have hstart : outside isWordChar none = outside isNameChar none := rfl
  have hcut : cutWords isWordChar (utf8 old.toList) 0 none (utf8 text.toList) = _ :=
    cutWords_flatMap isCode_utf8 hne hstart text.toList
  rw [hcut, fill_flatMap, replaced, String.toList_ofList, replaceWord]
  simp [hne, spelled, utf8, flatMap_fill]

lemma replaced_of_empty (text new : String) : replaced text "" new = text := by
  simp [replaced, replaceWord, spelled]

lemma replaceWordBoundary_of_rewritable {text old : String} (h : old = "" ∨ Rewritable text old)
    (new : String) : replaceWordBoundary text old new = some (replaced text old new) := by
  by_cases hold : old = ""
  · rw [hold, replaced_of_empty]
    rfl
  · obtain ⟨s, hs, hutf8⟩ := exists_replaceWordBoundary new hold (h.resolve_left hold)
    rw [hs, Option.some.injEq]
    apply toList_eq_of_utf8_eq
    rw [hutf8, utf8_replaced hold]

/-! ### Bytes that are not ASCII -/

def highBytes (cs : List Char) : ℕ := (utf8 cs).countP fun b => 128 ≤ b.toNat

lemma highBytes_append (cs ds : List Char) :
    highBytes (cs ++ ds) = highBytes cs + highBytes ds := by
  simp [highBytes]

/-- The names are ASCII. -/
def AsciiNames (entries : List (String × String)) : Prop :=
  ∀ e ∈ entries, Ascii (utf8 e.1.toList) ∧ Ascii (utf8 e.2.toList)

lemma highBytes_of_ascii {cs : List Char} (h : Ascii (utf8 cs)) : highBytes cs = 0 := by
  rw [highBytes, List.countP_eq_zero]
  intro b hb
  simpa using h b hb

/-- A byte that is not ASCII becomes two of them. -/
lemma countP_byteAsChar (b : UInt8) :
    [b].countP (fun b => 128 ≤ b.toNat) ≤
        (utf8 [byteAsChar b]).countP (fun b => 128 ≤ b.toNat) ∧
      ((utf8 [byteAsChar b]).countP (fun b => 128 ≤ b.toNat) =
        [b].countP (fun b => 128 ≤ b.toNat) → b.toNat < 128) := by
  by_cases hlt : b.toNat < 128
  · rw [utf8_byteAsChar hlt]
    exact ⟨Nat.le_refl _, fun _ => hlt⟩
  · have hhigh : ∀ b' ∈ utf8 [byteAsChar b], decide (128 ≤ b'.toNat) = true := by
      intro b' hb'
      rw [utf8_cons, utf8_nil, List.append_nil] at hb'
      have hchar : 128 ≤ (byteAsChar b).toNat := by
        rw [toNat_byteAsChar]
        exact Nat.le_of_not_lt hlt
      exact decide_eq_true (le_of_mem_utf8EncodeChar hchar b' hb')
    have hlen : (utf8 [byteAsChar b]).length ≠ 1 := fun hone =>
      hlt (lt_of_length_utf8_byteAsChar hone)
    have hpos := one_le_length_utf8 (byteAsChar b)
    have hone : [b].countP (fun b => 128 ≤ b.toNat) = 1 := by simp [Nat.le_of_not_lt hlt]
    rw [List.countP_eq_length.mpr hhigh, hone]
    exact ⟨hpos, fun heq => absurd heq hlen⟩

/-- A rename to a name in ASCII takes none of them away, and adds some unless the text was
rewritable. -/
lemma highBytes_replaceWordBoundary {text old new s : String} (hold : Ascii (utf8 old.toList))
    (hnew : Ascii (utf8 new.toList)) (h : replaceWordBoundary text old new = some s) :
    highBytes text.toList ≤ highBytes s.toList ∧
      (highBytes s.toList = highBytes text.toList → old = "" ∨ Rewritable text old) := by
  by_cases hempty : old = ""
  · rw [replaceWordBoundary_of_rewritable (Or.inl hempty), hempty, replaced_of_empty] at h
    rw [Option.some.inj h]
    exact ⟨Nat.le_refl _, fun _ => Or.inl hempty⟩
  · obtain ⟨tokens, tail, hscan, hutf8⟩ := utf8_of_replaceWordBoundary hempty h
    have hgap : (utf8 new.toList).countP (fun b => 128 ≤ b.toNat) =
        (utf8 old.toList).countP (fun b => 128 ≤ b.toNat) :=
      (highBytes_of_ascii hnew).trans (highBytes_of_ascii hold).symm
    obtain ⟨hle, hall⟩ := countP_fill_le hgap (fun b => (countP_byteAsChar b).1) tokens
    have hbytes := hscan.bytes_eq (utf8_ne_nil hempty)
    rw [readOf] at hbytes
    rw [highBytes, highBytes, hutf8, hbytes, List.countP_append, List.countP_append]
    refine ⟨Nat.add_le_add_right hle _, fun heq => Or.inr ?_⟩
    apply Rewritable.of_kept (le_length_of_replaceWordBoundary hempty h) hscan
    intro b hb
    exact (countP_byteAsChar b).2 (hall (Nat.add_right_cancel heq) b hb)

/-! ### One code text -/

variable {sorted : List (String × String)} {renames : RenameMap}

lemma replaceAll_of_rewritableInTurn {text : String} (h : RewritableInTurn sorted text) :
    replaceAllWithWordBoundary text sorted = some (renamedInTurn sorted text) := by
  induction sorted generalizing text with
  | nil => rfl
  | cons e sorted ih =>
    obtain ⟨hfirst, hrest⟩ := h
    rw [replaceAllWithWordBoundary, replaceWordBoundary_of_rewritable hfirst, Option.bind_some,
      ih hrest, renamedInTurn]

lemma highBytes_replaceAll {text s : String} (hnames : AsciiNames sorted)
    (h : replaceAllWithWordBoundary text sorted = some s) :
    highBytes text.toList ≤ highBytes s.toList ∧
      (highBytes s.toList = highBytes text.toList → RewritableInTurn sorted text) := by
  induction sorted generalizing text with
  | nil =>
    obtain rfl := Option.some.inj h
    exact ⟨Nat.le_refl _, fun _ => trivial⟩
  | cons e sorted ih =>
    obtain ⟨⟨hold, hnew⟩, hrest⟩ := List.forall_mem_cons.mp hnames
    rw [replaceAllWithWordBoundary, Option.bind_eq_some_iff] at h
    obtain ⟨t, ht, hs⟩ := h
    obtain ⟨hle, hone⟩ := highBytes_replaceWordBoundary hold hnew ht
    obtain ⟨hle', hall⟩ := ih hrest hs
    refine ⟨Nat.le_trans hle hle', fun heq => ?_⟩
    have hfirst := hone (by omega)
    rw [replaceWordBoundary_of_rewritable hfirst, Option.some.injEq] at ht
    exact ⟨hfirst, ht ▸ hall (by omega)⟩

/-- At once, names in ASCII add no such bytes and take none away. -/
lemma highBytes_renamedTogether (hnames : AsciiNames renames.entries)
    {order : List (String × String)} (horder : order.Perm renames.entries) (v : Json)
    (code : String) :
    highBytes (renamedTogether (nameTable renames order v) code).toList =
      highBytes code.toList := by
  rw [renamedTogether, String.toList_ofList]
  apply measure_replaceTogether highBytes_append
  intro e he
  obtain ⟨name, hname, rfl⟩ := List.mem_map.mp he
  rw [nameTable, sortRenames, List.mem_insertionSort, List.mem_append] at hname
  rcases hname with hrename | hkept
  · obtain ⟨hold, hnew⟩ := hnames name (horder.mem_iff.mp hrename)
    exact (highBytes_of_ascii hnew).trans (highBytes_of_ascii hold).symm
  · obtain ⟨own, -, rfl⟩ := List.mem_map.mp hkept
    rfl

lemma toList_renamedInTurn (sorted : List (String × String)) (text : String) :
    (renamedInTurn sorted text).toList =
      replaceInTurn isNameChar (sorted.map spelled) text.toList := by
  induction sorted generalizing text with
  | nil => rfl
  | cons e sorted ih =>
    rw [renamedInTurn, ih, replaced, String.toList_ofList]
    rfl

/-- A piece holds all of each name in it. -/
lemma covers_spelled {v : Json} {names : List (String × String)}
    (h : ∀ e ∈ names, e ∈ renames.entries ∨ e.1 ∈ ownNames v ∧ e.2 = e.1) :
    Covers isNameChar (isPieceChar renames v) (names.map spelled) := by
  have hpiece : ∀ e ∈ names, ∀ c, c ∈ e.1.toList ∨ c ∈ e.2.toList → isPieceChar renames v c := by
    intro e he c hc
    simp only [isPieceChar, Bool.or_eq_true, List.any_eq_true, List.contains_iff_mem]
    rcases h e he with hentry | ⟨hown, hsame⟩
    · exact Or.inl (Or.inr ⟨e, hentry, hc⟩)
    · exact Or.inr ⟨e.1, hown, by simpa [hsame] using hc⟩
  refine ⟨fun c hc => by simp [isPieceChar, hc], ?_, ?_⟩
  · intro e he c hc
    obtain ⟨name, hname, rfl⟩ := List.mem_map.mp he
    exact hpiece name hname c (Or.inl hc)
  · intro e he c hc
    obtain ⟨name, hname, rfl⟩ := List.mem_map.mp he
    exact hpiece name hname c (Or.inr hc)

/-- The names in turn make of a code what they make of it at once exactly if they do so with each
piece of it. -/
lemma renamedInTurn_eq_iff {v : Json} {iter order : List (String × String)}
    (hiter : iter.Perm renames.entries) (horder : order.Perm renames.entries) (code : String) :
    renamedInTurn (sortRenames iter) code = renamedTogether (nameTable renames order v) code ↔
      ∀ w ∈ words (isPieceChar renames v) [] code.toList,
        renamedInTurn (sortRenames iter) (String.ofList w) =
          renamedTogether (nameTable renames order v) (String.ofList w) := by
  have hsorted : Covers isNameChar (isPieceChar renames v) ((sortRenames iter).map spelled) :=
    covers_spelled fun e he => Or.inl (hiter.mem_iff.mp ((List.mem_insertionSort _).mp he))
  have htable : Covers isNameChar (isPieceChar renames v)
      ((nameTable renames order v).map spelled) := by
    refine covers_spelled fun e he => ?_
    rw [nameTable, sortRenames, List.mem_insertionSort, List.mem_append] at he
    refine he.imp (fun hrename => horder.mem_iff.mp hrename) fun hkept => ?_
    obtain ⟨own, hown, rfl⟩ := List.mem_map.mp hkept
    exact ⟨(List.mem_filter.mp hown).1, rfl⟩
  simp only [← String.toList_inj, toList_renamedInTurn, renamedTogether, String.toList_ofList]
  exact replaceInTurn_eq_replaceTogether_iff hsorted htable code.toList

/-- With compatible renames the overlay is one substitution. If all names of the map are ASCII, with
other renames it is none. -/
theorem overlay_isSimultaneous (renames : RenameMap) (v : Decompiled) :
    (Compatible renames v.value → IsSimultaneous renames v.value) ∧
    (AsciiNames renames.entries →
      (IsSimultaneous renames v.value ↔ Compatible renames v.value)) := by
  have henough : Compatible renames v.value → IsSimultaneous renames v.value := by
    intro h
    obtain ⟨order, horder, hdirect⟩ := h.direct
    rw [isSimultaneous_iff]
    refine ⟨h.keys, order, horder, fun iter hiter code hcode => ?_⟩
    rw [replaceAll_of_rewritableInTurn (h.rewritable iter hiter code hcode),
      (renamedInTurn_eq_iff hiter horder code).mpr (hdirect iter hiter code hcode)]
  refine ⟨henough, fun hnames => ⟨fun h => ?_, henough⟩⟩
  obtain ⟨hkeys, order, horder, hall⟩ := (isSimultaneous_iff renames v).mp h
  have hturn : ∀ iter, iter.Perm renames.entries → ∀ code ∈ codes v.value,
      RewritableInTurn (sortRenames iter) code := by
    intro iter hiter code hcode
    have hsorted : AsciiNames (sortRenames iter) := fun e he =>
      hnames e (hiter.mem_iff.mp ((List.mem_insertionSort _).mp he))
    -- the code at once has as many of these bytes as the code
    exact (highBytes_replaceAll hsorted (hall iter hiter code hcode)).2
      (highBytes_renamedTogether hnames horder v.value code)
  refine ⟨hkeys, hturn, order, horder, fun iter hiter code hcode => ?_⟩
  have hcode' := hall iter hiter code hcode
  rw [replaceAll_of_rewritableInTurn (hturn iter hiter code hcode), Option.some.injEq] at hcode'
  exact (renamedInTurn_eq_iff hiter horder code).mp hcode'

def chainRenames : RenameMap where
  entries := [("FUN_001", "FUN_002"), ("FUN_002", "helper")]
  nodup := by decide

def sameRenames : RenameMap where
  entries := [("FUN_001", "f"), ("FUN_002", "f")]
  nodup := by decide

def oneFunction (name code : String) : Json :=
  .arr [.obj [("code", .str code), ("name", .str name)]]

def dottedRenames : RenameMap where
  entries := [("a.b", "x")]
  nodup := by decide

/-- A name need not be an identifier. -/
example : IsSimultaneous dottedRenames (oneFunction "a.b" "a.b();") := by
  refine ⟨_, List.Perm.refl _, oneFunction "x" "x();", by decide +kernel, rfl, fun iter hiter => ?_⟩
  rw [List.perm_singleton.mp hiter]
  decide +kernel

/-- The order of the map decides which name the code has; of two functions one is lost. -/
theorem chain_depends_on_order :
    applyRenamesOverlay chainRenames chainRenames.entries (oneFunction "FUN_001" "FUN_001();") =
        some (oneFunction "FUN_002" "helper();") ∧
      applyRenamesOverlay chainRenames chainRenames.entries.reverse
        (oneFunction "FUN_001" "FUN_001();") = some (oneFunction "FUN_002" "FUN_002();") ∧
      ¬ IsSimultaneous chainRenames (oneFunction "FUN_001" "FUN_001();") ∧
      applyRenamesOverlay sameRenames sameRenames.entries
        (.obj [("FUN_001", .obj []), ("FUN_002", .obj [])]) = some (.obj [("f", .obj [])]) := by
  have hfirst : applyRenamesOverlay chainRenames chainRenames.entries
      (oneFunction "FUN_001" "FUN_001();") = some (oneFunction "FUN_002" "helper();") := by
    decide +kernel
  have hsecond : applyRenamesOverlay chainRenames chainRenames.entries.reverse
      (oneFunction "FUN_001" "FUN_001();") = some (oneFunction "FUN_002" "FUN_002();") := by
    decide +kernel
  have hne : oneFunction "FUN_002" "helper();" ≠ oneFunction "FUN_002" "FUN_002();" := by
    decide +kernel
  refine ⟨hfirst, hsecond, ?_, by decide +kernel⟩
  rintro ⟨-, -, result, -, -, hall⟩
  have hone := hall _ (List.Perm.refl _)
  rw [hfirst] at hone
  have htwo := hall _ (List.reverse_perm _)
  rw [hsecond] at htwo
  exact hne (Option.some.inj (hone.trans htwo.symm))

end Arbeiterfarm.Tools
