import Arbeiterfarm.Tools.Unpack
import Mathlib.Data.List.Perm.Subperm
import Mathlib.Data.List.Nodup
import Mathlib.Algebra.Order.BigOperators.Group.List
import Mathlib.Algebra.Order.Group.Nat

/-!
# Unpacked files are contained

Whatever the names in an archive, the files that are written from it are distinct, lie in the output
directory, are within the limits and hold the bytes of their entries. A number that makes a name new
is found because there are more of them than files.
-/

namespace Arbeiterfarm.Tools.Unpack

open Foundation Foundation.Fallible

/-! ### Names -/

lemma not_mem_of_mem_splitOn {α : Type} [DecidableEq α] {a : α} {l part : List α}
    (h : part ∈ l.splitOn a) : a ∉ part := by
  induction l generalizing part with
  | nil =>
    rw [List.splitOn_nil, List.mem_singleton] at h
    rw [h]
    exact List.not_mem_nil
  | cons b l ih =>
    rw [List.splitOn_cons_eq_if_modifyHead] at h
    by_cases hb : b = a
    · rw [if_pos (beq_iff_eq.mpr hb), List.mem_cons] at h
      rcases h with rfl | h
      · exact List.not_mem_nil
      · exact ih h
    · rw [if_neg (by simpa using hb)] at h
      cases hsplit : l.splitOn a with
      | nil => exact absurd hsplit (List.splitOn_ne_nil a l)
      | cons first rest =>
        rw [hsplit, List.modifyHead_cons, List.mem_cons] at h
        rcases h with rfl | h
        · rw [List.mem_cons, not_or]
          exact ⟨Ne.symm hb, ih (hsplit ▸ List.mem_cons_self)⟩
        · exact ih (hsplit ▸ List.mem_cons_of_mem first h)

/-- The last component of a path is a name. -/
lemma isFileName_fileName {path name : List Char} (h : fileName path = some name) :
    IsFileName name := by
  rw [fileName] at h
  cases hlast : (pathComponents path).getLast? with
  | none => simp [hlast] at h
  | some component =>
    have hmem := List.mem_of_getLast? hlast
    cases component with
    | normal n =>
      simp only [hlast, Option.some.injEq] at h
      subst h
      rw [pathComponents, List.mem_append, List.mem_append] at hmem
      rcases hmem with (hmem | hmem) | hmem
      · split_ifs at hmem <;> simp at hmem
      · split_ifs at hmem <;> simp at hmem
      · obtain ⟨part, hpart, heq⟩ := List.mem_map.mp hmem
        obtain ⟨hsplit, hne⟩ := List.mem_filter.mp hpart
        have hne := of_decide_eq_true hne
        split_ifs at heq with hdots
        obtain rfl := PathComponent.normal.inj heq
        exact ⟨hne.1, hne.2, hdots, not_mem_of_mem_splitOn hsplit⟩
    | _ => simp [hlast] at h

lemma isFileName_validateEntryName {name safe_name : List Char}
    (h : validateEntryName name = .ok safe_name) : IsFileName safe_name := by
  rw [validateEntryName] at h
  split_ifs at h
  simp only at h
  split at h
  · cases h
  · obtain rfl := Except.ok.inj h
    cases hname : fileName name with
    | none => exact ⟨by decide, by decide, by decide, by decide⟩
    | some n => exact isFileName_fileName hname

/-- An underscore and no separator make a name. -/
lemma isFileName_of_mem {name : List Char} (h : '_' ∈ name) (hslash : '/' ∉ name) :
    IsFileName name := by
  refine ⟨?_, ?_, ?_, hslash⟩
  · rintro rfl
    exact absurd h List.not_mem_nil
  · rintro rfl
    exact absurd h (by decide)
  · rintro rfl
    exact absurd h (by decide)

lemma subset_of_rsplitFileAtDot {file part : List Char}
    (h : (rsplitFileAtDot file).1 = some part ∨ (rsplitFileAtDot file).2 = some part) :
    part ⊆ file := by
  rw [rsplitFileAtDot] at h
  split_ifs at h
  · rcases h with h | h
    · exact Option.some.inj h ▸ List.Subset.refl file
    · cases h
  · have hafter : (file.reverse.takeWhile (· ≠ '.')).reverse ⊆ file := fun a ha =>
      List.mem_reverse.mp ((List.takeWhile_sublist _).subset (List.mem_reverse.mp ha))
    have hdrop : file.reverse.dropWhile (· ≠ '.') ⊆ file := fun a ha =>
      List.mem_reverse.mp ((List.dropWhile_sublist _).subset ha)
    cases hrest : file.reverse.dropWhile (· ≠ '.') with
    | nil =>
      simp only [hrest, reduceCtorEq, false_or, Option.some.injEq] at h
      exact h ▸ hafter
    | cons dot before =>
      rw [hrest] at hdrop
      cases before with
      | nil =>
        simp only [hrest, reduceCtorEq, or_false, Option.some.injEq] at h
        exact h ▸ List.Subset.refl file
      | cons b before =>
        simp only [hrest, Option.some.injEq] at h
        rcases h with rfl | rfl
        · exact fun a ha => hdrop (List.mem_cons_of_mem dot (List.mem_reverse.mp ha))
        · exact hafter

lemma slash_not_mem_stem {name : List Char} (h : '/' ∉ name) :
    '/' ∉ (fileStem name).getD name := by
  cases hstem : fileStem name with
  | none => exact h
  | some stem =>
    obtain ⟨file, hfile, hstem⟩ := Option.bind_eq_some_iff.mp hstem
    have hpart : (rsplitFileAtDot file).1 = some stem ∨ (rsplitFileAtDot file).2 = some stem :=
      (Option.or_eq_some_iff.mp hstem).imp_right And.right
    exact fun hmem => (isFileName_fileName hfile).no_slash (subset_of_rsplitFileAtDot hpart hmem)

lemma slash_not_mem_extension (name : List Char) :
    '/' ∉ ((fileExtension name).map ('.' :: ·)).getD [] := by
  cases hext : fileExtension name with
  | none => exact List.not_mem_nil
  | some ext =>
    obtain ⟨file, hfile, hext⟩ := Option.bind_eq_some_iff.mp hext
    obtain ⟨_, -, hpart⟩ := Option.bind_eq_some_iff.mp hext
    rw [Option.map_some, Option.getD_some, List.mem_cons, not_or]
    exact ⟨by decide, fun hmem =>
      (isFileName_fileName hfile).no_slash (subset_of_rsplitFileAtDot (Or.inr hpart) hmem)⟩

lemma slash_not_mem_numbered {stem ext : List Char} (hstem : '/' ∉ stem) (hext : '/' ∉ ext)
    (i : ℕ) : '/' ∉ numbered stem ext i := by
  have hdigits : '/' ∉ Nat.toDigits 10 i := fun h =>
    absurd (Nat.isDigit_of_mem_toDigits (by decide) (by decide) h) (by decide)
  simp [numbered, hstem, hext, hdigits]

lemma numbered_injective (stem ext : List Char) : Function.Injective (numbered stem ext) := by
  intro i j h
  have hdigits := (List.cons.inj (List.append_cancel_left (List.append_cancel_right h))).2
  rw [← Nat.ofDigitChars_ten_toDigits (n := i), hdigits, Nat.ofDigitChars_ten_toDigits]

/-! ### Names that are not taken -/

lemma freshName_eq (taken : List (List Char)) (name : List Char) :
    freshName taken name =
      if name ∉ taken then name
      else (((List.range' 1 9999).map (numbered ((fileStem name).getD name)
        (((fileExtension name).map ('.' :: ·)).getD []))).find? (· ∉ taken)).getD
          ((fileStem name).getD name ++ ['_', 'd', 'u', 'p'] ++
            ((fileExtension name).map ('.' :: ·)).getD []) := rfl

lemma isFileName_freshName {name : List Char} (h : IsFileName name) (taken : List (List Char)) :
    IsFileName (freshName taken name) := by
  have hstem := slash_not_mem_stem h.no_slash
  have hext := slash_not_mem_extension name
  rw [freshName_eq]
  generalize (fileStem name).getD name = stem at hstem ⊢
  generalize ((fileExtension name).map ('.' :: ·)).getD [] = ext at hext ⊢
  by_cases hname : name ∉ taken
  · rw [if_pos hname]
    exact h
  · rw [if_neg hname]
    cases hfind : ((List.range' 1 9999).map (numbered stem ext)).find? (· ∉ taken) with
    | none =>
      rw [Option.getD_none]
      exact isFileName_of_mem (by simp) (by simp [hstem, hext])
    | some candidate =>
      obtain ⟨i, -, rfl⟩ := List.mem_map.mp (List.mem_of_find?_eq_some hfind)
      exact isFileName_of_mem (by simp [numbered]) (slash_not_mem_numbered hstem hext i)

/-- Among more numbers than names there is one that makes a new name. -/
lemma freshName_not_mem {taken : List (List Char)} (h : taken.length < 9999) (name : List Char) :
    freshName taken name ∉ taken := by
  rw [freshName_eq]
  generalize (fileStem name).getD name = stem
  generalize ((fileExtension name).map ('.' :: ·)).getD [] = ext
  by_cases hname : name ∉ taken
  · rwa [if_pos hname]
  · rw [if_neg hname]
    cases hfind : ((List.range' 1 9999).map (numbered stem ext)).find? (· ∉ taken) with
    | some candidate =>
      rw [Option.getD_some]
      simpa using List.find?_some hfind
    | none =>
      -- otherwise all numbers are in use
      have hall : (List.range' 1 9999).map (numbered stem ext) ⊆ taken :=
        fun candidate hmem => by simpa using List.find?_eq_none.mp hfind candidate hmem
      have hnodup : ((List.range' 1 9999).map (numbered stem ext)).Nodup :=
        (List.nodup_range' : (List.range' 1 9999).Nodup).map (numbered_injective stem ext)
      have hle := (List.subperm_of_subset hnodup hall).length_le
      rw [List.length_map, List.length_range'] at hle
      exact absurd h (Nat.not_lt.mpr hle)

/-! ### One file -/

lemma joinPath_eq {name : List Char} (h : IsFileName name) (dir : List Char) :
    joinPath dir name = dir ++ '/' :: name := by
  refine if_neg fun hhead => h.no_slash ?_
  exact List.mem_of_head? hhead

/-- The sizes of distinct files are part of what is on the disk. -/
lemma sum_le_of_subset {t : FileTable} {rows : List (List Char × List UInt8)}
    (hnodup : (rows.map Prod.fst).Nodup) (h : ∀ r ∈ rows, r ∈ t.rows) :
    (rows.map fun r => r.2.length).sum ≤ (t.rows.map fun r => r.2.length).sum := by
  obtain ⟨l, hperm, hsub⟩ := List.subperm_of_subset hnodup.of_map h
  rw [← (hperm.map fun r => r.2.length).sum_eq]
  exact (hsub.map fun r => r.2.length).sum_le_sum fun _ _ => Nat.zero_le _

section

variable {kind : String} {out_dir : List Char}

/-- What holds after each turn, with the entries that have been written. -/
structure Written (kind : String) (out_dir : List Char) (max_files max_total_bytes : ℕ)
    (st : Unpacked) (es : List (List Char × List UInt8)) : Prop where
  distinct : (st.files.map (·.filename)).Nodup
  few : st.files.length ≤ max_files
  total : st.total_bytes = (es.map fun e => e.2.length).sum
  small : st.total_bytes ≤ max_total_bytes
  whole : List.Forall₂ (Holds kind out_dir st.disk.files) st.files es

/-- Files whose paths are read as before hold what they held. -/
lemma forall₂_of_read {table table' : FileTable} {files : List ProducedFile}
    {es : List (List Char × List UInt8)} (h : List.Forall₂ (Holds kind out_dir table) files es)
    (hread : ∀ f ∈ files, f.path = out_dir ++ '/' :: f.filename →
      table'.read f.path = table.read f.path) :
    List.Forall₂ (Holds kind out_dir table') files es := by
  induction h with
  | nil => exact List.Forall₂.nil
  | cons hf _ ih =>
    obtain ⟨hfirst, hrest⟩ := List.forall_mem_cons.mp hread
    exact List.Forall₂.cons
      ⟨hf.name, hf.path, (hfirst hf.path).trans hf.content, hf.description⟩ (ih hrest)

lemma read_write {disk disk' : Disk} {path : List Char} {buf : List UInt8}
    (h : disk.write path buf = some disk') (path' : List Char) :
    disk'.files.read path' = if path = path' then some buf else disk.files.read path' := by
  rw [Disk.write] at h
  split_ifs at h with hfits
  obtain rfl := Option.some.inj h
  rw [FileTable.read, Table.lookup_upsert]
  by_cases hpath : path = path'
  · rw [if_pos hpath, if_pos hpath]
    cases disk.files.lookup path' <;> rfl
  · rw [if_neg hpath, if_neg hpath]
    rfl

/-- The rows of the files on the disk. -/
lemma exists_rows {table : FileTable} {files : List ProducedFile}
    {es : List (List Char × List UInt8)} (h : List.Forall₂ (Holds kind out_dir table) files es) :
    ∃ rows : List (List Char × List UInt8),
      rows.map Prod.fst = (files.map (·.filename)).map (fun name => out_dir ++ '/' :: name) ∧
        (rows.map fun r => r.2.length) = (es.map fun e => e.2.length) ∧
          ∀ r ∈ rows, r ∈ table.rows := by
  induction h with
  | nil => exact ⟨[], rfl, rfl, List.forall_mem_nil _⟩
  | cons hf _ ih =>
    obtain ⟨rows, hpaths, hsizes, hmem⟩ := ih
    obtain ⟨r, hlookup, hr⟩ := Option.map_eq_some_iff.mp hf.content
    obtain ⟨hrow, hpath⟩ := Table.lookup_eq_some_iff.mp hlookup
    refine ⟨r :: rows, ?_, ?_, List.forall_mem_cons.mpr ⟨hrow, hmem⟩⟩
    · rw [List.map_cons, hpaths, hpath, hf.path]
      rfl
    · rw [List.map_cons, hsizes, hr]
      rfl

/-- The entries that have been written fit on the disk. -/
lemma sum_lt_u64Size {disk : Disk} {files : List ProducedFile} {es : List (List Char × List UInt8)}
    (hdistinct : (files.map (·.filename)).Nodup)
    (hwhole : List.Forall₂ (Holds kind out_dir disk.files) files es) :
    (es.map fun e => e.2.length).sum < u64Size := by
  obtain ⟨rows, hpaths, hsizes, hmem⟩ := exists_rows hwhole
  have hnodup : (rows.map Prod.fst).Nodup := by
    rw [hpaths]
    exact hdistinct.map fun a b h => (List.cons.inj (List.append_cancel_left h)).2
  rw [← hsizes]
  exact (sum_le_of_subset hnodup hmem).trans_lt disk.fits

variable {osError : List Char → List UInt8 → Option String} {max_files max_total_bytes : ℕ}

lemma writeEntry_eq_ok {st st' : Unpacked} {name out_name : List Char} {buf : List UInt8}
    (h : writeEntry osError out_dir kind st name out_name buf = .ok st') :
    ∃ disk, st.disk.write (joinPath out_dir out_name) buf = some disk ∧
      st' = ⟨disk, st.files ++ [extractedFile out_dir kind name out_name],
        addU64 st.total_bytes buf.length⟩ := by
  rw [writeEntry] at h
  split at h
  · cases h
  · split at h
    · cases h
    · rename_i disk hdisk
      exact ⟨disk, hdisk, (Except.ok.inj h).symm⟩

/-- A turn that writes an entry under a new name. -/
lemma Written.writeEntry {st st' : Unpacked} {es : List (List Char × List UInt8)}
    {name safe_name : List Char} {buf : List UInt8}
    (h : Written kind out_dir max_files max_total_bytes st es) (hfew : st.files.length < max_files)
    (hmax : max_files ≤ 500) (hname : IsFileName safe_name)
    (hsmall : ¬max_total_bytes < addU64 st.total_bytes buf.length)
    (hwrite : writeEntry osError out_dir kind st name (deduplicateName st.files safe_name) buf =
      .ok st') :
    Written kind out_dir max_files max_total_bytes st' (es ++ [(name, buf)]) := by
  have hlength : (st.files.map (·.filename)).length < 9999 := by
    rw [List.length_map]
    exact (hfew.trans_le hmax).trans (by decide)
  have hnew := freshName_not_mem hlength safe_name
  have hout := isFileName_freshName hname (st.files.map (·.filename))
  rw [deduplicateName] at hwrite
  obtain ⟨disk, hdisk, rfl⟩ := writeEntry_eq_ok hwrite
  generalize freshName (st.files.map (·.filename)) safe_name = out_name at hnew hout hdisk
  rw [joinPath_eq hout] at hdisk
  have hdistinct : ((st.files ++ [extractedFile out_dir kind name out_name]).map
      (·.filename)).Nodup := by
    rw [List.map_append, List.nodup_append_comm]
    exact List.nodup_cons.mpr ⟨hnew, h.distinct⟩
  have hwhole : List.Forall₂ (Holds kind out_dir disk.files)
      (st.files ++ [extractedFile out_dir kind name out_name]) (es ++ [(name, buf)]) := by
    refine List.rel_append ?_ (List.Forall₂.cons ⟨hout, joinPath_eq hout out_dir, ?_, rfl⟩
      List.Forall₂.nil)
    · refine forall₂_of_read h.whole fun f hf hpath => ?_
      rw [read_write hdisk, if_neg]
      rw [hpath]
      intro heq
      exact hnew ((List.cons.inj (List.append_cancel_left heq)).2 ▸ List.mem_map_of_mem hf)
    · rw [read_write hdisk, extractedFile, joinPath_eq hout, if_pos rfl]
  have hsum : ((es ++ [(name, buf)]).map fun e => e.2.length).sum =
      st.total_bytes + buf.length := by
    rw [List.map_append, List.sum_append, ← h.total]
    simp
  have hlt := sum_lt_u64Size hdistinct hwhole
  rw [hsum] at hlt
  have htotal : addU64 st.total_bytes buf.length = st.total_bytes + buf.length :=
    Nat.mod_eq_of_lt hlt
  refine ⟨hdistinct, ?_, htotal.trans hsum.symm, Nat.not_lt.mp hsmall, hwhole⟩
  rw [List.length_append]
  exact hfew

end

/-! ### The loops -/

/-- A turn that comes to an end leaves the state or writes an entry that it has read. -/
def WritesWhatItReads {γ : Type} (osError : List Char → List UInt8 → Option String) (kind : String)
    (out_dir : List Char) (max_files max_total_bytes : ℕ)
    (read : γ → Option (List Char × List UInt8))
    (turn : Unpacked → γ → Except String (Turn Unpacked)) :
    Prop :=
  ∀ st a t, turn st a = .ok t → t.state = st ∨ ∃ name buf safe_name, read a = some (name, buf) ∧
    validateEntryName name = .ok safe_name ∧ st.files.length < max_files ∧
      ¬max_total_bytes < addU64 st.total_bytes buf.length ∧
        writeEntry osError out_dir kind st name (deduplicateName st.files safe_name) buf =
          .ok t.state

section

variable (osError : List Char → List UInt8 → Option String) (out_dir : List Char)
  (max_files max_total_bytes : ℕ)

/-- What both loops do with an entry; `unread` follows when its content cannot be read. -/
def entryTurn (kind : String) (unread : String → Except String (Turn Unpacked)) (st : Unpacked)
    (is_dir : Bool) (name : List Char) (size : ℕ) (content : Except String (List UInt8)) :
    Except String (Turn Unpacked) :=
  if is_dir then .ok (.next st)
  else
    match validateEntryName name with
    | .error _ => .ok (.next st)
    | .ok safe_name =>
      if max_total_bytes < addU64 st.total_bytes size then .ok (.stop st)
      else
        match content with
        | .error e => unread e
        | .ok buf =>
          if max_total_bytes < addU64 st.total_bytes buf.length then .ok (.stop st)
          else (writeEntry osError out_dir kind st name
            (deduplicateName st.files safe_name) buf).map .next

lemma entryTurn_spec {kind : String} {unread : String → Except String (Turn Unpacked)}
    {st : Unpacked} {is_dir : Bool} {name : List Char} {size : ℕ}
    {content : Except String (List UInt8)} {t : Turn Unpacked}
    (hunread : ∀ e t, unread e = .ok t → t.state = st)
    (h : entryTurn osError out_dir max_total_bytes kind unread st is_dir name size content =
      .ok t) :
    t.state = st ∨ ∃ buf safe_name, content = .ok buf ∧ validateEntryName name = .ok safe_name ∧
      ¬max_total_bytes < addU64 st.total_bytes buf.length ∧
        writeEntry osError out_dir kind st name (deduplicateName st.files safe_name) buf =
          .ok t.state := by
  rw [entryTurn] at h
  by_cases hdir : is_dir
  · rw [if_pos hdir] at h
    exact Or.inl (Except.ok.inj h ▸ rfl)
  rw [if_neg hdir] at h
  cases hname : validateEntryName name with
  | error e =>
    simp only [hname] at h
    exact Or.inl (Except.ok.inj h ▸ rfl)
  | ok safe_name =>
    simp only [hname] at h
    by_cases hsize : max_total_bytes < addU64 st.total_bytes size
    · rw [if_pos hsize] at h
      exact Or.inl (Except.ok.inj h ▸ rfl)
    rw [if_neg hsize] at h
    cases content with
    | error e => exact Or.inl (hunread e t h)
    | ok buf =>
      simp only at h
      by_cases hsmall : max_total_bytes < addU64 st.total_bytes buf.length
      · rw [if_pos hsmall] at h
        exact Or.inl (Except.ok.inj h ▸ rfl)
      rw [if_neg hsmall] at h
      obtain ⟨st', hwrite, rfl⟩ := map_eq_ok.mp h
      exact Or.inr ⟨buf, safe_name, rfl, rfl, hsmall, hwrite⟩

lemma writesWhatItReads_zipTurn : WritesWhatItReads osError "ZIP" out_dir max_files max_total_bytes
    (fun indexed => readZip indexed.1) (zipTurn osError out_dir max_files max_total_bytes) := by
  rintro st ⟨e, i⟩ t h
  rw [zipTurn.eq_def] at h
  by_cases hfew : max_files ≤ st.files.length
  · rw [if_pos hfew] at h
    exact Or.inl (Except.ok.inj h ▸ rfl)
  rw [if_neg hfew] at h
  cases e with
  | error e => cases h
  | ok entry =>
    -- a content that cannot be read ends the whole loop
    have hunread : ∀ (e : String) (t : Turn Unpacked),
        Except.error s!"zip read {String.ofList entry.name}: {e}" = .ok t → t.state = st := by
      intro e t h
      cases h
    rcases entryTurn_spec osError out_dir max_total_bytes hunread h with
      hsame | ⟨buf, safe_name, hcontent, hname, hsmall, hwrite⟩
    · exact Or.inl hsame
    · refine Or.inr ⟨entry.name, buf, safe_name, ?_, hname, Nat.not_le.mp hfew, hsmall, hwrite⟩
      simp [readZip, hcontent, Except.toOption]

lemma writesWhatItReads_tarTurn : WritesWhatItReads osError "tar" out_dir max_files max_total_bytes
    readTar (tarTurn osError out_dir max_files max_total_bytes) := by
  intro st e t h
  rw [tarTurn.eq_def] at h
  by_cases hfew : max_files ≤ st.files.length
  · rw [if_pos hfew] at h
    exact Or.inl (Except.ok.inj h ▸ rfl)
  rw [if_neg hfew] at h
  cases e with
  | error e => exact Or.inl (Except.ok.inj h ▸ rfl)
  | ok entry =>
    -- a content that cannot be read is skipped
    have hunread : ∀ (e : String) (t : Turn Unpacked),
        (Except.ok (.next st) : Except String (Turn Unpacked)) = .ok t → t.state = st :=
      fun e t h => Except.ok.inj h ▸ rfl
    rcases entryTurn_spec osError out_dir max_total_bytes hunread h with
      hsame | ⟨buf, safe_name, hcontent, hname, hsmall, hwrite⟩
    · exact Or.inl hsame
    · refine Or.inr ⟨_, buf, safe_name, ?_, hname, Nat.not_le.mp hfew, hsmall, hwrite⟩
      simp [readTar, hcontent, Except.toOption]

end

/-- After a whole loop the files of some of the entries are written. -/
lemma exists_written {γ : Type} {osError : List Char → List UInt8 → Option String} {kind : String}
    {out_dir : List Char} {max_files max_total_bytes : ℕ}
    {read : γ → Option (List Char × List UInt8)}
    {turn : Unpacked → γ → Except String (Turn Unpacked)}
    (hturn : WritesWhatItReads osError kind out_dir max_files max_total_bytes read turn)
    (hmax : max_files ≤ 500) {disk : Disk} {l : List γ} {st : Unpacked}
    (h : runTurns turn { disk } l = .ok st) :
    ∃ es, es.Sublist (l.filterMap read) ∧
      Written kind out_dir max_files max_total_bytes st es := by
  have hstart : Written kind out_dir max_files max_total_bytes { disk } [] :=
    ⟨List.nodup_nil, Nat.zero_le _, rfl, Nat.zero_le _, List.Forall₂.nil⟩
  obtain ⟨all, hall, es, hes, hwritten⟩ := exists_of_runTurns
    (P := fun st seen => ∃ es, es.Sublist (seen.filterMap read) ∧
      Written kind out_dir max_files max_total_bytes st es)
    (fun st seen a t ⟨es, hes, hwritten⟩ ht => by
      have hseen : (seen ++ [a]).filterMap read = seen.filterMap read ++ [a].filterMap read :=
        List.filterMap_append
      rcases hturn st a t ht with
        hstate | ⟨name, buf, safe_name, hread, hname, hfew, hsmall, hwrite⟩
      · rw [hstate, hseen]
        exact ⟨es, hes.trans (List.sublist_append_left _ _), hwritten⟩
      · refine ⟨es ++ [(name, buf)], ?_, hwritten.writeEntry hfew hmax
          (isFileName_validateEntryName hname) hsmall hwrite⟩
        rw [hseen, List.filterMap_cons_some hread]
        exact hes.append (List.Sublist.refl _))
    ⟨[], List.nil_sublist _, hstart⟩ h
  exact ⟨es, hes.trans (hall.sublist.filterMap read), hwritten⟩

/-- What is unpacked is contained. -/
theorem contained_unpack {osError : List Char → List UInt8 → Option String} {out_dir : List Char}
    {disk : Disk} {input : Json} {archive : Archive} {st : Unpacked}
    (h : unpack osError out_dir disk input archive = .ok st) :
    Contained out_dir input archive st := by
  have hmax : maxFiles input ≤ 500 := Nat.min_le_right _ _
  obtain ⟨es, hes, hwritten⟩ : ∃ es, es.Sublist archive.contents ∧
      Written archive.kind out_dir (maxFiles input) (maxTotalBytes input) st es := by
    cases archive with
    | zip entries =>
      obtain ⟨es, hes, hwritten⟩ := exists_written
        (writesWhatItReads_zipTurn osError out_dir (maxFiles input) (maxTotalBytes input)) hmax h
      refine ⟨es, ?_, hwritten⟩
      have hfst : entries.zipIdx.filterMap (fun indexed => readZip indexed.1) =
          entries.filterMap readZip := by
        have hcomp : (fun indexed : Except String ZipEntry × ℕ => readZip indexed.1) =
            readZip ∘ Prod.fst := rfl
        rw [hcomp, ← List.filterMap_map, List.zipIdx_map_fst]
      rw [hfst] at hes
      exact hes
    | tar entries =>
      exact exists_written
        (writesWhatItReads_tarTurn osError out_dir (maxFiles input) (maxTotalBytes input)) hmax h
  refine ⟨hwritten.distinct, hwritten.few, ?_, hwritten.small, es, hes, hwritten.whole⟩
  rw [hwritten.total]
  have hsizes : ∀ {files : List ProducedFile} {es : List (List Char × List UInt8)},
      List.Forall₂ (Holds archive.kind out_dir st.disk.files) files es →
        (es.map fun e => e.2.length) = files.map (fileSize st.disk.files) := by
    intro files es hwhole
    induction hwhole with
    | nil => rfl
    | cons hf _ ih => rw [List.map_cons, List.map_cons, ih, fileSize, hf.content, Option.getD_some]
  rw [hsizes hwritten.whole]

/-- Two files of one name in different directories. -/
def sameNames : Archive := .zip
  [.ok { is_dir := false, name := "a/x.txt".toList, size := 1, content := .ok [1] },
    .ok { is_dir := false, name := "b/x.txt".toList, size := 2, content := .ok [2, 3] }]

theorem contained_unpack_same_names : ∃ st,
    unpack (fun _ _ => none) "/tmp".toList ⟨Table.empty _, by decide⟩ (.obj []) sameNames = .ok st ∧
      st.files.map (·.filename) = ["x.txt".toList, "x_1.txt".toList] ∧
        Contained "/tmp".toList (.obj []) sameNames st := by
  obtain ⟨st, h, hnames⟩ : ∃ st, unpack (fun _ _ => none) "/tmp".toList ⟨Table.empty _, by decide⟩
      (.obj []) sameNames = .ok st ∧
        st.files.map (·.filename) = ["x.txt".toList, "x_1.txt".toList] := ⟨_, rfl, rfl⟩
  exact ⟨st, h, hnames, contained_unpack h⟩

end Arbeiterfarm.Tools.Unpack
