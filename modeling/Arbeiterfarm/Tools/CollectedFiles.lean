import Arbeiterfarm.Tools.ContainedFiles
import Arbeiterfarm.Tools.SevenZip

/-!
# When no collected file is lost

A new name is compared with the names that have been reported, not with the files that the walk has
not come to. So within the limits each file is kept if and only if no new name is the name of an
entry of the file's directory; otherwise that file or the one with the name has no bytes in the end.
-/

namespace Arbeiterfarm.Tools.Unpack

open Foundation

/-! ### Paths of a tree -/

/-- The characters before the first separator. -/
lemma takeWhile_ne_slash {name rest : List Char} (hname : '/' ∉ name)
    (hrest : rest = [] ∨ rest.head? = some '/') : (name ++ rest).takeWhile (· ≠ '/') = name := by
  have hall : ∀ a ∈ name, decide (a ≠ '/') = true := fun a ha =>
    decide_eq_true fun h => hname (h ▸ ha)
  rw [List.takeWhile_append_of_pos hall]
  cases rest with
  | nil => rw [List.takeWhile_nil, List.append_nil]
  | cons a rest =>
    obtain rfl := Option.some.inj (hrest.resolve_left (List.cons_ne_nil a rest))
    rw [List.takeWhile_cons_of_neg (by simp), List.append_nil]

lemma joinPath_inj {dir dir' name name' : List Char} (hname : IsFileName name)
    (hname' : IsFileName name') (h : joinPath dir name = joinPath dir' name') :
    dir = dir' ∧ name = name' := by
  rw [joinPath_eq hname, joinPath_eq hname'] at h
  have hlast : ∀ {dir name : List Char}, IsFileName name →
      ((dir ++ '/' :: name).reverse).takeWhile (· ≠ '/') = name.reverse := by
    intro dir name hname
    rw [List.reverse_append, List.reverse_cons, List.append_assoc]
    exact takeWhile_ne_slash (fun hmem => hname.no_slash (List.mem_reverse.mp hmem)) (Or.inr rfl)
  have heq : name.reverse = name'.reverse := by rw [← hlast hname, h, hlast hname']
  obtain rfl := List.reverse_injective heq
  exact ⟨List.append_cancel_right h, rfl⟩

/-- The path of an entry of the directory, or of something below it. -/
def Below (dir : List Char) (names : List (List Char)) (path : List Char) : Prop :=
  ∃ name ∈ names, ∃ rest, path = dir ++ '/' :: (name ++ rest) ∧ (rest = [] ∨ rest.head? = some '/')

namespace Listing

lemma isFileName_of_mem_names {l : Listing} (hvalid : l.Valid) :
    ∀ name ∈ l.names, IsFileName name := by
  induction l with
  | nil => exact List.forall_mem_nil _
  | file name bytes rest ih => exact List.forall_mem_cons.mpr ⟨hvalid.1, ih hvalid.2.2⟩
  | dir name entries rest _ ih => exact List.forall_mem_cons.mpr ⟨hvalid.1, ih hvalid.2.2.2⟩

lemma visit_spec {l : Listing} (hvalid : l.Valid) {dir : List Char} {v : Visit}
    (hv : v ∈ l.visits dir) : IsFileName v.name ∧ Below dir l.names v.path := by
  induction l generalizing dir with
  | nil => exact absurd hv List.not_mem_nil
  | file name bytes rest ih =>
    rcases List.mem_cons.mp hv with rfl | hv
    · refine ⟨hvalid.1, name, List.mem_cons_self, [], ?_, Or.inl rfl⟩
      rw [Visit.path, joinPath_eq hvalid.1, List.append_nil]
    · obtain ⟨hname, n, hn, hrest⟩ := ih hvalid.2.2 hv
      exact ⟨hname, n, List.mem_cons_of_mem name hn, hrest⟩
  | dir name entries rest ihe ih =>
    rcases List.mem_append.mp hv with hv | hv
    · obtain ⟨hname, n, hn, below, hpath, -⟩ := ihe hvalid.2.2.1 hv
      refine ⟨hname, name, List.mem_cons_self, '/' :: (n ++ below), ?_, Or.inr rfl⟩
      rw [hpath, joinPath_eq hvalid.1, List.append_assoc, List.cons_append]
    · obtain ⟨hname, n, hn, hrest⟩ := ih hvalid.2.2.2 hv
      exact ⟨hname, n, List.mem_cons_of_mem name hn, hrest⟩

/-- What is below one entry is not below another. -/
lemma ne_of_below {dir path path' : List Char} {name : List Char} {names : List (List Char)}
    (hname : IsFileName name) (hnames : ∀ n ∈ names, IsFileName n) (hnew : name ∉ names)
    (h : Below dir [name] path) (h' : Below dir names path') : path ≠ path' := by
  rintro rfl
  obtain ⟨n, hn, rest, hpath, hrest⟩ := h
  obtain rfl := List.mem_singleton.mp hn
  obtain ⟨m, hm, rest', hpath', hrest'⟩ := h'
  rw [hpath] at hpath'
  have htail := (List.cons.inj (List.append_cancel_left hpath')).2
  rw [← takeWhile_ne_slash hname.no_slash hrest, htail,
    takeWhile_ne_slash (hnames m hm).no_slash hrest'] at hnew
  exact hnew hm

/-- The walk comes to every path once. -/
lemma nodup_paths {l : Listing} (hvalid : l.Valid) (dir : List Char) :
    ((l.visits dir).map Visit.path).Nodup := by
  induction l generalizing dir with
  | nil => exact List.nodup_nil
  | file name bytes rest ih =>
    rw [visits, List.map_cons, List.nodup_cons]
    refine ⟨fun hmem => ?_, ih hvalid.2.2 dir⟩
    obtain ⟨v, hv, hpath⟩ := List.mem_map.mp hmem
    refine ne_of_below hvalid.1 (isFileName_of_mem_names hvalid.2.2) hvalid.2.1 ?_
      (visit_spec hvalid.2.2 hv).2 hpath.symm
    refine ⟨name, List.mem_singleton_self name, [], ?_, Or.inl rfl⟩
    rw [Visit.path, joinPath_eq hvalid.1, List.append_nil]
  | dir name entries rest ihe ih =>
    rw [visits, List.map_append, List.nodup_append]
    refine ⟨ihe hvalid.2.2.1 _, ih hvalid.2.2.2 dir, ?_⟩
    intro path hpath path' hpath'
    obtain ⟨v, hv, rfl⟩ := List.mem_map.mp hpath
    obtain ⟨w, hw, rfl⟩ := List.mem_map.mp hpath'
    refine ne_of_below hvalid.1 (isFileName_of_mem_names hvalid.2.2.2) hvalid.2.1 ?_
      (visit_spec hvalid.2.2.2 hw).2
    obtain ⟨-, n, hn, below, hpath, -⟩ := visit_spec hvalid.2.2.1 hv
    refine ⟨name, List.mem_singleton_self name, '/' :: (n ++ below), ?_, Or.inr rfl⟩
    rw [hpath, joinPath_eq hvalid.1, List.append_assoc, List.cons_append]

end Listing

/-! ### The walk as one list -/

section

variable (base : List Char) (dirs : List (List Char))

/-- What the walk does when it comes to a file. -/
def process (st : Collected) (v : Visit) : Collected :=
  match st.table.read v.path with
  | none => st
  | some buf => collectFile base dirs v.dir v.name buf.length st

lemma process_of_read {st : Collected} {v : Visit} {buf : List UInt8}
    (h : st.table.read v.path = some buf) :
    process base dirs st v = collectFile base dirs v.dir v.name buf.length st := by
  rw [process, h]

variable (max_files max_total_bytes : ℕ)

/-- The walk does not stop at the file. -/
def Ready (st : Collected) (v : Visit) : Prop :=
  ¬limitReached max_files max_total_bytes st ∧
    ∀ buf, st.table.read v.path = some buf → ¬max_total_bytes < addU64 st.total_bytes buf.length

/-- Some of the files are processed. -/
lemma exists_sublist_collect (l : Listing) (dir : List Char) (st : Collected) :
    ∃ vs : List Visit, vs.Sublist (l.visits dir) ∧
      collectFilesRecursive base dirs max_files max_total_bytes dir l st =
        vs.foldl (process base dirs) st := by
  induction l generalizing dir st with
  | nil => exact ⟨[], List.nil_sublist _, rfl⟩
  | file name bytes rest ih =>
    rw [collectFilesRecursive]
    by_cases hlimit : limitReached max_files max_total_bytes st
    · rw [if_pos hlimit]
      exact ⟨[], List.nil_sublist _, rfl⟩
    rw [if_neg hlimit]
    cases hread : st.table.read (joinPath dir name) with
    | none =>
      obtain ⟨vs, hvs, heq⟩ := ih dir st
      exact ⟨vs, hvs.cons _, heq⟩
    | some buf =>
      simp only
      by_cases hsize : max_total_bytes < addU64 st.total_bytes buf.length
      · rw [if_pos hsize]
        exact ⟨[], List.nil_sublist _, rfl⟩
      rw [if_neg hsize]
      obtain ⟨vs, hvs, heq⟩ := ih dir (collectFile base dirs dir name buf.length st)
      refine ⟨⟨dir, name, bytes⟩ :: vs, hvs.cons_cons _, ?_⟩
      rw [heq, List.foldl_cons, process_of_read base dirs hread]
  | dir name entries rest ihe ih =>
    rw [collectFilesRecursive]
    by_cases hlimit : limitReached max_files max_total_bytes st
    · rw [if_pos hlimit]
      exact ⟨[], List.nil_sublist _, rfl⟩
    rw [if_neg hlimit]
    obtain ⟨vs, hvs, heq⟩ := ihe (joinPath dir name) st
    obtain ⟨ws, hws, heq'⟩ := ih dir (collectFilesRecursive base dirs max_files max_total_bytes
      (joinPath dir name) entries st)
    refine ⟨vs ++ ws, hvs.append hws, ?_⟩
    rw [heq', heq, List.foldl_append]

/-- If the walk never stops, all files are processed. -/
lemma collect_eq_foldl {l : Listing} {dir : List Char} {st : Collected}
    (h : ∀ pre v post, l.visits dir = pre ++ v :: post →
      Ready max_files max_total_bytes (pre.foldl (process base dirs) st) v) :
    collectFilesRecursive base dirs max_files max_total_bytes dir l st =
      (l.visits dir).foldl (process base dirs) st := by
  induction l generalizing dir st with
  | nil => rfl
  | file name bytes rest ih =>
    have hready := h [] ⟨dir, name, bytes⟩ (rest.visits dir) rfl
    rw [List.foldl_nil] at hready
    obtain ⟨hlimit, hsize⟩ := hready
    have hrest := fun (pre : List Visit) (v : Visit) (post : List Visit)
      (hpost : rest.visits dir = pre ++ v :: post) =>
        h (⟨dir, name, bytes⟩ :: pre) v post (congrArg (List.cons _) hpost)
    rw [collectFilesRecursive, if_neg hlimit, Listing.visits, List.foldl_cons]
    cases hread : st.table.read (joinPath dir name) with
    | none =>
      have hprocess : process base dirs st ⟨dir, name, bytes⟩ = st := by
        rw [process, Visit.path, hread]
      simp only [List.foldl_cons, hprocess] at hrest ⊢
      exact ih hrest
    | some buf =>
      have hprocess := process_of_read base dirs (v := ⟨dir, name, bytes⟩) hread
      simp only [List.foldl_cons, hprocess] at hrest ⊢
      rw [if_neg (hsize buf hread)]
      exact ih hrest
  | dir name entries rest ihe ih =>
    rw [collectFilesRecursive, Listing.visits]
    by_cases hlimit : limitReached max_files max_total_bytes st
    · rw [if_pos hlimit]
      cases hvisits : entries.visits (joinPath dir name) ++ rest.visits dir with
      | nil => rfl
      | cons v post => exact absurd hlimit (h [] v post hvisits).1
    · rw [if_neg hlimit, List.foldl_append, ihe fun pre v post hpost => h pre v
        (post ++ rest.visits dir) (by rw [Listing.visits, hpost, List.append_assoc]; rfl)]
      refine ih fun pre v post hpost => ?_
      have hready := h (entries.visits (joinPath dir name) ++ pre) v post
        (by rw [Listing.visits, hpost, List.append_assoc])
      rwa [List.foldl_append] at hready

end

/-! ### One file -/

/-- The names that have been reported. -/
def Collected.taken (st : Collected) : List (List Char) := st.files.map (·.filename)

lemma read_rename {t : FileTable} {dirs : List (List Char)} {path new_path : List Char}
    {buf : List UInt8} (hread : t.read path = some buf) (path' : List Char) :
    (t.rename dirs path new_path).read path' =
      if new_path ∈ dirs then t.read path'
      else if new_path = path' then some buf
      else if path = path' then none
      else t.read path' := by
  rw [FileTable.rename, hread]
  simp only
  by_cases hdir : new_path ∈ dirs
  · rw [if_pos (List.contains_iff_mem.mpr hdir), if_pos hdir]
  rw [if_neg fun h => hdir (List.contains_iff_mem.mp h), if_neg hdir, FileTable.read,
    Table.lookup_upsert, Table.lookup_delete]
  by_cases hnew : new_path = path'
  · rw [if_pos hnew, if_pos hnew]
    cases (t.lookup path').filter fun r => !decide (r.1 = path) <;> rfl
  rw [if_neg hnew, if_neg hnew]
  by_cases hpath : path = path'
  · rw [if_pos hpath]
    cases hlookup : t.lookup path' with
    | none => rfl
    | some r =>
      rw [Option.filter_some_neg]
      · rfl
      · simp [Table.key_of_lookup hlookup, hpath]
  · rw [if_neg hpath, FileTable.read]
    cases hlookup : t.lookup path' with
    | none => rfl
    | some r =>
      rw [Option.filter_some_pos]
      simp [Table.key_of_lookup hlookup, Ne.symm hpath]

section

variable (base : List Char) (dirs : List (List Char))

/-- The file is reported under a name that is free, at its new path. -/
lemma collectFile_eq (dir name : List Char) (size : ℕ) (st : Collected) :
    collectFile base dirs dir name size st =
      { table := if freshName st.taken name = name then st.table
          else st.table.rename dirs (joinPath dir name) (joinPath dir (freshName st.taken name))
        files := st.files ++ [{
          filename := freshName st.taken name, path := joinPath dir (freshName st.taken name)
          description := describe7z base (joinPath dir name) }]
        total_bytes := addU64 st.total_bytes size } := by
  have hname : deduplicateName st.files name = freshName st.taken name := rfl
  rw [collectFile]
  simp only [hname]
  by_cases hsame : freshName st.taken name = name
  · rw [if_neg (not_not.mpr hsame), if_pos hsame, hsame]
  · rw [if_pos hsame, if_neg hsame]

variable {base dirs} {st : Collected} {v : Visit}

/-- A file that is there is reported with its new path. -/
lemma exists_mem_files_process {buf : List UInt8} (h : st.table.read v.path = some buf) :
    ∃ f ∈ (process base dirs st v).files,
      f.path = joinPath v.dir (freshName st.taken v.name) := by
  rw [process_of_read base dirs h, collectFile_eq]
  exact ⟨_, List.mem_append_right _ (List.mem_singleton_self _), rfl⟩

lemma read_process_of_ne {path : List Char} (hpath : v.path ≠ path)
    (hnew : joinPath v.dir (freshName st.taken v.name) ≠ path) :
    (process base dirs st v).table.read path = st.table.read path := by
  rw [process]
  cases hread : st.table.read v.path with
  | none => rfl
  | some buf =>
    simp only [collectFile_eq]
    by_cases hsame : freshName st.taken v.name = v.name
    · rw [if_pos hsame]
    · rw [if_neg hsame, ← Visit.path, read_rename hread, if_neg hnew, if_neg hpath, ite_self]

/-- Directories stay. -/
lemma read_dir_process {d : List Char} (hd : d ∈ dirs) (h : st.table.read d = none) :
    (process base dirs st v).table.read d = none := by
  rw [process]
  cases hread : st.table.read v.path with
  | none => exact h
  | some buf =>
    simp only [collectFile_eq]
    by_cases hsame : freshName st.taken v.name = v.name
    · rw [if_pos hsame]
      exact h
    · rw [if_neg hsame, ← Visit.path, read_rename hread]
      by_cases hdir : joinPath v.dir (freshName st.taken v.name) ∈ dirs
      · rw [if_pos hdir]
        exact h
      · have hne : joinPath v.dir (freshName st.taken v.name) ≠ d := fun heq => hdir (heq ▸ hd)
        rw [if_neg hdir, if_neg hne]
        split_ifs
        · rfl
        · exact h

lemma read_dir_foldl {vs : List Visit} {d : List Char} (hd : d ∈ dirs)
    (h : st.table.read d = none) : (vs.foldl (process base dirs) st).table.read d = none := by
  induction vs generalizing st with
  | nil => exact h
  | cons v vs ih => exact ih (read_dir_process hd h)

/-- The reported files and names stay. -/
lemma files_process_sublist (st : Collected) (v : Visit) :
    st.files.Sublist (process base dirs st v).files := by
  rw [process]
  cases st.table.read v.path with
  | none => exact List.Sublist.refl _
  | some buf =>
    simp only [collectFile_eq]
    exact List.sublist_append_left _ _

lemma files_foldl_sublist (st : Collected) (vs : List Visit) :
    st.files.Sublist (vs.foldl (process base dirs) st).files := by
  induction vs generalizing st with
  | nil => exact List.Sublist.refl _
  | cons v vs ih => exact (files_process_sublist st v).trans (ih _)

lemma length_process_le (st : Collected) (v : Visit) :
    (process base dirs st v).files.length ≤ st.files.length + 1 := by
  rw [process]
  cases st.table.read v.path with
  | none => exact Nat.le_succ _
  | some buf =>
    simp only [collectFile_eq, List.length_append, List.length_singleton]
    exact le_rfl

lemma length_foldl_le (st : Collected) (vs : List Visit) :
    (vs.foldl (process base dirs) st).files.length ≤ st.files.length + vs.length := by
  induction vs generalizing st with
  | nil => exact le_rfl
  | cons v vs ih =>
    refine (ih _).trans ?_
    have h : (process base dirs st v).files.length ≤ st.files.length + 1 := length_process_le st v
    rw [List.length_cons]
    omega

/-- A path whose name is taken is read as before, while no file with this path comes. -/
lemma read_foldl_of_taken {vs : List Visit} {dir name : List Char} (hname : IsFileName name)
    (hvs : ∀ v ∈ vs, IsFileName v.name ∧ v.path ≠ joinPath dir name) (htaken : name ∈ st.taken)
    (hlength : st.taken.length + vs.length < 9999) :
    (vs.foldl (process base dirs) st).table.read (joinPath dir name) =
      st.table.read (joinPath dir name) := by
  induction vs generalizing st with
  | nil => rfl
  | cons v vs ih =>
    obtain ⟨⟨hv, hpath⟩, hrest⟩ := List.forall_mem_cons.mp hvs
    rw [List.length_cons] at hlength
    have hstep : (process base dirs st v).taken.length ≤ st.taken.length + 1 := by
      rw [Collected.taken, Collected.taken, List.length_map, List.length_map]
      exact length_process_le st v
    rw [List.foldl_cons, ih hrest
      (((files_process_sublist st v).map _).subset htaken) (by omega)]
    refine read_process_of_ne hpath fun heq => ?_
    have hfresh := freshName_not_mem (by omega : st.taken.length < 9999) v.name
    rw [(joinPath_inj (isFileName_freshName hv st.taken) hname heq).2] at hfresh
    exact hfresh htaken

end

/-! ### What holds before the first collision -/

namespace ExtractedTree

variable {tree : ExtractedTree}

lemma isFileName_of_mem_visits {v : Visit} (hv : v ∈ tree.visits) : IsFileName v.name :=
  (Listing.visit_spec tree.valid hv).1

lemma path_not_mem_dirs {v : Visit} (hv : v ∈ tree.visits) : v.path ∉ tree.dirs := fun hdir => by
  have hread := tree.stored v hv
  rw [tree.dirs_read v.path hdir] at hread
  cases hread

/-- The files `done` are reported and kept, and those of `rest` are where they were. -/
structure Intact (tree : ExtractedTree) (st : Collected) (done rest : List Visit) : Prop where
  distinct : st.taken.Nodup
  kept : List.Forall₂ (fun f v => tree.Kept st f v ∧ f.path = joinPath v.dir f.filename ∧
    IsFileName f.filename ∧ v.name ∈ st.taken) st.files done
  waiting : ∀ w ∈ rest, st.table.read w.path = some w.bytes ∧ ∀ f ∈ st.files, f.path ≠ w.path
  total : st.total_bytes = (done.map fun v => v.bytes.length).sum

lemma Intact.start : tree.Intact { table := tree.table } [] tree.visits where
  distinct := List.nodup_nil
  kept := List.Forall₂.nil
  waiting := fun w hw => ⟨tree.stored w hw, List.forall_mem_nil _⟩
  total := rfl

variable {input : Json} (hwithin : tree.Within input)

lemma maxTotalBytes_lt (input : Json) : maxTotalBytes input < u64Size := by
  rw [maxTotalBytes]
  cases h : input.u64Field "max_total_bytes" with
  | none => decide
  | some n =>
    rw [Option.getD_some]
    obtain ⟨v, -, hv⟩ := Option.bind_eq_some_iff.mp h
    rw [Json.asU64.eq_def] at hv
    split at hv
    · split_ifs at hv with hrange
      obtain rfl := Option.some.inj hv
      rw [Int.toNat_lt hrange.1]
      exact hrange.2
    · cases hv

include hwithin in
/-- The sizes do not wrap around. -/
lemma Intact.addU64_eq {st : Collected} {done rest : List Visit} {v : Visit}
    (h : tree.Intact st done (v :: rest)) (hvisits : tree.visits = done ++ v :: rest) :
    addU64 st.total_bytes v.bytes.length = st.total_bytes + v.bytes.length ∧
      st.total_bytes + v.bytes.length ≤ maxTotalBytes input := by
  have hsmall := hwithin.small
  rw [hvisits, List.map_append, List.sum_append, List.map_cons, List.sum_cons, ← h.total] at hsmall
  have hle : st.total_bytes + v.bytes.length ≤ maxTotalBytes input := by omega
  exact ⟨Nat.mod_eq_of_lt (hle.trans_lt (maxTotalBytes_lt input)), hle⟩

lemma Intact.length_eq {st : Collected} {done rest : List Visit} (h : tree.Intact st done rest) :
    st.taken.length = done.length := by
  rw [Collected.taken, List.length_map]
  exact h.kept.length_eq

lemma freshName_of_not_mem {taken : List (List Char)} {name : List Char} (h : name ∉ taken) :
    freshName taken name = name := if_pos h

include hwithin in
lemma Intact.freshName_not_mem {st : Collected} {done rest : List Visit} {v : Visit}
    (h : tree.Intact st done (v :: rest)) (hvisits : tree.visits = done ++ v :: rest)
    (name : List Char) : freshName st.taken name ∉ st.taken := by
  refine Unpack.freshName_not_mem ?_ name
  have hfew := hwithin.few.trans (Nat.min_le_right _ 500)
  rw [hvisits, List.length_append, List.length_cons] at hfew
  rw [h.length_eq]
  omega

include hwithin in
/-- A file that keeps its name, or gets one that no entry of its directory has. -/
lemma Intact.process {st : Collected} {done rest : List Visit} {v : Visit}
    (h : tree.Intact st done (v :: rest)) (hvisits : tree.visits = done ++ v :: rest)
    (hfree : freshName st.taken v.name = v.name ∨
      joinPath v.dir (freshName st.taken v.name) ∉ tree.paths) :
    tree.Intact (process tree.base tree.dirs st v) (done ++ [v]) rest := by
  have hv : v ∈ tree.visits := hvisits ▸ List.mem_append_right done List.mem_cons_self
  have hfresh := h.freshName_not_mem hwithin hvisits v.name
  have hout := isFileName_freshName (isFileName_of_mem_visits hv) st.taken
  obtain ⟨hread, hpaths⟩ := h.waiting v List.mem_cons_self
  have hprocess := process_of_read tree.base tree.dirs hread
  rw [collectFile_eq] at hprocess
  have hfiles := congrArg Collected.files hprocess
  -- the file is at its new path
  have hnew : (Unpack.process tree.base tree.dirs st v).table.read
      (joinPath v.dir (freshName st.taken v.name)) = some v.bytes := by
    rw [hprocess]
    by_cases hname : freshName st.taken v.name = v.name
    · rw [if_pos hname, hname]
      exact hread
    · have hdir : joinPath v.dir (freshName st.taken v.name) ∉ tree.dirs := fun hmem =>
        hfree.resolve_left hname (List.mem_append_right _ hmem)
      rw [if_neg hname, ← Visit.path, read_rename hread, if_neg hdir, if_pos rfl]
  have hrest : ∀ w ∈ rest, v.path ≠ w.path ∧
      joinPath v.dir (freshName st.taken v.name) ≠ w.path := by
    intro w hw
    have hwv : w ∈ tree.visits :=
      hvisits ▸ List.mem_append_right done (List.mem_cons_of_mem v hw)
    have hnodup : (tree.visits.map Visit.path).Nodup := Listing.nodup_paths tree.valid tree.base
    rw [hvisits, List.map_append, List.nodup_append, List.map_cons, List.nodup_cons] at hnodup
    have hne : v.path ≠ w.path := fun heq => hnodup.2.1.1 (heq ▸ List.mem_map_of_mem hw)
    refine ⟨hne, ?_⟩
    rcases hfree with hname | hpath
    · rwa [hname, ← Visit.path]
    · exact fun heq => hpath (heq ▸ List.mem_append_left _ (List.mem_map_of_mem hwv))
  -- the files before are at theirs
  have hbefore : ∀ f ∈ st.files, f.path ≠ v.path → IsFileName f.filename → ∀ dir,
      f.path = joinPath dir f.filename →
        (Unpack.process tree.base tree.dirs st v).table.read f.path = st.table.read f.path := by
    intro f hf hpath hname dir heq
    refine read_process_of_ne hpath.symm fun hnew => ?_
    rw [heq] at hnew
    rw [(joinPath_inj hout hname hnew).2] at hfresh
    exact hfresh (List.mem_map_of_mem hf)
  have htaken : (Unpack.process tree.base tree.dirs st v).taken =
      st.taken ++ [freshName st.taken v.name] := by
    rw [Collected.taken, hfiles, List.map_append]
    rfl
  have hkept : ∀ {files : List ProducedFile} {vs : List Visit}, files ⊆ st.files →
      List.Forall₂ (fun f v => tree.Kept st f v ∧ f.path = joinPath v.dir f.filename ∧
        IsFileName f.filename ∧ v.name ∈ st.taken) files vs →
      List.Forall₂ (fun f u => tree.Kept (Unpack.process tree.base tree.dirs st v) f u ∧
        f.path = joinPath u.dir f.filename ∧ IsFileName f.filename ∧
          u.name ∈ (Unpack.process tree.base tree.dirs st v).taken) files vs := by
    intro files vs hsub hfiles
    induction hfiles with
    | nil => exact List.Forall₂.nil
    | @cons f u files vs hf _ ih =>
      obtain ⟨⟨hdescription, hcontent⟩, hpath, hname, hmem⟩ := hf
      obtain ⟨hfirst, hsub⟩ := List.cons_subset.mp hsub
      refine List.Forall₂.cons ⟨⟨hdescription, ?_⟩, hpath, hname, ?_⟩ (ih hsub)
      · rw [hbefore f hfirst (hpaths f hfirst) hname u.dir hpath, hcontent]
      · exact htaken ▸ List.mem_append_left _ hmem
  refine ⟨?_, ?_, fun w hw => ⟨?_, fun f hf => ?_⟩, ?_⟩
  · rw [htaken, List.nodup_append_comm]
    exact List.nodup_cons.mpr ⟨hfresh, h.distinct⟩
  · rw [hfiles]
    refine List.rel_append (hkept (List.Subset.refl _) h.kept)
      (List.Forall₂.cons ⟨⟨rfl, hnew⟩, rfl, hout, ?_⟩ List.Forall₂.nil)
    rw [htaken, List.mem_append, List.mem_singleton]
    by_cases hname : v.name ∈ st.taken
    · exact Or.inl hname
    · exact Or.inr (freshName_of_not_mem hname).symm
  · rw [read_process_of_ne (hrest w hw).1 (hrest w hw).2]
    exact (h.waiting w (List.mem_cons_of_mem v hw)).1
  · rw [hfiles] at hf
    rcases List.mem_append.mp hf with hf | hf
    · exact (h.waiting w (List.mem_cons_of_mem v hw)).2 f hf
    · rw [List.mem_singleton.mp hf]
      exact (hrest w hw).2
  · rw [hprocess, List.map_append, List.sum_append, ← h.total]
    exact (h.addU64_eq hwithin hvisits).1.trans (by simp)

lemma Intact.taken_process {st : Collected} {done rest : List Visit} {v : Visit}
    (h : tree.Intact st done (v :: rest)) :
    (Unpack.process tree.base tree.dirs st v).taken =
      st.taken ++ [freshName st.taken v.name] := by
  rw [process_of_read _ _ (h.waiting v List.mem_cons_self).1, collectFile_eq, Collected.taken,
    List.map_append]
  rfl

include hwithin in
/-- Without collisions every stage of the walk is intact. -/
lemma Intact.foldl {st : Collected} {done pre post : List Visit}
    (h : tree.Intact st done (pre ++ post)) (hvisits : tree.visits = done ++ (pre ++ post))
    (hfree : NoCollision tree.paths st.taken (pre ++ post)) :
    tree.Intact (pre.foldl (Unpack.process tree.base tree.dirs) st) (done ++ pre) post := by
  induction pre generalizing st done with
  | nil =>
    rw [List.append_nil]
    exact h
  | cons v pre ih =>
    have hstep := h.process hwithin hvisits hfree.1
    rw [List.foldl_cons, List.append_cons]
    refine ih hstep (by rw [hvisits, List.cons_append, List.append_cons]) ?_
    rw [h.taken_process]
    exact hfree.2

include hwithin in
/-- Everything is intact until the first collision. -/
lemma Intact.exists_collision {st : Collected} {done rest : List Visit}
    (h : tree.Intact st done rest) (hvisits : tree.visits = done ++ rest)
    (hcollision : ¬NoCollision tree.paths st.taken rest) :
    ∃ pre v post, rest = pre ++ v :: post ∧
      ∃ st', st' = pre.foldl (Unpack.process tree.base tree.dirs) st ∧
        tree.Intact st' (done ++ pre) (v :: post) ∧ freshName st'.taken v.name ≠ v.name ∧
          joinPath v.dir (freshName st'.taken v.name) ∈ tree.paths := by
  induction rest generalizing st done with
  | nil => exact absurd trivial hcollision
  | cons v rest ih =>
    by_cases hfree : freshName st.taken v.name = v.name ∨
        joinPath v.dir (freshName st.taken v.name) ∉ tree.paths
    · have hrest :
          ¬NoCollision tree.paths (Unpack.process tree.base tree.dirs st v).taken rest := by
        rw [h.taken_process]
        exact fun hrest => hcollision ⟨hfree, hrest⟩
      rw [List.append_cons] at hvisits
      obtain ⟨pre, w, post, rfl, st', hst', hintact, hname, hpath⟩ :=
        ih (h.process hwithin (by rw [hvisits, List.append_assoc]; rfl) hfree) hvisits hrest
      exact ⟨v :: pre, w, post, rfl, st', hst', by rwa [List.append_cons], hname, hpath⟩
    · rw [not_or, not_not] at hfree
      exact ⟨[], v, rest, rfl, st, rfl, by rwa [List.append_nil], hfree⟩

include hwithin in
/-- An intact stage is within the limits. -/
lemma Intact.ready {st : Collected} {done rest : List Visit} {v : Visit}
    (h : tree.Intact st done (v :: rest)) (hvisits : tree.visits = done ++ v :: rest) :
    Ready (maxFiles input) (maxTotalBytes input) st v := by
  obtain ⟨hadd, hle⟩ := h.addU64_eq hwithin hvisits
  have hfew := hwithin.few
  have hlength := h.length_eq
  rw [hvisits, List.length_append, List.length_cons] at hfew
  rw [Collected.taken, List.length_map] at hlength
  refine ⟨?_, fun buf hbuf => ?_⟩
  · rintro (hmax | hmax)
    · omega
    · omega
  · rw [(h.waiting v List.mem_cons_self).1] at hbuf
    obtain rfl := Option.some.inj hbuf
    rw [hadd]
    exact Nat.not_lt.mpr hle

/-! ### After a collision -/

/-- The names of the files that are done have been reported. -/
lemma Intact.name_mem_taken {st : Collected} {done rest : List Visit}
    (h : tree.Intact st done rest) {w : Visit} (hw : w ∈ done) : w.name ∈ st.taken := by
  have hall : ∀ {files : List ProducedFile} {vs : List Visit},
      List.Forall₂ (fun f v => tree.Kept st f v ∧ f.path = joinPath v.dir f.filename ∧
        IsFileName f.filename ∧ v.name ∈ st.taken) files vs → ∀ w ∈ vs, w.name ∈ st.taken := by
    intro files vs hkept
    induction hkept with
    | nil => exact List.forall_mem_nil _
    | cons hf _ ih => exact List.forall_mem_cons.mpr ⟨hf.2.2.2, ih⟩
  exact hall h.kept w hw

/-- A file that comes when its name is taken leaves its path, and nothing is put there again. -/
lemma exists_lost_of_taken {st : Collected} {w : Visit} {post : List Visit}
    (hvalid : ∀ u ∈ w :: post, IsFileName u.name) (hnodup : ((w :: post).map Visit.path).Nodup)
    (htaken : w.name ∈ st.taken) (hlength : st.taken.length + (w :: post).length < 9999)
    (hread : (st.table.read w.path).isSome) (hdirs : ∀ d ∈ tree.dirs, st.table.read d = none) :
    ∃ st', st' = (w :: post).foldl (Unpack.process tree.base tree.dirs) st ∧
      (st'.table.read w.path = none ∨ ∃ f ∈ st'.files, st'.table.read f.path = none) := by
  obtain ⟨buf, hbuf⟩ := Option.isSome_iff_exists.mp hread
  obtain ⟨hw, hpost⟩ := List.forall_mem_cons.mp hvalid
  rw [List.map_cons, List.nodup_cons] at hnodup
  rw [List.length_cons] at hlength
  have hfresh := Unpack.freshName_not_mem (by omega : st.taken.length < 9999) w.name
  have hout := isFileName_freshName hw st.taken
  have hne : freshName st.taken w.name ≠ w.name := fun heq => by
    rw [heq] at hfresh
    exact hfresh htaken
  have hprocess := process_of_read tree.base tree.dirs hbuf
  rw [collectFile_eq, if_neg hne, ← Visit.path] at hprocess
  refine ⟨_, rfl, ?_⟩
  rw [List.foldl_cons]
  by_cases hnew : joinPath w.dir (freshName st.taken w.name) ∈ tree.dirs
  · -- a directory is in the way
    obtain ⟨f, hf, hpath⟩ : ∃ f ∈ (Unpack.process tree.base tree.dirs st w).files,
        f.path = joinPath w.dir (freshName st.taken w.name) := exists_mem_files_process hbuf
    refine Or.inr ⟨f, (files_foldl_sublist _ post).subset hf, ?_⟩
    rw [hpath]
    exact read_dir_foldl hnew (read_dir_process hnew (hdirs _ hnew))
  · refine Or.inl ?_
    have hgone : (Unpack.process tree.base tree.dirs st w).table.read w.path = none := by
      have hpath : joinPath w.dir (freshName st.taken w.name) ≠ w.path := fun heq =>
        hne (joinPath_inj hout hw heq).2
      rw [hprocess, read_rename hbuf, if_neg hnew, if_neg hpath, if_pos rfl]
    have hlength' : (Unpack.process tree.base tree.dirs st w).files.length ≤
        st.files.length + 1 := length_process_le st w
    rw [← hgone]
    refine read_foldl_of_taken hw (fun u hu => ⟨hpost u hu, fun heq => ?_⟩)
      (((files_process_sublist st w).map _).subset htaken) ?_
    · exact hnodup.1 (List.mem_map.mpr ⟨u, hu, heq⟩)
    · rw [Collected.taken, List.length_map] at hlength ⊢
      omega

include hwithin in
/-- A file whose new path is that of an entry has no bytes in the end, or the entry has none. -/
lemma Intact.exists_lost {st : Collected} {done rest : List Visit} {v : Visit}
    (h : tree.Intact st done (v :: rest)) (hvisits : tree.visits = done ++ v :: rest)
    (hname : freshName st.taken v.name ≠ v.name)
    (hpath : joinPath v.dir (freshName st.taken v.name) ∈ tree.paths)
    (hdirs : ∀ d ∈ tree.dirs, st.table.read d = none) :
    ∃ st', st' = (v :: rest).foldl (Unpack.process tree.base tree.dirs) st ∧
      ∃ f ∈ st'.files, st'.table.read f.path = none := by
  have hmem : ∀ u ∈ v :: rest, u ∈ tree.visits := fun u hu =>
    hvisits ▸ List.mem_append_right done hu
  have hv := isFileName_of_mem_visits (hmem v List.mem_cons_self)
  have hfresh := h.freshName_not_mem hwithin hvisits v.name
  have hout := isFileName_freshName hv st.taken
  have htaken := h.taken_process
  have hread := (h.waiting v List.mem_cons_self).1
  obtain ⟨f, hf, hfpath⟩ : ∃ f ∈ (Unpack.process tree.base tree.dirs st v).files,
      f.path = joinPath v.dir (freshName st.taken v.name) := exists_mem_files_process hread
  refine ⟨_, rfl, ?_⟩
  rcases List.mem_append.mp hpath with hfiles | hdir
  · obtain ⟨w, hw, hwpath⟩ := List.mem_map.mp hfiles
    have hwname := (joinPath_inj (isFileName_of_mem_visits hw) hout hwpath).2
    have hwdir := path_not_mem_dirs hw
    rw [hvisits, List.mem_append, List.mem_cons] at hw
    rcases hw with hdone | rfl | hrest
    · exact absurd (hwname ▸ h.name_mem_taken hdone) hfresh
    · exact absurd hwname.symm hname
    -- the entry comes later and finds its name taken
    obtain ⟨mid, post, rfl⟩ := List.append_of_mem hrest
    have hnodup : (tree.visits.map Visit.path).Nodup := Listing.nodup_paths tree.valid tree.base
    rw [hvisits, List.map_append, List.nodup_append, List.map_cons, List.nodup_cons] at hnodup
    have hlater := hnodup.2.1.2
    rw [List.map_append, List.nodup_append] at hlater
    have hlength := hwithin.few.trans (Nat.min_le_right _ 500)
    rw [hvisits, List.length_append, List.length_cons, List.length_append, ← h.length_eq]
      at hlength
    have hwvalid : IsFileName w.name :=
      isFileName_of_mem_visits (hmem w (List.mem_cons_of_mem v hrest))
    have htaken : w.name ∈ (Unpack.process tree.base tree.dirs st v).taken := by
      rw [h.taken_process, hwname]
      exact List.mem_append_right _ (List.mem_singleton_self _)
    have hlength₁ : (Unpack.process tree.base tree.dirs st v).taken.length =
        st.taken.length + 1 := by
      rw [h.taken_process, List.length_append, List.length_singleton]
    have hmoved : (Unpack.process tree.base tree.dirs st v).table.read w.path = some v.bytes := by
      rw [process_of_read tree.base tree.dirs hread, collectFile_eq, if_neg hname, ← Visit.path,
        read_rename hread, if_neg (hwpath ▸ hwdir), if_pos hwpath.symm]
    have hkept : (mid.foldl (Unpack.process tree.base tree.dirs)
        (Unpack.process tree.base tree.dirs st v)).table.read w.path = some v.bytes := by
      rw [Visit.path, read_foldl_of_taken hwvalid (fun u hu => ⟨?_, ?_⟩) htaken (by omega),
        ← Visit.path, hmoved]
      · exact isFileName_of_mem_visits
          (hmem u (List.mem_cons_of_mem v (List.mem_append_left _ hu)))
      · exact hlater.2.2 _ (List.mem_map_of_mem hu) _ (List.mem_map_of_mem List.mem_cons_self)
    have hfiles : (Unpack.process tree.base tree.dirs st v).files.Sublist
        (mid.foldl (Unpack.process tree.base tree.dirs)
          (Unpack.process tree.base tree.dirs st v)).files := files_foldl_sublist _ mid
    have hmid : (mid.foldl (Unpack.process tree.base tree.dirs)
        (Unpack.process tree.base tree.dirs st v)).taken.length ≤
          (Unpack.process tree.base tree.dirs st v).taken.length + mid.length := by
      rw [Collected.taken, Collected.taken, List.length_map, List.length_map]
      exact length_foldl_le _ mid
    have hmiddirs : ∀ d ∈ tree.dirs, (mid.foldl (Unpack.process tree.base tree.dirs)
        (Unpack.process tree.base tree.dirs st v)).table.read d = none := fun d hd =>
      read_dir_foldl hd (read_dir_process hd (hdirs d hd))
    obtain ⟨st', hst', hlost⟩ := exists_lost_of_taken (fun u hu => isFileName_of_mem_visits
        (hmem u (List.mem_cons_of_mem v (List.mem_append_right mid hu)))) hlater.2.1
      ((hfiles.map _).subset htaken) (by omega) (Option.isSome_of_eq_some hkept) hmiddirs
    rw [List.foldl_cons, List.foldl_append, ← hst']
    rcases hlost with hlost | hlost
    · refine ⟨f, ?_, ?_⟩
      · rw [hst']
        exact (files_foldl_sublist _ _).subset (hfiles.subset hf)
      · rw [hfpath, ← hwpath]
        exact hlost
    · exact hlost
  · refine ⟨f, (files_foldl_sublist _ rest).subset hf, ?_⟩
    rw [hfpath]
    exact (read_dir_foldl hdir (hdirs _ hdir) :
      ((v :: rest).foldl (Unpack.process tree.base tree.dirs) st).table.read _ = none)

/-! ### The whole walk -/

lemma read_ne_none {st : Collected} {files : List ProducedFile} {vs : List Visit}
    (h : List.Forall₂ (tree.Kept st) files vs) : ∀ f ∈ files, st.table.read f.path ≠ none := by
  induction h with
  | nil => exact List.forall_mem_nil _
  | cons hf _ ih =>
    refine List.forall_mem_cons.mpr ⟨?_, ih⟩
    rw [hf.content]
    exact Option.some_ne_none _

/-- The whole tree is reported and kept if and only if no new name is that of an entry of the file's
directory. -/
theorem preserved_iff (hwithin : tree.Within input) :
    tree.Preserved (tree.collect input) ↔ NoCollision tree.paths [] tree.visits := by
  constructor
  · rintro ⟨-, hkept⟩
    by_contra hcollision
    obtain ⟨vs, hvs, hcollect⟩ := exists_sublist_collect tree.base tree.dirs (maxFiles input)
      (maxTotalBytes input) tree.listing tree.base { table := tree.table }
    -- all files are reported, so the walk has not stopped
    have hlength : (tree.collect input).files.length ≤ vs.length := by
      rw [collect, hcollect]
      exact (length_foldl_le _ vs).trans (by simp)
    rw [hkept.length_eq] at hlength
    obtain rfl := hvs.eq_of_length_le hlength
    obtain ⟨pre, v, post, hvisits, st, hst, hintact, hname, hpath⟩ :=
      Intact.start.exists_collision hwithin rfl hcollision
    obtain ⟨st', hst', f, hf, hlost⟩ := hintact.exists_lost hwithin hvisits hname hpath
      fun d hd => hst ▸ read_dir_foldl hd (tree.dirs_read d hd)
    have hend : tree.collect input = st' := by
      rw [collect, hcollect, hst', hst, ← List.foldl_append]
      exact congrArg (List.foldl _ _) hvisits
    rw [hend] at hkept
    exact read_ne_none hkept f hf hlost
  · intro hfree
    have hstage : ∀ pre post, tree.visits = pre ++ post →
        tree.Intact (pre.foldl (Unpack.process tree.base tree.dirs) { table := tree.table }) pre
          post := by
      intro pre post hvisits
      have hstart : tree.Intact { table := tree.table } [] (pre ++ post) :=
        hvisits ▸ Intact.start
      exact hstart.foldl hwithin hvisits (hvisits ▸ hfree)
    have hcollect : tree.collect input =
        tree.visits.foldl (Unpack.process tree.base tree.dirs) { table := tree.table } :=
      collect_eq_foldl _ _ _ _ fun pre v post hvisits =>
        (hstage pre (v :: post) hvisits).ready hwithin hvisits
    have hend := hstage tree.visits [] (List.append_nil _).symm
    rw [← hcollect] at hend
    exact ⟨hend.distinct, hend.kept.imp fun _ _ h => h.1⟩

/-- Two files of one name; the second one gets a number. -/
def twiceTree : ExtractedTree where
  base := ['u']
  listing := .dir ['a'] (.file ['x'] [1] .nil) (.file ['x'] [2] .nil)
  valid := ⟨⟨by decide, by decide, by decide, by decide⟩, by decide,
    ⟨⟨by decide, by decide, by decide, by decide⟩, by decide, trivial⟩,
    ⟨by decide, by decide, by decide, by decide⟩, by decide, trivial⟩
  table := ⟨[("u/a/x".toList, [1]), ("u/x".toList, [2])], by decide +kernel⟩
  stored := by decide +kernel
  dirs_read := by decide +kernel

theorem preserved_twiceTree : twiceTree.Preserved (twiceTree.collect (.obj [])) :=
  (preserved_iff ⟨by decide, by decide⟩).mpr
    ⟨Or.inl (by decide +kernel), Or.inr (by decide +kernel), trivial⟩

/-- Two files of one name, and one that has the number already. -/
def numberedTree : ExtractedTree where
  base := ['u']
  listing := .dir ['a'] (.file ['x'] [1] .nil) (.file ['x'] [2] (.file ['x', '_', '1'] [3] .nil))
  valid := ⟨⟨by decide, by decide, by decide, by decide⟩, by decide,
    ⟨⟨by decide, by decide, by decide, by decide⟩, by decide, trivial⟩,
    ⟨by decide, by decide, by decide, by decide⟩, by decide,
    ⟨by decide, by decide, by decide, by decide⟩, by decide, trivial⟩
  table := ⟨[("u/a/x".toList, [1]), ("u/x".toList, [2]), ("u/x_1".toList, [3])], by decide +kernel⟩
  stored := by decide +kernel
  dirs_read := by decide +kernel

/-- The second file overwrites the one with the number, and then is renamed in its place. -/
theorem not_preserved_numberedTree : numberedTree.Within (.obj []) ∧
    ¬numberedTree.Preserved (numberedTree.collect (.obj [])) := by
  refine ⟨⟨by decide, by decide⟩, ?_⟩
  rintro ⟨-, hkept⟩
  have hlost : ∃ f ∈ (numberedTree.collect (.obj [])).files,
      (numberedTree.collect (.obj [])).table.read f.path = none := by decide +kernel
  obtain ⟨f, hf, hread⟩ := hlost
  exact read_ne_none hkept f hf hread

end ExtractedTree

end Arbeiterfarm.Tools.Unpack
