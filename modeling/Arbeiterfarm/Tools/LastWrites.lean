import Arbeiterfarm.Foundation.Fallible
import Arbeiterfarm.Tools.GhidraRename

/-!
# The last write wins

The statement that stores the renames must not affect a row twice, and its array is cast to `jsonb`.
So a valid request is stored if no old name occurs twice in it and no address has a character that
`jsonb` refuses; then the renames that are read back are the ones from before with the new ones on
top.
-/

namespace Arbeiterfarm.Tools

open Foundation Foundation.Fallible Db

/-! ### A valid request -/

/-- What the validation checks of a rename. -/
structure ValidRename (r : Json) (old new : String) : Prop where
  old_eq : r.strField "old" = some old
  new_eq : r.strField "new" = some new
  old_ne : old ≠ ""
  new_ne : new ≠ ""
  old_plain : ¬old.toList.any isControl
  new_plain : ¬new.toList.any isControl

lemma exists_of_validateRename {r : Json} (h : validateRename r = .ok ()) :
    ∃ old new, ValidRename r old new := by
  rw [validateRename] at h
  cases hold : r.strField "old" with
  | none => simp [hold] at h
  | some old =>
    cases hnew : r.strField "new" with
    | none => simp [hold, hnew] at h
    | some new =>
      simp only [hold, hnew] at h
      split_ifs at h with h1 h2 h3 h4 h5 h6
      exact ⟨old, new, hold, hnew, h1, h2, h5, h6⟩

/-- All given renames of a valid request are parsed. -/
lemma exists_of_validateRenames {input : Json} (h : validateRenames input = .ok ()) :
    ∀ r ∈ givenRenames input, ∃ old new, ValidRename r old new := by
  rw [validateRenames] at h
  rw [givenRenames]
  cases hrenames : (input.get "renames").bind Json.asArray with
  | none => simp
  | some renames =>
    simp only [hrenames] at h
    split_ifs at h
    intro r hr
    exact exists_of_validateRename (forM_eq_ok_iff.mp h r hr)

variable {r : Json} {old new : String}

lemma ValidRename.parse (h : ValidRename r old new) :
    parseRename r = some (old, new, r.strField "address") := by
  rw [parseRename, h.old_eq, h.new_eq]
  exact if_neg (not_or_intro h.old_ne h.new_ne)

/-! ### The array -/

lemma not_refusedByJsonb {s : String} (h : ¬s.toList.any isControl) : refusedByJsonb s = false := by
  rw [refusedByJsonb, List.contains_eq_mem, decide_eq_false_iff_not]
  exact fun hmem => h (List.any_eq_true.mpr ⟨_, hmem, rfl⟩)

lemma renameJson_eq (old new : String) (address : Option String) :
    renameJson (old, new, address) =
      .obj ((address.toList.map fun a => ("address", .str a)) ++
        [("new_name", .str new), ("old_name", .str old)]) := by
  cases address with
  | none => rfl
  | some a =>
    rw [renameJson]
    have hlt : "address" < "new_name" := by decide +kernel
    have hne : ¬"address" = "new_name" := by decide
    simp [Json.insert, Json.insertField, hlt, hne]

lemma hasNul_renameJson {old new : String} (hold : ¬old.toList.any isControl)
    (hnew : ¬new.toList.any isControl) (address : Option String) :
    hasNul (renameJson (old, new, address)) = true ↔ ∃ a ∈ address, '\x00' ∈ a.toList := by
  have hkeys : refusedByJsonb "new_name" = false ∧ refusedByJsonb "old_name" = false ∧
      refusedByJsonb "address" = false := by decide +kernel
  rw [renameJson_eq]
  cases address <;>
    simp [hasNul, hasNulFields, hkeys, not_refusedByJsonb hold, not_refusedByJsonb hnew]
  rw [refusedByJsonb, List.contains_eq_mem, decide_eq_true_iff]

section

variable (project_id : Uuid) (sha256 : String) (user_id : Option Uuid) (now : ℕ)

/-- The row of a rename. -/
def renameRow (r : Rename) : RenameRow where
  project_id := project_id
  sha256 := sha256
  old_name := r.1
  new_name := r.2.1
  address := r.2.2.filter (· ≠ "")
  renamed_by := user_id
  updated_at := now

lemma insertedRow_renameJson (r : Rename) :
    insertedRow project_id sha256 user_id now (renameJson r) =
      some (renameRow project_id sha256 user_id now r) := by
  obtain ⟨old, new, address⟩ := r
  rw [renameJson_eq]
  cases address <;> rfl

lemma mapM_insertedRow (renames : List Rename) :
    (renames.map renameJson).mapM (insertedRow project_id sha256 user_id now) =
      some (renames.map (renameRow project_id sha256 user_id now)) := by
  rw [mapM_eq_some_iff, List.map_map, List.map_map]
  exact List.map_congr_left fun r _ => insertedRow_renameJson project_id sha256 user_id now r

end

/-! ### Reading the renames -/

lemma RenameMap.get_insert (renames : RenameMap) (old new name : String) :
    (renames.insert old new).get name = if name = old then some new else renames.get name := by
  rw [RenameMap.get, RenameMap.insert, lookup_cons_eq, lookup_filter_ne]
  by_cases hname : name = old
  · rw [if_pos hname, if_pos hname]
  · rw [if_neg hname, if_neg hname, if_neg hname]
    rfl

lemma get_foldl_insert {rows : List RenameRow} (hnodup : (rows.map RenameRow.old_name).Nodup)
    (renames : RenameMap) (name : String) :
    (rows.foldl (fun map row => map.insert row.old_name row.new_name) renames).get name =
      ((rows.find? fun row => row.old_name = name).map RenameRow.new_name).or
        (renames.get name) := by
  induction rows generalizing renames with
  | nil => rfl
  | cons row rows ih =>
    rw [List.map_cons, List.nodup_cons] at hnodup
    rw [List.foldl_cons, ih hnodup.2, RenameMap.get_insert]
    by_cases hname : row.old_name = name
    · have hnone : (rows.find? fun row => row.old_name = name) = none :=
        List.find?_eq_none.mpr fun row' hrow' heq => hnodup.1
          (List.mem_map.mpr ⟨row', hrow', (of_decide_eq_true heq).trans hname.symm⟩)
      rw [hnone, List.find?_cons_of_pos (by simpa using hname), if_pos hname.symm]
      rfl
    · rw [List.find?_cons_of_neg (by simpa using hname), if_neg (Ne.symm hname)]

/-- The rows of a binary differ in their old names. -/
lemma nodup_old_name (t : RenameTable) (project_id : Uuid) (sha256 : String) :
    ((t.rows.filter fun r => r.project_id = project_id ∧ r.sha256 = sha256).map
      RenameRow.old_name).Nodup := by
  have hkeys := t.nodup.sublist ((List.filter_sublist
    (p := fun r => r.project_id = project_id ∧ r.sha256 = sha256)).map RenameRow.key)
  have hcongr : (t.rows.filter fun r => r.project_id = project_id ∧ r.sha256 = sha256).map
      RenameRow.key = ((t.rows.filter fun r => r.project_id = project_id ∧ r.sha256 = sha256).map
        RenameRow.old_name).map fun old => (project_id, sha256, old) := by
    rw [List.map_map]
    refine List.map_congr_left fun r hr => ?_
    obtain ⟨hproject, hsha⟩ := of_decide_eq_true (List.mem_filter.mp hr).2
    rw [RenameRow.key, hproject, hsha]
    rfl
  rw [hcongr] at hkeys
  exact hkeys.of_map _

/-- The map has the new name of each row. -/
lemma get_getRenames (t : RenameTable) (project_id : Uuid) (sha256 name : String) :
    (getRenames t project_id sha256).get name =
      (t.lookup (project_id, sha256, name)).map RenameRow.new_name := by
  have hperm := List.perm_insertionSort (fun r r' : RenameRow => r'.updated_at ≤ r.updated_at)
    (t.rows.filter fun r => r.project_id = project_id ∧ r.sha256 = sha256)
  have hnodup := (hperm.map RenameRow.old_name).nodup_iff.mpr (nodup_old_name t project_id sha256)
  rw [getRenames]
  generalize List.insertionSort (fun r r' : RenameRow => r'.updated_at ≤ r.updated_at) _ = rows
    at hperm hnodup ⊢
  rw [get_foldl_insert hnodup]
  have hfind : (rows.find? fun row => row.old_name = name) =
      t.lookup (project_id, sha256, name) := by
    ext r
    have hlookup := Table.lookup_eq_some_iff (t := ⟨rows, hnodup⟩) (k := name) (r := r)
    rw [Table.lookup] at hlookup
    rw [Table.lookup_eq_some_iff, hlookup, hperm.mem_iff, List.mem_filter, decide_eq_true_iff,
      RenameRow.key, Prod.mk.injEq, Prod.mk.injEq, and_assoc, and_assoc]
  rw [hfind]
  cases t.lookup (project_id, sha256, name) <;> rfl

/-! ### The last write -/

lemma find?_reverse {α : Type} {p : α → Bool} {l : List α}
    (h : ∀ a ∈ l, ∀ b ∈ l, p a → p b → a = b) : l.reverse.find? p = l.find? p := by
  induction l with
  | nil => rfl
  | cons a l ih =>
    have hrest := ih fun b hb c hc =>
      h b (List.mem_cons_of_mem a hb) c (List.mem_cons_of_mem a hc)
    rw [List.reverse_cons, List.find?_append, hrest, List.find?_singleton]
    by_cases ha : p a
    · rw [List.find?_cons_of_pos ha, if_pos ha]
      cases hfind : l.find? p with
      | none => rfl
      | some b =>
        have hb := List.mem_cons_of_mem a (List.mem_of_find?_eq_some hfind)
        rw [h b hb a List.mem_cons_self (List.find?_some hfind) ha]
        rfl
    · rw [List.find?_cons_of_neg ha, if_neg ha, Option.or_none]

section

variable {input : Json} (t : RenameTable) (project_id : Uuid) (sha256 : String)
  (user_id : Option Uuid) (now : ℕ)

/-- The stored rename of a valid one. -/
def parsedRename (r : Json) : Rename :=
  ((r.strField "old").getD "", (r.strField "new").getD "", r.strField "address")

lemma parseRenames_eq (hvalid : validateRenames input = .ok ()) :
    parseRenames input = (givenRenames input).map parsedRename := by
  rw [parseRenames, ← givenRenames, ← List.filterMap_eq_map]
  refine List.filterMap_congr fun r hr => ?_
  obtain ⟨old, new, hr⟩ := exists_of_validateRenames hvalid r hr
  rw [hr.parse, Function.comp_apply, parsedRename, hr.old_eq, hr.new_eq]
  rfl

lemma hasNul_parseRenames (hvalid : validateRenames input = .ok ()) :
    hasNul (.arr ((parseRenames input).map renameJson)) = false ↔
      ∀ r ∈ givenRenames input, ∀ a ∈ r.strField "address", '\x00' ∉ a.toList := by
  rw [parseRenames_eq hvalid, hasNul]
  have hall := exists_of_validateRenames hvalid
  generalize givenRenames input = renames at hall ⊢
  induction renames with
  | nil => simp [hasNulList]
  | cons r renames ih =>
    obtain ⟨⟨old, new, hr⟩, hrest⟩ := List.forall_mem_cons.mp hall
    have hparsed : parsedRename r = (old, new, r.strField "address") := by
      rw [parsedRename, hr.old_eq, hr.new_eq]
      rfl
    have hnul := hasNul_renameJson hr.old_plain hr.new_plain (r.strField "address")
    rw [List.map_cons, List.map_cons, hasNulList, Bool.or_eq_false_iff, List.forall_mem_cons,
      ← Bool.not_eq_true, hparsed, hnul]
    exact and_congr (by simp) (ih hrest)

/-- The statement stores the rows if no old name occurs twice. -/
lemma upsertRenames_eq_ok_iff {renames : List Rename} {u : RenameTable} {n : ℕ} :
    upsertRenames project_id sha256 user_id now t renames = .ok (u, n) ↔
      hasNul (.arr (renames.map renameJson)) = false ∧
        t.upsertAll updatedRow key_updatedRow []
          (renames.map (renameRow project_id sha256 user_id now)) = some u ∧
        n = renames.length := by
  rw [upsertRenames]
  by_cases hnul : hasNul (.arr (renames.map renameJson)) = true
  · rw [if_pos hnul]
    exact iff_of_false nofun fun h => Bool.false_ne_true (h.1.symm.trans hnul)
  · rw [if_neg hnul, mapM_insertedRow, ← Bool.not_eq_true, and_iff_right hnul]
    cases hrows : t.upsertAll updatedRow key_updatedRow []
        (renames.map (renameRow project_id sha256 user_id now)) with
    | none => simp [hrows]
    | some v => simp [hrows, eq_comm]

lemma nodup_key_iff {renames : List Rename} :
    ((renames.map (renameRow project_id sha256 user_id now)).map RenameRow.key).Nodup ↔
      (renames.map Prod.fst).Nodup := by
  have hkeys : (renames.map (renameRow project_id sha256 user_id now)).map RenameRow.key =
      (renames.map Prod.fst).map fun old => (project_id, sha256, old) := by
    rw [List.map_map, List.map_map]
    rfl
  rw [hkeys]
  exact List.nodup_map_iff fun old old' h => (Prod.mk.inj (Prod.mk.inj h).2).2

/-- The renames that are read back. -/
lemma get_upsertRenames {renames : List Rename} {u : RenameTable}
    (h : t.upsertAll updatedRow key_updatedRow []
      (renames.map (renameRow project_id sha256 user_id now)) = some u) (name : String) :
    (getRenames u project_id sha256).get name =
      ((renames.find? fun r => r.1 = name).map fun r => r.2.1).or
        ((getRenames t project_id sha256).get name) := by
  rw [get_getRenames, get_getRenames, Table.lookup_upsertAll _ _ h, List.find?_map]
  have hkey : (fun r => decide (RenameRow.key r = (project_id, sha256, name))) ∘
      renameRow project_id sha256 user_id now = fun r => decide (r.1 = name) := by
    funext r
    simp [renameRow, RenameRow.key]
  rw [hkey]
  cases renames.find? fun r => r.1 = name with
  | none => rfl
  | some r => cases t.lookup (project_id, sha256, name) <;> rfl

lemma lastNew_eq {renames : List Json} (hall : ∀ r ∈ renames, ∃ old new, ValidRename r old new)
    (hnodup : (renames.map (·.strField "old")).Nodup) (name : String) :
    lastNew renames name =
      ((renames.map parsedRename).find? fun r => r.1 = name).map fun r => r.2.1 := by
  rw [lastNew, find?_reverse fun a ha b hb hpa hpb => List.inj_on_of_nodup_map hnodup ha hb
    ((of_decide_eq_true hpa).trans (of_decide_eq_true hpb).symm)]
  clear hnodup
  induction renames with
  | nil => rfl
  | cons r renames ih =>
    obtain ⟨⟨old, new, hr⟩, hrest⟩ := List.forall_mem_cons.mp hall
    rw [List.map_cons, parsedRename, hr.old_eq, hr.new_eq]
    by_cases hname : old = name
    · rw [List.find?_cons_of_pos (by simpa [hr.old_eq] using hname),
        List.find?_cons_of_pos (by simpa using hname)]
      exact hr.new_eq
    · rw [List.find?_cons_of_neg (by simpa [hr.old_eq] using hname),
        List.find?_cons_of_neg (by simpa using hname), ih hrest]

/-- A valid request is stored, its last new names on top, if and only if it gives no old name twice
and no address with the character `\u0000`. -/
theorem storesLast_iff (hvalid : validateRenames input = .ok ()) :
    StoresLast t project_id sha256 user_id now input ↔
      ((givenRenames input).map (·.strField "old")).Nodup ∧
        ∀ r ∈ givenRenames input, ∀ a ∈ r.strField "address", '\x00' ∉ a.toList := by
  have hall := exists_of_validateRenames hvalid
  have hnodup : ((parseRenames input).map Prod.fst).Nodup ↔
      ((givenRenames input).map (·.strField "old")).Nodup := by
    rw [← List.nodup_map_iff (Option.some_injective String), parseRenames_eq hvalid,
      List.map_map, List.map_map]
    refine iff_of_eq (congrArg List.Nodup (List.map_congr_left fun r hr => ?_))
    obtain ⟨old, new, hr⟩ := hall r hr
    simp [parsedRename, hr.old_eq]
  rw [← hasNul_parseRenames hvalid, ← hnodup]
  have hsome : (t.upsertAll updatedRow key_updatedRow []
      ((parseRenames input).map (renameRow project_id sha256 user_id now))).isSome ↔
        ((parseRenames input).map Prod.fst).Nodup := by
    rw [Table.isSome_upsertAll_iff, nodup_key_iff]
    exact and_iff_left fun _ _ => List.not_mem_nil
  constructor
  · rintro ⟨u, n, hu, -⟩
    obtain ⟨hnul, hrows, -⟩ := (upsertRenames_eq_ok_iff t project_id sha256 user_id now).mp hu
    exact ⟨hsome.mp (Option.isSome_iff_exists.mpr ⟨u, hrows⟩), hnul⟩
  · rintro ⟨hnames, hnul⟩
    obtain ⟨u, hrows⟩ := Option.isSome_iff_exists.mp (hsome.mpr hnames)
    refine ⟨u, _, (upsertRenames_eq_ok_iff t project_id sha256 user_id now).mpr
      ⟨hnul, hrows, rfl⟩, fun name => ?_⟩
    rw [get_upsertRenames t project_id sha256 user_id now hrows,
      lastNew_eq hall (hnodup.mp hnames), parseRenames_eq hvalid]

end

/-- A rename of each of two functions. -/
def twoNames : Json := .obj [("renames", .arr
  [.obj [("new", .str "parse"), ("old", .str "FUN_1")],
    .obj [("new", .str "send"), ("old", .str "FUN_2")]])]

/-- A table in which the first of the functions, and a third one, have a name already. -/
def named : RenameTable :=
  ((Table.empty _).upsert ⟨1, "00", "FUN_1", "init", some "0x1000", none, 3⟩ id fun _ => rfl).upsert
    ⟨1, "00", "FUN_3", "recv", none, none, 3⟩ id fun _ => rfl

/-- One name is replaced, one is added and one stays. -/
theorem storesLast_named : StoresLast named 1 "00" none 7 twoNames := by
  refine (storesLast_iff named 1 "00" none 7 (by decide +kernel)).mpr ⟨?_, ?_⟩
  · decide +kernel
  · have haddress : ∀ r ∈ givenRenames twoNames, r.strField "address" = none := by decide +kernel
    intro r hr a ha
    rw [haddress r hr] at ha
    exact absurd ha (Option.not_mem_none a)

/-- Two renames of one function. -/
def sameName : Json := .obj [("renames", .arr
  [.obj [("new", .str "parse"), ("old", .str "FUN_1")],
    .obj [("new", .str "send"), ("old", .str "FUN_1")]])]

/-- The request is valid, but no row is stored. -/
theorem same_name_not_stored : validateRenames sameName = .ok () ∧
    ¬StoresLast (Table.empty _) 1 "00" none 7 sameName := by
  refine ⟨by decide +kernel, ?_⟩
  rintro ⟨u, n, hu, -⟩
  have herror : upsertRenames 1 "00" none 7 (Table.empty _) (parseRenames sameName) =
      .error (dbError "ON CONFLICT DO UPDATE command cannot affect row a second time") := rfl
  exact nomatch herror.symm.trans hu

end Arbeiterfarm.Tools
