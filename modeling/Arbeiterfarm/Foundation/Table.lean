import Mathlib.Algebra.BigOperators.Group.List.Basic
import Mathlib.Data.List.Nodup
import Mathlib.Algebra.GroupWithZero.Nat

/-!
# Keyed tables

A table is the list of its rows in insertion order, no two with the same key. `update` is
`UPDATE … SET … WHERE …`, `insert` refuses a row whose key is taken, `upsert` updates it, `lookup`
is the row with a given key. An update that leaves the key column alone acts on each looked-up row
separately, which is how statements about a single row are proved.
-/

namespace Foundation

variable {ρ κ : Type*} [DecidableEq κ]

structure Table (key : ρ → κ) where
  rows : List ρ
  nodup : (rows.map key).Nodup

namespace Table

variable {key : ρ → κ}

omit [DecidableEq κ] in
@[ext] lemma ext {t u : Table key} (h : t.rows = u.rows) : t = u := by
  cases t
  cases u
  simpa using h

omit [DecidableEq κ] in
/-- Rows with one key are one row. -/
lemma eq_of_key {t : Table key} {r r' : ρ} (hr : r ∈ t.rows) (hr' : r' ∈ t.rows)
    (h : key r = key r') : r = r' :=
  List.inj_on_of_nodup_map t.nodup hr hr' h

/-- The table without rows. -/
def empty (key : ρ → κ) : Table key := ⟨[], by simp⟩

/-- `UPDATE t SET f WHERE p`, for an `f` that keeps the key column. -/
def update (p : ρ → Bool) (f : ρ → ρ) (hf : ∀ r, key (f r) = key r) (t : Table key) :
    Table key where
  rows := t.rows.map fun r => if p r then f r else r
  nodup := by
    have hkey : (key ∘ fun r => if p r then f r else r) = key := by
      funext r
      simp only [Function.comp_apply]
      split_ifs
      · exact hf r
      · rfl
    rw [List.map_map, hkey]
    exact t.nodup

/-- `INSERT INTO t`; `none` when the key is taken. -/
def insert (r : ρ) (t : Table key) : Option (Table key) :=
  if h : key r ∈ t.rows.map key then none
  else some ⟨t.rows ++ [r], by
    rw [List.map_append, List.map_singleton, List.nodup_append]
    refine ⟨t.nodup, by simp, ?_⟩
    rintro k hk k' hk' rfl
    exact h (List.mem_singleton.mp hk' ▸ hk)⟩

/-- `INSERT INTO t … ON CONFLICT (key) DO UPDATE SET f`. -/
def upsert (r : ρ) (f : ρ → ρ) (hf : ∀ r, key (f r) = key r) (t : Table key) : Table key :=
  (t.insert r).getD (t.update (fun r' => key r' = key r) f hf)

/-- `DELETE FROM t WHERE p`. -/
def delete (p : ρ → Bool) (t : Table key) : Table key where
  rows := t.rows.filter fun r => !p r
  nodup := t.nodup.sublist (List.filter_sublist.map key)

/-- The row whose key column is `k`. -/
def lookup (k : κ) (t : Table key) : Option ρ := t.rows.find? fun r => key r = k

lemma lookup_eq_some_iff {t : Table key} {k : κ} {r : ρ} :
    t.lookup k = some r ↔ r ∈ t.rows ∧ key r = k := by
  constructor
  · intro h
    exact ⟨List.mem_of_find?_eq_some h, by simpa using List.find?_some h⟩
  · rintro ⟨hr, rfl⟩
    obtain ⟨r', hr'⟩ : ∃ r', t.lookup (key r) = some r' :=
      Option.isSome_iff_exists.mp (by simpa [lookup] using ⟨r, hr, rfl⟩)
    have hkey : key r' = key r := by simpa using List.find?_some hr'
    rw [hr', eq_of_key (List.mem_of_find?_eq_some hr') hr hkey]

lemma key_of_lookup {t : Table key} {k : κ} {r : ρ} (h : t.lookup k = some r) : key r = k :=
  (lookup_eq_some_iff.mp h).2

lemma lookup_of_mem {t : Table key} {r : ρ} (h : r ∈ t.rows) : t.lookup (key r) = some r :=
  lookup_eq_some_iff.mpr ⟨h, rfl⟩

@[simp] lemma lookup_empty (k : κ) : (empty key).lookup k = none := rfl

/-- An update acts on the looked-up row alone. -/
@[simp] lemma lookup_update (p : ρ → Bool) (f : ρ → ρ) (hf : ∀ r, key (f r) = key r)
    (t : Table key) (k : κ) :
    (t.update p f hf).lookup k = (t.lookup k).map fun r => if p r then f r else r := by
  have hkey : ∀ r, key (if p r then f r else r) = key r := by
    intro r
    split_ifs
    · exact hf r
    · rfl
  simp only [lookup, update, List.find?_map]
  congr 2
  funext r
  simp [hkey r]

/-- A successful insert adds its row and leaves the others alone. -/
lemma lookup_insert {r : ρ} {t u : Table key} (h : t.insert r = some u) (k : κ) :
    u.lookup k = if key r = k then some r else t.lookup k := by
  simp only [insert] at h
  split_ifs at h with hk
  obtain rfl := Option.some.inj h
  simp only [lookup, List.find?_append, List.find?_singleton]
  by_cases hrk : key r = k
  · subst hrk
    have hnone : t.rows.find? (fun r' => key r' = key r) = none :=
      List.find?_eq_none.mpr fun r' hr' heq =>
        hk (List.mem_map.mpr ⟨r', hr', of_decide_eq_true heq⟩)
    simp [hnone]
  · simp [hrk]

/-- After an upsert there is a row with its key, besides those that were there. -/
lemma isSome_lookup_upsert (r : ρ) (f : ρ → ρ) (hf : ∀ r, key (f r) = key r) (t : Table key)
    (k : κ) : ((t.upsert r f hf).lookup k).isSome ↔ key r = k ∨ (t.lookup k).isSome := by
  cases hinsert : t.insert r with
  | some u =>
    simp only [upsert, hinsert, Option.getD_some, lookup_insert hinsert k]
    split_ifs with hkey
    · exact iff_of_true rfl (.inl hkey)
    · exact (or_iff_right hkey).symm
  | none =>
    simp only [upsert, hinsert, Option.getD_none, lookup_update, Option.isSome_map]
    refine (or_iff_right_of_imp ?_).symm
    rintro rfl
    simp only [insert] at hinsert
    split_ifs at hinsert with hkey
    obtain ⟨r', hr', hkey'⟩ := List.mem_map.mp hkey
    rw [← hkey', lookup_of_mem hr']
    rfl

/-- A deletion leaves the other rows as they are. -/
@[simp] lemma lookup_delete (p : ρ → Bool) (t : Table key) (k : κ) :
    (t.delete p).lookup k = (t.lookup k).filter fun r => !p r := by
  cases h : t.lookup k with
  | none =>
    rw [Option.filter_none, lookup, List.find?_eq_none]
    intro r hr
    exact List.find?_eq_none.mp h r (List.mem_of_mem_filter hr)
  | some r =>
    obtain ⟨hr, hkey⟩ := lookup_eq_some_iff.mp h
    by_cases hp : p r = true
    · rw [Option.filter_some_neg (by simpa using hp), lookup, List.find?_eq_none]
      intro r' hr' hkey'
      obtain ⟨hr', hp'⟩ := List.mem_filter.mp hr'
      obtain rfl := eq_of_key hr hr' (hkey.trans (of_decide_eq_true hkey').symm)
      simp [hp] at hp'
    · rw [Option.filter_some_pos (by simpa using hp), lookup_eq_some_iff]
      exact ⟨List.mem_filter.mpr ⟨hr, by simpa using hp⟩, hkey⟩

lemma lookup_eq_none_of_insert {r : ρ} {t u : Table key} (h : t.insert r = some u) :
    t.lookup (key r) = none := by
  simp only [insert] at h
  split_ifs at h with hk
  exact List.find?_eq_none.mpr fun r' hr' heq =>
    hk (List.mem_map.mpr ⟨r', hr', of_decide_eq_true heq⟩)

/-- An upsert changes its own row alone. -/
lemma lookup_upsert (r : ρ) (f : ρ → ρ) (hf : ∀ r, key (f r) = key r) (t : Table key) (k : κ) :
    (t.upsert r f hf).lookup k =
      if key r = k then some ((t.lookup k).elim r f) else t.lookup k := by
  cases hinsert : t.insert r with
  | some u =>
    rw [upsert, hinsert, Option.getD_some, lookup_insert hinsert]
    by_cases hk : key r = k
    · rw [if_pos hk, if_pos hk, ← hk, lookup_eq_none_of_insert hinsert, Option.elim_none]
    · rw [if_neg hk, if_neg hk]
  | none =>
    rw [upsert, hinsert, Option.getD_none, lookup_update]
    by_cases hk : key r = k
    · subst hk
      have hsome : ((t.upsert r f hf).lookup (key r)).isSome :=
        (isSome_lookup_upsert r f hf t (key r)).mpr (Or.inl rfl)
      rw [upsert, hinsert, Option.getD_none, lookup_update, Option.isSome_map] at hsome
      obtain ⟨r', hr'⟩ := Option.isSome_iff_exists.mp hsome
      simp [hr', key_of_lookup hr']
    · rw [if_neg hk]
      cases hr' : t.lookup k with
      | none => rfl
      | some r' => simp [key_of_lookup hr', Ne.symm hk]

/-! ### Rows -/

/-- Updating the row with a given key changes one row in place. -/
lemma rows_update_key (f : ρ → ρ) (hf : ∀ r, key (f r) = key r) {t : Table key} {k : κ} {r : ρ}
    (h : t.lookup k = some r) : ∃ l m, t.rows = l ++ r :: m ∧
      (t.update (fun r => key r = k) f hf).rows = l ++ f r :: m := by
  obtain ⟨hr, rfl⟩ := lookup_eq_some_iff.mp h
  obtain ⟨l, m, hlm⟩ := List.append_of_mem hr
  have hnodup := t.nodup
  rw [hlm, List.map_append, List.map_cons, List.nodup_middle, List.nodup_cons,
    List.mem_append, not_or] at hnodup
  have hsame {l : List ρ} (hl : key r ∉ l.map key) :
      (l.map fun r' => if decide (key r' = key r) then f r' else r') = l := by
    refine List.map_congr_left (g := id) (fun r' hr' => ?_) |>.trans (List.map_id l)
    have hne : key r' ≠ key r := fun heq => hl (heq ▸ List.mem_map_of_mem hr')
    simp [hne]
  refine ⟨l, m, hlm, ?_⟩
  simp only [update, hlm, List.map_append, List.map_cons, hsame hnodup.1.1, hsame hnodup.1.2,
    decide_true, if_true]

/-- A quantity that is summed over the rows changes by what the updated row contributes. -/
lemma sum_update_key (g : ρ → ℕ) (f : ρ → ρ) (hf : ∀ r, key (f r) = key r) {t : Table key}
    {k : κ} {r : ρ} (h : t.lookup k = some r) :
    ((t.update (fun r => key r = k) f hf).rows.map g).sum + g r =
      (t.rows.map g).sum + g (f r) := by
  obtain ⟨l, m, hrows, hupdate⟩ := rows_update_key f hf h
  rw [hrows, hupdate]
  simp only [List.map_append, List.map_cons, List.sum_append, List.sum_cons]
  omega

lemma rows_insert {r : ρ} {t u : Table key} (h : t.insert r = some u) :
    u.rows = t.rows ++ [r] := by
  simp only [insert] at h
  split_ifs at h
  obtain rfl := Option.some.inj h
  rfl

/-- Insert the rows in order; `none` when one of the keys is taken. -/
def insertAll : List ρ → Table key → Option (Table key)
  | [], t => some t
  | r :: rs, t => (t.insert r).bind (insertAll rs)

lemma rows_insertAll {rs : List ρ} {t u : Table key} (h : t.insertAll rs = some u) :
    u.rows = t.rows ++ rs := by
  induction rs generalizing t with
  | nil =>
    cases h
    simp
  | cons r rs ih =>
    obtain ⟨v, hv, hvu⟩ := Option.bind_eq_some_iff.mp h
    rw [ih hvu, rows_insert hv, List.append_assoc, List.singleton_append]

/-! ### Many rows at once -/

section

variable (f : ρ → ρ → ρ) (hf : ∀ r r', key (f r r') = key r')

/-- `INSERT INTO t SELECT … ON CONFLICT (key) DO UPDATE SET f`; `none` when a row is affected a
second time. -/
def upsertAll : List κ → List ρ → Table key → Option (Table key)
  | _, [], t => some t
  | affected, r :: rs, t =>
    if key r ∈ affected then none
    else upsertAll (key r :: affected) rs (t.upsert r (f r) (hf r))

lemma isSome_upsertAll_iff {affected : List κ} {rs : List ρ} {t : Table key} :
    (t.upsertAll f hf affected rs).isSome ↔
      (rs.map key).Nodup ∧ ∀ r ∈ rs, key r ∉ affected := by
  induction rs generalizing affected t with
  | nil => simp [upsertAll]
  | cons r rs ih =>
    rw [upsertAll, List.map_cons, List.nodup_cons, List.forall_mem_cons]
    by_cases hr : key r ∈ affected
    · rw [if_pos hr]
      exact iff_of_false nofun fun h => h.2.1 hr
    · rw [if_neg hr, ih, and_iff_right hr]
      simp only [List.mem_cons, not_or, forall_and, List.mem_map, not_exists, not_and]
      constructor
      · rintro ⟨hnodup, hne, hout⟩
        exact ⟨⟨hne, hnodup⟩, hout⟩
      · rintro ⟨⟨hne, hnodup⟩, hout⟩
        exact ⟨hnodup, hne, hout⟩

/-- Every row that was given is there, on top of the row that had its key. -/
lemma lookup_upsertAll {affected : List κ} {rs : List ρ} {t u : Table key}
    (h : t.upsertAll f hf affected rs = some u) (k : κ) :
    u.lookup k = ((rs.find? fun r => key r = k).map fun r => (t.lookup k).elim r (f r)).or
      (t.lookup k) := by
  induction rs generalizing affected t with
  | nil =>
    obtain rfl := Option.some.inj h
    rfl
  | cons r rs ih =>
    have hsome := (isSome_upsertAll_iff f hf).mp (Option.isSome_iff_exists.mpr ⟨u, h⟩)
    rw [List.map_cons, List.nodup_cons] at hsome
    rw [upsertAll, if_neg (hsome.2 r List.mem_cons_self)] at h
    rw [ih h, lookup_upsert]
    by_cases hk : key r = k
    · have hnone : (rs.find? fun r => key r = k) = none :=
        List.find?_eq_none.mpr fun r' hr' heq =>
          hsome.1.1 (List.mem_map.mpr ⟨r', hr', (of_decide_eq_true heq).trans hk.symm⟩)
      rw [hnone, if_pos hk, List.find?_cons_of_pos (by simpa using hk)]
      rfl
    · rw [if_neg hk, List.find?_cons_of_neg (by simpa using hk)]

end

/-! ### A part of a table -/

/-- The rows whose key is in a part of the keys. -/
def restrict (q : κ → Bool) (t : Table key) : Table key where
  rows := t.rows.filter fun r => q (key r)
  nodup := t.nodup.sublist (List.filter_sublist.map key)

omit [DecidableEq κ] in
lemma mem_keys_restrict {q : κ → Bool} {t : Table key} {k : κ} (hk : q k = true) :
    k ∈ (t.restrict q).rows.map key ↔ k ∈ t.rows.map key := by
  simp only [restrict, List.mem_map, List.mem_filter]
  constructor
  · rintro ⟨r, ⟨hr, -⟩, rfl⟩
    exact ⟨r, hr, rfl⟩
  · rintro ⟨r, hr, rfl⟩
    exact ⟨r, ⟨hr, hk⟩, rfl⟩

lemma lookup_restrict {q : κ → Bool} {t : Table key} {k : κ} (hk : q k = true) :
    (t.restrict q).lookup k = t.lookup k := by
  simp only [lookup, restrict, List.find?_filter]
  congr 1
  funext r
  by_cases hr : key r = k
  · simp [hr, hk]
  · simp [hr]

/-- What is inserted into a part of a table is inserted into the table. -/
lemma restrict_insert {q : κ → Bool} {t : Table key} {r : ρ} (hr : q (key r) = true) :
    (t.insert r).map (restrict q) = (t.restrict q).insert r := by
  simp only [insert]
  by_cases hk : key r ∈ t.rows.map key
  · rw [dif_pos hk, dif_pos ((mem_keys_restrict hr).mpr hk), Option.map_none]
  · rw [dif_neg hk, dif_neg (fun h => hk ((mem_keys_restrict hr).mp h)), Option.map_some]
    congr 1
    apply ext
    simp [restrict, List.filter_append, hr]

omit [DecidableEq κ] in
lemma restrict_update {q : κ → Bool} {t : Table key} {p : ρ → Bool} {f : ρ → ρ}
    (hf : ∀ r, key (f r) = key r) :
    (t.update p f hf).restrict q = (t.restrict q).update p f hf := by
  apply ext
  simp only [restrict, update, List.filter_map]
  congr 1
  apply List.filter_congr
  intro r _
  simp only [Function.comp]
  split
  · rw [hf]
  · rfl

lemma restrict_upsert {q : κ → Bool} {t : Table key} {r : ρ} {f : ρ → ρ}
    (hf : ∀ r, key (f r) = key r) (hr : q (key r) = true) :
    (t.upsert r f hf).restrict q = (t.restrict q).upsert r f hf := by
  rw [upsert, upsert, ← restrict_insert hr, ← restrict_update]
  cases t.insert r <;> rfl

lemma restrict_upsertAll {q : κ → Bool} {f : ρ → ρ → ρ} (hf : ∀ r r', key (f r r') = key r')
    {affected : List κ} {rs : List ρ} (hrs : ∀ r ∈ rs, q (key r) = true) (t : Table key) :
    (t.upsertAll f hf affected rs).map (restrict q) =
      (t.restrict q).upsertAll f hf affected rs := by
  induction rs generalizing affected t with
  | nil => rfl
  | cons r rs ih =>
    rw [List.forall_mem_cons] at hrs
    rw [upsertAll, upsertAll]
    split
    · rfl
    · rw [ih hrs.2, restrict_upsert _ hrs.1]

omit [DecidableEq κ] in
lemma restrict_delete {q : κ → Bool} {p : ρ → Bool} {t : Table key} :
    (t.delete p).restrict q = (t.restrict q).delete p := by
  apply ext
  simp [restrict, delete, List.filter_filter, Bool.and_comm]

/-- `INSERT INTO t SELECT … ON CONFLICT (key) DO NOTHING` -/
def insertMissing (rs : List ρ) (t : Table key) : Table key :=
  rs.foldl (fun t r => (t.insert r).getD t) t

lemma restrict_insertMissing {q : κ → Bool} {rs : List ρ} (hrs : ∀ r ∈ rs, q (key r) = true)
    (t : Table key) : (t.insertMissing rs).restrict q = (t.restrict q).insertMissing rs := by
  induction rs generalizing t with
  | nil => rfl
  | cons r rs ih =>
    rw [List.forall_mem_cons] at hrs
    simp only [insertMissing, List.foldl_cons] at ih ⊢
    rw [ih hrs.2, ← restrict_insert hrs.1]
    cases t.insert r <;> rfl

/-! ### Writes to the rest of a table -/

lemma restrict_insert_of_not {q : κ → Bool} {t u : Table key} {r : ρ} (hr : q (key r) = false)
    (h : t.insert r = some u) : u.restrict q = t.restrict q := by
  simp only [insert] at h
  split at h <;> cases h
  apply ext
  simp [restrict, List.filter_append, hr]

omit [DecidableEq κ] in
lemma restrict_update_of_not {q : κ → Bool} {t : Table key} {p : ρ → Bool} {f : ρ → ρ}
    (hf : ∀ r, key (f r) = key r) (hp : ∀ r, p r = true → q (key r) = false) :
    (t.update p f hf).restrict q = t.restrict q := by
  rw [restrict_update]
  apply ext
  simp only [update, restrict]
  nth_rewrite 2 [← List.map_id (t.rows.filter _)]
  apply List.map_congr_left
  intro r hr
  rw [if_neg, id]
  intro hpass
  have hq := (List.mem_filter.mp hr).2
  rw [hp r hpass] at hq
  cases hq

lemma restrict_upsert_of_not {q : κ → Bool} {t : Table key} {r : ρ} {f : ρ → ρ}
    (hf : ∀ r, key (f r) = key r) (hr : q (key r) = false) :
    (t.upsert r f hf).restrict q = t.restrict q := by
  rw [upsert]
  cases hinsert : t.insert r with
  | none =>
    apply restrict_update_of_not hf
    intro r' hkey
    rw [decide_eq_true_eq] at hkey
    rw [hkey]
    exact hr
  | some u => exact restrict_insert_of_not hr hinsert

lemma restrict_upsertAll_of_not {q : κ → Bool} {f : ρ → ρ → ρ}
    (hf : ∀ r r', key (f r r') = key r') {affected : List κ} {rs : List ρ}
    (hrs : ∀ r ∈ rs, q (key r) = false) {t u : Table key}
    (h : t.upsertAll f hf affected rs = some u) : u.restrict q = t.restrict q := by
  induction rs generalizing affected t with
  | nil =>
    cases h
    rfl
  | cons r rs ih =>
    rw [List.forall_mem_cons] at hrs
    rw [upsertAll] at h
    split at h
    · cases h
    · rw [ih hrs.2 h, restrict_upsert_of_not _ hrs.1]

lemma restrict_insertMissing_of_not {q : κ → Bool} {rs : List ρ}
    (hrs : ∀ r ∈ rs, q (key r) = false) (t : Table key) :
    (t.insertMissing rs).restrict q = t.restrict q := by
  induction rs generalizing t with
  | nil => rfl
  | cons r rs ih =>
    rw [List.forall_mem_cons] at hrs
    simp only [insertMissing, List.foldl_cons] at ih ⊢
    rw [ih hrs.2]
    cases hinsert : t.insert r with
    | none => rfl
    | some u => exact restrict_insert_of_not hrs.1 hinsert

omit [DecidableEq κ] in
lemma restrict_delete_of_not {q : κ → Bool} {p : ρ → Bool} {t : Table key}
    (hp : ∀ r, p r = true → q (key r) = false) : (t.delete p).restrict q = t.restrict q := by
  apply ext
  simp only [restrict, delete, List.filter_filter]
  apply List.filter_congr
  intro r _
  cases hpr : p r with
  | true => rw [hp r hpr, Bool.false_and]
  | false => rw [Bool.not_false, Bool.and_true]

end Table

end Foundation
