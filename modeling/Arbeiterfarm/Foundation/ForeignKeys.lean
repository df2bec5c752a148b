import Mathlib.Data.List.Count
import Mathlib.Data.List.Pairwise
import Mathlib.Logic.Function.Iterate
import Mathlib.Order.Nat

/-!
# Deletes under foreign keys

A database is a list of rows of several tables. A foreign key says which table a column refers to,
and what happens to a row when the row that it refers to is deleted. A delete statement removes the
rows that a predicate selects, and the rows that are deleted by cascade; it sets references to NULL;
and it fails if a row that remains refers to a row that is gone.
-/

namespace Foundation

variable {τ κ ι α : Type*}

inductive OnDelete where
  | noAction
  | cascade
  | setNull
  deriving DecidableEq, Repr

structure ForeignKey (τ κ : Type*) where
  child : τ
  column : κ
  parent : τ
  on_delete : OnDelete
  deriving DecidableEq, Repr

structure DbRow (τ κ ι α : Type*) where
  table : τ
  id : ι
  /-- The references of the row, by column. -/
  ref : κ → Option ι
  data : α

abbrev Database (τ κ ι α : Type*) := List (DbRow τ κ ι α)

namespace ForeignKey

def Refers (fk : ForeignKey τ κ) (r p : DbRow τ κ ι α) : Prop :=
  r.table = fk.child ∧ p.table = fk.parent ∧ r.ref fk.column = some p.id

instance [DecidableEq τ] [DecidableEq ι] (fk : ForeignKey τ κ) (r p : DbRow τ κ ι α) :
    Decidable (fk.Refers r p) :=
  inferInstanceAs (Decidable (_ ∧ _ ∧ _))

end ForeignKey

namespace Database

variable [DecidableEq τ] [DecidableEq ι]

/-- The rows of a table have different ids, and every reference is to a row. -/
structure Valid (schema : List (ForeignKey τ κ)) (db : Database τ κ ι α) : Prop where
  keys : db.Pairwise fun r r' => ¬ (r.table = r'.table ∧ r.id = r'.id)
  refs : ∀ fk ∈ schema, ∀ r ∈ db, r.table = fk.child → (r.ref fk.column).isSome = true →
    ∃ p ∈ db, fk.Refers r p

omit [DecidableEq τ] [DecidableEq ι] in
lemma Valid.eq_of_id {schema : List (ForeignKey τ κ)} {db : Database τ κ ι α}
    (h : Valid schema db) {r r' : DbRow τ κ ι α} (hr : r ∈ db) (hr' : r' ∈ db)
    (htable : r.table = r'.table) (hid : r.id = r'.id) : r = r' := by
  have hsymm : Std.Symm fun r r' : DbRow τ κ ι α => ¬ (r.table = r'.table ∧ r.id = r'.id) :=
    ⟨fun _ _ hdiffer hsame => hdiffer ⟨hsame.1.symm, hsame.2.symm⟩⟩
  by_contra hne
  exact h.keys.forall hr hr' hne ⟨htable, hid⟩

/-! ### Cascades -/

section

variable (schema : List (ForeignKey τ κ)) (db : Database τ κ ι α)

/-- One round of cascades; the rows that are gone are marked. -/
def cascadeRound (rows : List (Bool × DbRow τ κ ι α)) : List (Bool × DbRow τ κ ι α) :=
  rows.map fun x => (x.1 || schema.any fun fk => fk.on_delete = .cascade &&
    rows.any fun p => p.1 && decide (fk.Refers x.2 p.2), x.2)

/-- As many rounds as there are rows. -/
def cascade (selected : DbRow τ κ ι α → Bool) : List (Bool × DbRow τ κ ι α) :=
  (cascadeRound schema)^[db.length] (db.map fun r => (selected r, r))

/-- The rows that are gone after `n` rounds. -/
def goneAfter (selected : DbRow τ κ ι α → Bool) : ℕ → DbRow τ κ ι α → Bool
  | 0, r => selected r
  | n + 1, r => goneAfter selected n r || schema.any fun fk => fk.on_delete = .cascade &&
      db.any fun p => goneAfter selected n p && decide (fk.Refers r p)

/-- The rows that are gone. -/
def gone (selected : DbRow τ κ ι α → Bool) : DbRow τ κ ι α → Bool :=
  goneAfter schema db selected db.length

end

variable {schema : List (ForeignKey τ κ)} {db : Database τ κ ι α}
  {selected : DbRow τ κ ι α → Bool}

lemma cascade_eq : cascade schema db selected = db.map fun r => (gone schema db selected r, r) := by
  have hrounds (n : ℕ) : (cascadeRound schema)^[n] (db.map fun r => (selected r, r)) =
      db.map fun r => (goneAfter schema db selected n r, r) := by
    induction n with
    | zero => rfl
    | succ n ih =>
      rw [Function.iterate_succ_apply', ih, cascadeRound, List.map_map]
      apply List.map_congr_left
      intro r _
      simp only [Function.comp, goneAfter, List.any_map]
      rfl
  exact hrounds db.length

lemma goneAfter_mono {n : ℕ} {r : DbRow τ κ ι α} (h : goneAfter schema db selected n r = true) :
    goneAfter schema db selected (n + 1) r = true := by
  rw [goneAfter, h, Bool.true_or]

/-- A round depends on the rows of the database only. -/
lemma goneAfter_congr {n m : ℕ}
    (h : ∀ r ∈ db, goneAfter schema db selected n r = goneAfter schema db selected m r) :
    ∀ r ∈ db, goneAfter schema db selected (n + 1) r = goneAfter schema db selected (m + 1) r := by
  intro r hr
  have hany (fk : ForeignKey τ κ) :
      (db.any fun p => goneAfter schema db selected n p && decide (fk.Refers r p)) =
        db.any fun p => goneAfter schema db selected m p && decide (fk.Refers r p) := by
    rw [Bool.eq_iff_iff, List.any_eq_true, List.any_eq_true]
    constructor
    · rintro ⟨p, hp, hgone⟩
      exact ⟨p, hp, by rwa [← h p hp]⟩
    · rintro ⟨p, hp, hgone⟩
      exact ⟨p, hp, by rwa [h p hp]⟩
  simp only [goneAfter, h r hr, hany]

/-- A round that adds nothing is the last one. -/
lemma goneAfter_stable {n : ℕ}
    (h : ∀ r ∈ db, goneAfter schema db selected (n + 1) r = goneAfter schema db selected n r)
    (m : ℕ) : ∀ r ∈ db,
      goneAfter schema db selected (n + m) r = goneAfter schema db selected n r := by
  induction m with
  | zero =>
    intro r _
    rfl
  | succ m ih =>
    intro r hr
    exact (goneAfter_congr ih r hr).trans (h r hr)

lemma countP_lt_countP {β : Type*} {p q : β → Bool} {xs : List β} {x : β} (hx : x ∈ xs)
    (hpq : ∀ y ∈ xs, p y = true → q y = true) (hp : p x = false) (hq : q x = true) :
    xs.countP p < xs.countP q := by
  induction xs with
  | nil => cases hx
  | cons y ys ih =>
    have hle : ys.countP p ≤ ys.countP q :=
      List.countP_mono_left fun z hz => hpq z (List.mem_cons_of_mem y hz)
    rcases List.mem_cons.mp hx with rfl | hx
    · rw [List.countP_cons_of_pos hq, List.countP_cons_of_neg (by rw [hp]; decide)]
      exact Nat.lt_succ_of_le hle
    · have hlt := ih hx fun z hz => hpq z (List.mem_cons_of_mem y hz)
      by_cases hy : p y = true
      · rw [List.countP_cons_of_pos hy, List.countP_cons_of_pos (hpq y List.mem_cons_self hy)]
        exact Nat.succ_lt_succ hlt
      · rw [List.countP_cons_of_neg hy]
        exact hlt.trans_le ((List.sublist_cons_self y ys).countP_le)

/-- A round that adds something marks another row. -/
lemma countP_goneAfter_lt {n : ℕ} {r : DbRow τ κ ι α} (hr : r ∈ db)
    (h : goneAfter schema db selected (n + 1) r ≠ goneAfter schema db selected n r) :
    db.countP (goneAfter schema db selected n) <
      db.countP (goneAfter schema db selected (n + 1)) := by
  have hnot : goneAfter schema db selected n r = false := by
    by_contra hgone
    rw [Bool.not_eq_false] at hgone
    exact h ((goneAfter_mono hgone).trans hgone.symm)
  have hnow : goneAfter schema db selected (n + 1) r = true := by
    rwa [hnot, ne_eq, Bool.not_eq_false] at h
  exact countP_lt_countP hr (fun _ _ => goneAfter_mono) hnot hnow

/-- The rounds come to an end. -/
lemma gone_stable : ∀ r ∈ db,
    goneAfter schema db selected (db.length + 1) r = gone schema db selected r := by
  by_contra hunstable
  have hgrows (n : ℕ) (hn : n ≤ db.length) : ∃ r ∈ db,
      goneAfter schema db selected (n + 1) r ≠ goneAfter schema db selected n r := by
    by_contra hstable
    apply hunstable
    intro r hr
    have hsame : ∀ r ∈ db,
        goneAfter schema db selected (n + 1) r = goneAfter schema db selected n r := by
      intro r hr
      by_contra hne
      exact hstable ⟨r, hr, hne⟩
    have hlast := goneAfter_stable hsame (db.length - n) r hr
    have hnext := goneAfter_stable hsame (db.length + 1 - n) r hr
    rw [Nat.add_sub_cancel' hn] at hlast
    rw [Nat.add_sub_cancel' (hn.trans (Nat.le_succ _))] at hnext
    exact hnext.trans hlast.symm
  have hcount (n : ℕ) (hn : n ≤ db.length + 1) :
      n ≤ db.countP (goneAfter schema db selected n) := by
    induction n with
    | zero => exact Nat.zero_le _
    | succ n ih =>
      obtain ⟨r, hr, hne⟩ := hgrows n (Nat.le_of_succ_le_succ hn)
      exact (ih ((Nat.le_succ n).trans hn)).trans_lt (countP_goneAfter_lt hr hne)
  exact Nat.not_succ_le_self _ ((hcount _ le_rfl).trans List.countP_le_length)

lemma gone_of_goneAfter {n : ℕ} {r : DbRow τ κ ι α} (hr : r ∈ db)
    (h : goneAfter schema db selected n r = true) : gone schema db selected r = true := by
  rcases Nat.le_total n db.length with hn | hn
  · have hmono (m : ℕ) : goneAfter schema db selected (n + m) r = true := by
      induction m with
      | zero => exact h
      | succ m ih => exact goneAfter_mono ih
    rw [gone, ← Nat.add_sub_cancel' hn]
    exact hmono _
  · have hlast : ∀ r ∈ db, goneAfter schema db selected (db.length + 1) r =
        goneAfter schema db selected db.length r := gone_stable
    have hstable := goneAfter_stable hlast (n - db.length) r hr
    rw [Nat.add_sub_cancel' hn] at hstable
    exact hstable.symm.trans h

/-- A row is gone if it is selected, or if it refers to a row that is gone, by cascade. -/
theorem gone_iff {r : DbRow τ κ ι α} (hr : r ∈ db) : gone schema db selected r = true ↔
    selected r = true ∨ ∃ fk ∈ schema, fk.on_delete = .cascade ∧
      ∃ p ∈ db, gone schema db selected p = true ∧ fk.Refers r p := by
  constructor
  · generalize hn : db.length = n
    intro h
    rw [gone, hn] at h
    clear hn
    induction n with
    | zero => exact .inl h
    | succ n ih =>
      rw [goneAfter, Bool.or_eq_true] at h
      rcases h with h | h
      · exact ih h
      · right
        obtain ⟨fk, hfk, hany⟩ := List.any_eq_true.mp h
        rw [Bool.and_eq_true, decide_eq_true_eq, List.any_eq_true] at hany
        obtain ⟨hcascade, p, hp, hgone⟩ := hany
        rw [Bool.and_eq_true, decide_eq_true_eq] at hgone
        exact ⟨fk, hfk, hcascade, p, hp, gone_of_goneAfter hp hgone.1, hgone.2⟩
  · rintro (h | ⟨fk, hfk, hcascade, p, hp, hgone, hrefers⟩)
    · exact gone_of_goneAfter (n := 0) hr h
    · rw [← gone_stable r hr, goneAfter, Bool.or_eq_true]
      right
      refine List.any_eq_true.mpr ⟨fk, hfk, ?_⟩
      rw [decide_eq_true hcascade, Bool.true_and]
      refine List.any_eq_true.mpr ⟨p, hp, ?_⟩
      rw [Bool.and_eq_true, decide_eq_true_eq]
      exact ⟨hgone, hrefers⟩

/-- A table that no cascade reaches loses the selected rows only. -/
lemma gone_eq_selected {r : DbRow τ κ ι α} (hr : r ∈ db)
    (h : ∀ fk ∈ schema, fk.on_delete = .cascade → fk.child ≠ r.table) :
    gone schema db selected r = selected r := by
  rw [Bool.eq_iff_iff, gone_iff hr]
  refine ⟨?_, .inl⟩
  rintro (hselected | ⟨fk, hfk, hcascade, p, -, -, hrefers⟩)
  · exact hselected
  · exact absurd hrefers.1.symm (h fk hfk hcascade)

/-! ### Delete statements -/

variable [DecidableEq κ]

/-- The row after the rows in `removed` are gone. -/
def setNulls (schema : List (ForeignKey τ κ)) (removed : Database τ κ ι α) (r : DbRow τ κ ι α) :
    DbRow τ κ ι α :=
  { r with ref := fun c =>
      if schema.any fun fk => fk.on_delete = .setNull && fk.column = c &&
        removed.any fun p => decide (fk.Refers r p) then none else r.ref c }

/-- Delete the selected rows; the error is the foreign key that is violated. -/
def delete (schema : List (ForeignKey τ κ)) (selected : DbRow τ κ ι α → Bool)
    (db : Database τ κ ι α) : Except (ForeignKey τ κ) (Database τ κ ι α) :=
  let rows := cascade schema db selected
  let removed := (rows.filter fun x => x.1).map (·.2)
  let rest := (rows.filter fun x => !x.1).map (·.2)
  match schema.find? fun fk => fk.on_delete = .noAction &&
      rest.any fun r => removed.any fun p => decide (fk.Refers r p) with
  | some fk => .error fk
  | none => .ok (rest.map (setNulls schema removed))

/-- Every row that refers to a row that is gone is gone as well. -/
def Unreferenced (schema : List (ForeignKey τ κ)) (db : Database τ κ ι α)
    (Gone : DbRow τ κ ι α → Prop) : Prop :=
  ∀ fk ∈ schema, fk.on_delete = .noAction → ∀ r ∈ db, ∀ p ∈ db, fk.Refers r p → Gone p → Gone r

theorem delete_eq_ok {db' : Database τ κ ι α} : delete schema selected db = .ok db' ↔
    Unreferenced schema db (fun r => gone schema db selected r = true) ∧
    db' = (db.filter fun r => !gone schema db selected r).map
      (setNulls schema (db.filter (gone schema db selected))) := by
  have hremoved : ((cascade schema db selected).filter fun x => x.1).map (·.2) =
      db.filter (gone schema db selected) := by
    rw [cascade_eq, List.filter_map, List.map_map]
    exact List.map_id _
  have hrest : ((cascade schema db selected).filter fun x => !x.1).map (·.2) =
      db.filter fun r => !gone schema db selected r := by
    rw [cascade_eq, List.filter_map, List.map_map]
    exact List.map_id _
  simp only [delete, hremoved, hrest]
  split
  · next fk hfound =>
    refine ⟨nofun, ?_⟩
    rintro ⟨hunreferenced, -⟩
    have hfk := List.mem_of_find?_eq_some hfound
    have hviolated := List.find?_some hfound
    simp only [Bool.and_eq_true, decide_eq_true_eq, List.any_eq_true, List.mem_filter] at hviolated
    obtain ⟨hnoAction, r, ⟨hr, hkept⟩, p, ⟨hp, hgone⟩, hrefers⟩ := hviolated
    rw [hunreferenced fk hfk hnoAction r hr p hp hrefers hgone] at hkept
    cases hkept
  · next hnone =>
    rw [Except.ok.injEq, eq_comm (a := db')]
    refine ⟨fun h => ⟨?_, h⟩, fun h => h.2⟩
    intro fk hfk hnoAction r hr p hp hrefers hgone
    by_contra hkept
    apply List.find?_eq_none.mp hnone fk hfk
    simp only [Bool.and_eq_true, decide_eq_true_eq, List.any_eq_true, List.mem_filter]
    exact ⟨hnoAction, r, ⟨hr, by rwa [Bool.not_eq_true', ← Bool.not_eq_true]⟩, p, ⟨hp, hgone⟩,
      hrefers⟩

/-! ### Databases after deletes -/

/-- The same row, up to references that have been set to NULL. -/
structure Same (schema : List (ForeignKey τ κ)) (r r' : DbRow τ κ ι α) : Prop where
  table : r'.table = r.table
  id : r'.id = r.id
  data : r'.data = r.data
  ref : ∀ c, (∀ fk ∈ schema, fk.on_delete = .setNull → fk.child = r.table → fk.column ≠ c) →
    r'.ref c = r.ref c

/-- No column is set to NULL and checked as well. -/
def Separate (schema : List (ForeignKey τ κ)) : Prop :=
  ∀ fk ∈ schema, fk.on_delete = .noAction → ∀ fk' ∈ schema, fk'.on_delete = .setNull →
    fk'.child = fk.child → fk'.column ≠ fk.column

/-- In the tables of `core`, a database holds the rows of another one that are kept. -/
structure Represents (schema : List (ForeignKey τ κ)) (core : τ → Prop) (db : Database τ κ ι α)
    (Kept : DbRow τ κ ι α → Prop) (db' : Database τ κ ι α) : Prop where
  of_mem : ∀ r' ∈ db', core r'.table → ∃ r ∈ db, Kept r ∧ Same schema r r'
  mem : ∀ r ∈ db, core r.table → Kept r → ∃ r' ∈ db', Same schema r r'

omit [DecidableEq τ] [DecidableEq ι] [DecidableEq κ] in
lemma Same.refl (r : DbRow τ κ ι α) : Same schema r r := ⟨rfl, rfl, rfl, fun _ _ => rfl⟩

omit [DecidableEq τ] [DecidableEq ι] [DecidableEq κ] in
lemma Same.trans {r r' r'' : DbRow τ κ ι α} (h : Same schema r r') (h' : Same schema r' r'') :
    Same schema r r'' where
  table := h'.table.trans h.table
  id := h'.id.trans h.id
  data := h'.data.trans h.data
  ref c hc := by
    refine (h'.ref c ?_).trans (h.ref c hc)
    rw [h.table]
    exact hc

omit [DecidableEq τ] [DecidableEq ι] [DecidableEq κ] in
lemma Represents.refl (core : τ → Prop) (db : Database τ κ ι α) :
    Represents schema core db (fun _ => True) db where
  of_mem r hr _ := ⟨r, hr, trivial, .refl r⟩
  mem r hr _ _ := ⟨r, hr, .refl r⟩

lemma same_setNulls (removed : Database τ κ ι α) (r : DbRow τ κ ι α) :
    Same schema r (setNulls schema removed r) where
  table := rfl
  id := rfl
  data := rfl
  ref c hc := by
    have hnone : (schema.any fun fk => fk.on_delete = .setNull && fk.column = c &&
        removed.any fun p => decide (fk.Refers r p)) = false := by
      rw [List.any_eq_false]
      intro fk hfk hset
      simp only [Bool.and_eq_true, decide_eq_true_eq, List.any_eq_true] at hset
      obtain ⟨⟨hnull, hcolumn⟩, p, -, hrefers⟩ := hset
      exact hc fk hfk hnull hrefers.1.symm hcolumn
    simp only [setNulls, hnone, Bool.false_eq_true, if_false]

omit [DecidableEq τ] [DecidableEq ι] [DecidableEq κ] in
/-- A checked reference is that of the original row. -/
lemma Same.refers_iff {fk : ForeignKey τ κ} {r r' p p' : DbRow τ κ ι α}
    (hschema : Separate schema) (hfk : fk ∈ schema) (hnoAction : fk.on_delete = .noAction)
    (hr : Same schema r r') (hp : Same schema p p') : fk.Refers r' p' ↔ fk.Refers r p := by
  have hsame (hchild : r.table = fk.child) : r'.ref fk.column = r.ref fk.column := by
    apply hr.ref
    intro fk' hfk' hnull htable
    exact hschema fk hfk hnoAction fk' hfk' hnull (htable.trans hchild)
  simp only [ForeignKey.Refers, hr.table, hp.table, hp.id]
  constructor
  · rintro ⟨hchild, hparent, href⟩
    exact ⟨hchild, hparent, by rwa [← hsame hchild]⟩
  · rintro ⟨hchild, hparent, href⟩
    exact ⟨hchild, hparent, by rwa [hsame hchild]⟩

section

variable {core : τ → Prop} {Kept Gone : DbRow τ κ ι α → Prop} {db' db'' : Database τ κ ι α}

/-- A statement on a database that represents the kept rows of `db`: what it removes is said of the
rows of `db`. -/
def Removes (schema : List (ForeignKey τ κ)) (core : τ → Prop) (db : Database τ κ ι α)
    (Kept Gone : DbRow τ κ ι α → Prop)
    (selected : Database τ κ ι α → DbRow τ κ ι α → Bool) : Prop :=
  ∀ db', Represents schema core db Kept db' → ∀ r ∈ db, core r.table → Kept r →
    ∀ r' ∈ db', Same schema r r' → (gone schema db' (selected db') r' = true ↔ Gone r)

/-- The tables whose references are checked. -/
def CoreOf (schema : List (ForeignKey τ κ)) (core : τ → Prop) : Prop :=
  ∀ fk ∈ schema, fk.on_delete = .noAction → core fk.child ∧ core fk.parent

/-- A statement succeeds if every kept row that refers to a row that it removes is removed. -/
lemma delete_ok_iff {selected : Database τ κ ι α → DbRow τ κ ι α → Bool}
    (hschema : Separate schema) (hcore : CoreOf schema core)
    (hrep : Represents schema core db Kept db')
    (hremoves : Removes schema core db Kept Gone selected) :
    (∃ db'', delete schema (selected db') db' = .ok db'') ↔
      ∀ fk ∈ schema, fk.on_delete = .noAction → ∀ r ∈ db, ∀ p ∈ db, fk.Refers r p →
        Kept r → Kept p → Gone p → Gone r := by
  have hok : (∃ db'', delete schema (selected db') db' = .ok db'') ↔
      Unreferenced schema db' fun r => gone schema db' (selected db') r = true := by
    simp only [delete_eq_ok]
    exact ⟨fun ⟨_, h, _⟩ => h, fun h => ⟨_, h, rfl⟩⟩
  rw [hok]
  constructor
  · intro h fk hfk hnoAction r hr p hp hrefers hkept hkept' hgone
    obtain ⟨hchild, hparent⟩ := hcore fk hfk hnoAction
    rw [← hrefers.1] at hchild
    rw [← hrefers.2.1] at hparent
    obtain ⟨r', hr', hsame⟩ := hrep.mem r hr hchild hkept
    obtain ⟨p', hp', hsame'⟩ := hrep.mem p hp hparent hkept'
    apply (hremoves db' hrep r hr hchild hkept r' hr' hsame).mp
    apply h fk hfk hnoAction r' hr' p' hp'
    · exact (hsame.refers_iff hschema hfk hnoAction hsame').mpr hrefers
    · exact (hremoves db' hrep p hp hparent hkept' p' hp' hsame').mpr hgone
  · intro h fk hfk hnoAction r' hr' p' hp' hrefers hgone
    obtain ⟨hchild, hparent⟩ := hcore fk hfk hnoAction
    rw [← hrefers.1] at hchild
    rw [← hrefers.2.1] at hparent
    obtain ⟨r, hr, hkept, hsame⟩ := hrep.of_mem r' hr' hchild
    obtain ⟨p, hp, hkept', hsame'⟩ := hrep.of_mem p' hp' hparent
    rw [hsame.table] at hchild
    rw [hsame'.table] at hparent
    apply (hremoves db' hrep r hr hchild hkept r' hr' hsame).mpr
    apply h fk hfk hnoAction r hr p hp _ hkept hkept'
    · exact (hremoves db' hrep p hp hparent hkept' p' hp' hsame').mp hgone
    · exact (hsame.refers_iff hschema hfk hnoAction hsame').mp hrefers

/-- After a statement, the rows that it does not remove are kept. -/
lemma Represents.delete {selected : Database τ κ ι α → DbRow τ κ ι α → Bool}
    (hrep : Represents schema core db Kept db')
    (hremoves : Removes schema core db Kept Gone selected)
    (h : delete schema (selected db') db' = .ok db'') :
    Represents schema core db (fun r => Kept r ∧ ¬ Gone r) db'' := by
  obtain ⟨-, rfl⟩ := delete_eq_ok.mp h
  constructor
  · intro r'' hr'' hcore
    obtain ⟨r', hr', rfl⟩ := List.mem_map.mp hr''
    obtain ⟨hr', hkept'⟩ := List.mem_filter.mp hr'
    obtain ⟨r, hr, hkept, hsame⟩ := hrep.of_mem r' hr' hcore
    refine ⟨r, hr, ⟨hkept, ?_⟩, hsame.trans (same_setNulls _ _)⟩
    intro hgone
    have hcore' : core r.table := by
      rw [← hsame.table]
      exact hcore
    rw [(hremoves db' hrep r hr hcore' hkept r' hr' hsame).mpr hgone] at hkept'
    cases hkept'
  · rintro r hr hcore ⟨hkept, hnot⟩
    obtain ⟨r', hr', hsame⟩ := hrep.mem r hr hcore hkept
    refine ⟨_, List.mem_map_of_mem (List.mem_filter.mpr ⟨hr', ?_⟩),
      hsame.trans (same_setNulls _ _)⟩
    rw [Bool.not_eq_true']
    by_contra hgone
    rw [Bool.not_eq_false] at hgone
    exact hnot ((hremoves db' hrep r hr hcore hkept r' hr' hsame).mp hgone)

/-! ### Statements one after the other -/

/-- Each statement reads the database that the one before it has left. -/
def deleteAll (schema : List (ForeignKey τ κ)) :
    List (Database τ κ ι α → DbRow τ κ ι α → Bool) → Database τ κ ι α →
      Except (ForeignKey τ κ) (Database τ κ ι α)
  | [], db => .ok db
  | selected :: rest, db =>
    match delete schema (selected db) db with
    | .error fk => .error fk
    | .ok db => deleteAll schema rest db

/-- A statement, and what it removes. -/
structure Stage (τ κ ι α : Type*) where
  selected : Database τ κ ι α → DbRow τ κ ι α → Bool
  Gone : DbRow τ κ ι α → Prop

/-- Each statement removes what is said of it. -/
def AllRemove (schema : List (ForeignKey τ κ)) (core : τ → Prop) (db : Database τ κ ι α) :
    (DbRow τ κ ι α → Prop) → List (Stage τ κ ι α) → Prop
  | _, [] => True
  | Kept, stage :: stages => Removes schema core db Kept stage.Gone stage.selected ∧
      AllRemove schema core db (fun r => Kept r ∧ ¬ stage.Gone r) stages

/-- The order of the statements is one of the foreign keys: what refers to a row is gone when the
row is. -/
def AllCovered (schema : List (ForeignKey τ κ)) (db : Database τ κ ι α) :
    (DbRow τ κ ι α → Prop) → List (Stage τ κ ι α) → Prop
  | _, [] => True
  | Kept, stage :: stages =>
      (∀ fk ∈ schema, fk.on_delete = .noAction → ∀ r ∈ db, ∀ p ∈ db, fk.Refers r p →
        Kept r → Kept p → stage.Gone p → stage.Gone r) ∧
      AllCovered schema db (fun r => Kept r ∧ ¬ stage.Gone r) stages

theorem deleteAll_ok_iff {stages : List (Stage τ κ ι α)} (hschema : Separate schema)
    (hcore : CoreOf schema core) (hrep : Represents schema core db Kept db')
    (hremove : AllRemove schema core db Kept stages) :
    (∃ db'', deleteAll schema (stages.map (·.selected)) db' = .ok db'') ↔
      AllCovered schema db Kept stages := by
  induction stages generalizing Kept db' with
  | nil => exact ⟨fun _ => trivial, fun _ => ⟨db', rfl⟩⟩
  | cons stage stages ih =>
    obtain ⟨hfirst, hrest⟩ := hremove
    have hstep := delete_ok_iff hschema hcore hrep hfirst
    simp only [AllCovered, ← hstep, List.map_cons, deleteAll]
    cases hdelete : delete schema (stage.selected db') db' with
    | error fk =>
      refine ⟨?_, ?_⟩
      · rintro ⟨_, ⟨⟩⟩
      · rintro ⟨⟨_, ⟨⟩⟩, -⟩
    | ok db₁ =>
      rw [ih (hrep.delete hfirst hdelete) hrest]
      exact ⟨fun h => ⟨⟨db₁, rfl⟩, h⟩, fun h => h.2⟩

/-- After all statements, the rows that none of them removes are kept. -/
theorem Represents.deleteAll {stages : List (Stage τ κ ι α)}
    (hrep : Represents schema core db Kept db')
    (hremove : AllRemove schema core db Kept stages)
    (h : Database.deleteAll schema (stages.map (·.selected)) db' = .ok db'') :
    Represents schema core db (fun r => Kept r ∧ ∀ stage ∈ stages, ¬ stage.Gone r) db'' := by
  induction stages generalizing Kept db' with
  | nil =>
    cases h
    simpa using hrep
  | cons stage stages ih =>
    obtain ⟨hfirst, hrest⟩ := hremove
    simp only [List.map_cons, Database.deleteAll] at h
    cases hdelete : Database.delete schema (stage.selected db') db' with
    | error fk =>
      rw [hdelete] at h
      cases h
    | ok db₁ =>
      rw [hdelete] at h
      simpa only [List.forall_mem_cons, and_assoc] using ih (hrep.delete hfirst hdelete) hrest h

end

end Database

end Foundation
