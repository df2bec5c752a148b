import Arbeiterfarm.Foundation.ForeignKeys
import Mathlib.Data.List.Basic

/-!
# Statements under row policies

A row policy says, for each user, which rows a statement of the user sees and which rows it may
write; what it says is read off the database as it is before the statement. A statement reads the
rows that are visible, updates and deletes none but these, and fails if it writes a row that is not
allowed or leaves a database that is not valid. Foreign keys are enforced on all rows: a delete
cascades, and sets references to NULL, in rows that are not visible as well.

`execute_cases` says what a statement does to each row of the database; `view_execute` says that it
does to the rows that are visible what it would do to a database that has no others.
-/

namespace Foundation

variable {υ τ κ ι α : Type*}

/-! ### Statements -/

/-- A statement of a session: what it writes is computed from the rows that it sees. -/
inductive Statement (τ κ ι α : Type*) where
  | insert (rows : Database τ κ ι α → List (DbRow τ κ ι α))
  | update (change : Database τ κ ι α → DbRow τ κ ι α → Option (DbRow τ κ ι α))
  | delete (selected : Database τ κ ι α → DbRow τ κ ι α → Bool)

structure RowPolicy (υ τ κ ι α : Type*) where
  /-- The rows that are read, updated and deleted. -/
  visible : υ → Database τ κ ι α → DbRow τ κ ι α → Bool
  /-- The rows that may be inserted. -/
  insertable : υ → Database τ κ ι α → DbRow τ κ ι α → Bool
  /-- The rows that others may be changed into. -/
  updatable : υ → Database τ κ ι α → DbRow τ κ ι α → Bool

/-- An update does not move a row to another table. -/
def updated (change : DbRow τ κ ι α → Option (DbRow τ κ ι α)) (r : DbRow τ κ ι α) :
    DbRow τ κ ι α :=
  match change r with
  | some r' => { r' with table := r.table }
  | none => r

namespace Database

variable [DecidableEq τ] [DecidableEq ι]

instance (schema : List (ForeignKey τ κ)) (db : Database τ κ ι α) : Decidable (Valid schema db) :=
  decidable_of_iff
    (db.Pairwise (fun r r' => ¬ (r.table = r'.table ∧ r.id = r'.id)) ∧
      ∀ fk ∈ schema, ∀ r ∈ db, r.table = fk.child → (r.ref fk.column).isSome = true →
        ∃ p ∈ db, fk.Refers r p)
    ⟨fun h => ⟨h.1, h.2⟩, fun h => ⟨h.keys, h.refs⟩⟩

section

variable {schema : List (ForeignKey τ κ)} {db : Database τ κ ι α}
  {selected : DbRow τ κ ι α → Bool}

/-- What holds of the selected rows and follows the cascades holds of all rows that are gone. -/
lemma gone_induction {P : DbRow τ κ ι α → Prop} (hselected : ∀ r ∈ db, selected r = true → P r)
    (hcascade : ∀ fk ∈ schema, fk.on_delete = .cascade → ∀ r ∈ db, ∀ p ∈ db, fk.Refers r p →
      gone schema db selected p = true → P p → P r)
    {r : DbRow τ κ ι α} (hr : r ∈ db) (h : gone schema db selected r = true) : P r := by
  have hrounds (n : ℕ) : ∀ r ∈ db, goneAfter schema db selected n r = true → P r := by
    induction n with
    | zero => exact hselected
    | succ n ih =>
      intro r hr h
      rw [goneAfter, Bool.or_eq_true] at h
      rcases h with h | h
      · exact ih r hr h
      · obtain ⟨fk, hfk, hany⟩ := List.any_eq_true.mp h
        rw [Bool.and_eq_true, decide_eq_true_eq, List.any_eq_true] at hany
        obtain ⟨hon, p, hp, hgone⟩ := hany
        rw [Bool.and_eq_true, decide_eq_true_eq] at hgone
        exact hcascade fk hfk hon r hr p hp hgone.2 (gone_of_goneAfter hp hgone.1)
          (ih p hp hgone.1)
  exact hrounds db.length r hr h

end

end Database

namespace RowPolicy

open Database

variable [DecidableEq τ] [DecidableEq κ] [DecidableEq ι]
variable (P : RowPolicy υ τ κ ι α) (schema : List (ForeignKey τ κ)) (u : υ)

/-- What a session of the user reads. -/
def view (db : Database τ κ ι α) : Database τ κ ι α := db.filter (P.visible u db)

/-- Execute a statement of the user. -/
def execute (db : Database τ κ ι α) (st : Statement τ κ ι α) : Option (Database τ κ ι α) :=
  let db' :=
    match st with
    | .insert rows =>
      let new := rows (P.view u db)
      if new.all (P.insertable u db) then some (db ++ new) else none
    | .update change =>
      let change := change (P.view u db)
      if (P.view u db).all fun r => (change r).isNone || P.updatable u db (updated change r) then
        some (db.map fun r => if P.visible u db r then updated change r else r)
      else none
    | .delete selected =>
      match Database.delete schema
        (fun r => P.visible u db r && selected (P.view u db) r) db with
      | .ok db' => some db'
      | .error _ => none
  db'.filter fun db' => decide (Valid schema db')

end RowPolicy

/-- What a statement does to a database in which all rows are visible and nothing is checked. -/
def Statement.effect [DecidableEq τ] [DecidableEq κ] [DecidableEq ι]
    (schema : List (ForeignKey τ κ)) (db : Database τ κ ι α) :
    Statement τ κ ι α → Database τ κ ι α
  | .insert rows => db ++ rows db
  | .update change => db.map (updated (change db))
  | .delete selected =>
    (db.filter fun r => !Database.gone schema db (selected db) r).map
      (Database.setNulls schema (db.filter (Database.gone schema db (selected db))))

namespace RowPolicy

open Database

variable [DecidableEq τ] [DecidableEq κ] [DecidableEq ι]
variable {P : RowPolicy υ τ κ ι α} {schema : List (ForeignKey τ κ)} {u : υ}
  {db db' : Database τ κ ι α} {st : Statement τ κ ι α}

/-- What is deleted by cascade is visible, if what it refers to is. -/
def CascadesVisible (P : RowPolicy υ τ κ ι α) (schema : List (ForeignKey τ κ)) (u : υ)
    (db : Database τ κ ι α) : Prop :=
  ∀ fk ∈ schema, fk.on_delete = .cascade → ∀ r ∈ db, ∀ p ∈ db, fk.Refers r p →
    P.visible u db p = true → P.visible u db r = true

/-- Each row becomes what `g` says, and the rows `new` are added. -/
structure Writes (P : RowPolicy υ τ κ ι α) (schema : List (ForeignKey τ κ)) (u : υ)
    (db : Database τ κ ι α) (g : DbRow τ κ ι α → Option (DbRow τ κ ι α))
    (new : List (DbRow τ κ ι α)) : Prop where
  hidden : ∀ r ∈ db, P.visible u db r = false → ∃ r', g r = some r' ∧ Same schema r r'
  visible : ∀ r ∈ db, P.visible u db r = true → ∀ r', g r = some r' →
    Same schema r r' ∨ r'.table = r.table ∧ P.updatable u db r' = true
  new : ∀ r ∈ new, P.insertable u db r = true

lemma execute_valid (h : P.execute schema u db st = some db') : Valid schema db' := by
  have hvalid := (Option.filter_eq_some_iff.mp h).2
  rwa [decide_eq_true_eq] at hvalid

omit [DecidableEq κ] in
/-- The rows that a delete of the user removes are visible. -/
lemma visible_of_gone (hcascades : CascadesVisible P schema u db)
    {selected : DbRow τ κ ι α → Bool} {r : DbRow τ κ ι α} (hr : r ∈ db)
    (h : gone schema db (fun r => P.visible u db r && selected r) r = true) :
    P.visible u db r = true := by
  refine gone_induction (P := fun r => P.visible u db r = true) ?_ ?_ hr h
  · intro r _ hselected
    exact (Bool.and_eq_true_iff.mp hselected).1
  · intro fk hfk hon r hr p hp hrefers _ hvisible
    exact hcascades fk hfk hon r hr p hp hrefers hvisible

omit [DecidableEq κ] in
/-- Whether a visible row is gone is decided among the visible rows. -/
lemma gone_view (hcascades : CascadesVisible P schema u db) {selected : DbRow τ κ ι α → Bool}
    {r : DbRow τ κ ι α} (hr : r ∈ db) (hvisible : P.visible u db r = true) :
    gone schema db (fun r => P.visible u db r && selected r) r =
      gone schema (P.view u db) selected r := by
  have hmem {p : DbRow τ κ ι α} (hp : p ∈ db) (hvisible : P.visible u db p = true) :
      p ∈ P.view u db := List.mem_filter.mpr ⟨hp, hvisible⟩
  rw [Bool.eq_iff_iff]
  constructor
  · intro h
    refine gone_induction (P := fun r => gone schema (P.view u db) selected r = true) ?_ ?_ hr h
    · intro r hr hselected
      obtain ⟨hvisible, hselected⟩ := Bool.and_eq_true_iff.mp hselected
      exact (gone_iff (hmem hr hvisible)).mpr (.inl hselected)
    · intro fk hfk hon r hr p hp hrefers hgone hgone'
      have hvisible := visible_of_gone hcascades hp hgone
      refine (gone_iff (hmem hr (hcascades fk hfk hon r hr p hp hrefers hvisible))).mpr (.inr ?_)
      exact ⟨fk, hfk, hon, p, hmem hp hvisible, hgone', hrefers⟩
  · intro h
    refine gone_induction
      (P := fun r => gone schema db (fun r => P.visible u db r && selected r) r = true)
      ?_ ?_ (hmem hr hvisible) h
    · intro r hr hselected
      obtain ⟨hr, hvisible⟩ := List.mem_filter.mp hr
      exact (gone_iff hr).mpr (.inl (Bool.and_eq_true_iff.mpr ⟨hvisible, hselected⟩))
    · intro fk hfk hon r hr p hp hrefers _ hgone
      have hp := (List.mem_filter.mp hp).1
      exact (gone_iff (List.mem_filter.mp hr).1).mpr (.inr ⟨fk, hfk, hon, p, hp, hgone, hrefers⟩)

/-- What a statement does: rows that are not visible stay the same, up to references that are set to
NULL; rows that are visible stay so too, are deleted, or become rows that are allowed; and the
visible rows change as they would if there were no others. -/
theorem execute_cases (hcascades : CascadesVisible P schema u db)
    (h : P.execute schema u db st = some db') : ∃ g new, Writes P schema u db g new ∧
      db' = db.filterMap g ++ new ∧
      st.effect schema (P.view u db) = (P.view u db).filterMap g ++ new := by
  have h := (Option.filter_eq_some_iff.mp h).1
  cases st with
  | insert rows =>
    simp only at h
    split at h <;> cases h
    next hall =>
    refine ⟨some, rows (P.view u db), ⟨?_, ?_, ?_⟩, ?_, ?_⟩
    · exact fun r _ _ => ⟨r, rfl, .refl r⟩
    · rintro r _ _ r' ⟨⟩
      exact .inl (.refl r)
    · exact List.all_eq_true.mp hall
    · rw [List.filterMap_some]
    · rw [List.filterMap_some, Statement.effect]
  | update change =>
    simp only at h
    split at h <;> cases h
    next hall =>
    refine ⟨fun r => some (if P.visible u db r then updated (change (P.view u db)) r else r), [],
      ⟨?_, ?_, nofun⟩, ?_, ?_⟩
    · intro r _ hhidden
      refine ⟨r, ?_, .refl r⟩
      rw [hhidden]
      rfl
    · rintro r hr hvisible r' ⟨⟩
      have hwrite := List.all_eq_true.mp hall r (List.mem_filter.mpr ⟨hr, hvisible⟩)
      rw [if_pos hvisible]
      rcases Bool.or_eq_true_iff.mp hwrite with hnone | hupdatable
      · left
        rw [updated, Option.isNone_iff_eq_none.mp hnone]
        exact .refl r
      · right
        refine ⟨?_, hupdatable⟩
        rw [updated]
        split <;> rfl
    · rw [List.filterMap_eq_map', List.append_nil]
    · rw [List.filterMap_eq_map', List.append_nil, Statement.effect]
      apply List.map_congr_left
      intro r hr
      rw [if_pos (List.mem_filter.mp hr).2]
  | delete selected =>
    simp only at h
    split at h <;> cases h
    next hdelete =>
    obtain ⟨-, rfl⟩ := delete_eq_ok.mp hdelete
    have hremoved : db.filter
        (gone schema db fun r => P.visible u db r && selected (P.view u db) r) =
          (P.view u db).filter (gone schema (P.view u db) (selected (P.view u db))) := by
      rw [view, List.filter_filter]
      apply List.filter_congr
      intro r hr
      cases hvisible : P.visible u db r with
      | true => rw [gone_view hcascades hr hvisible, Bool.and_true, view]
      | false =>
        rw [Bool.and_false, ← Bool.not_eq_true]
        intro hgone
        rw [visible_of_gone hcascades hr hgone] at hvisible
        cases hvisible
    rw [hremoved]
    refine ⟨fun r =>
      if gone schema db (fun r => P.visible u db r && selected (P.view u db) r) r then none
      else some (setNulls schema
        ((P.view u db).filter (gone schema (P.view u db) (selected (P.view u db)))) r), [],
      ⟨?_, ?_, nofun⟩, ?_, ?_⟩
    · intro r hr hhidden
      refine ⟨_, if_neg ?_, same_setNulls _ r⟩
      intro hgone
      rw [visible_of_gone hcascades hr hgone] at hhidden
      cases hhidden
    · intro r _ _ r' hr'
      split at hr' <;> cases hr'
      exact .inl (same_setNulls _ r)
    · rw [List.append_nil, ← List.filterMap_eq_map', List.filterMap_filter]
      apply List.filterMap_congr
      intro r _
      cases gone schema db (fun r => P.visible u db r && selected (P.view u db) r) r <;> rfl
    · rw [List.append_nil, Statement.effect, ← List.filterMap_eq_map', List.filterMap_filter]
      apply List.filterMap_congr
      intro r hr
      obtain ⟨hr, hvisible⟩ := List.mem_filter.mp hr
      rw [gone_view hcascades hr hvisible]
      cases gone schema (P.view u db) (selected (P.view u db)) r <;> rfl

/-- When hidden rows stay hidden, and what is visible among the others is decided among them, the
session sees afterwards what the statement makes of what it saw. -/
theorem view_execute (hcascades : CascadesVisible P schema u db)
    (h : P.execute schema u db st = some db')
    (hlocal : ∀ g new, Writes P schema u db g new → db' = db.filterMap g ++ new →
      (∀ r ∈ db, P.visible u db r = false → ∀ r', g r = some r' → P.visible u db' r' = false) ∧
      ∀ r ∈ (P.view u db).filterMap g ++ new,
        P.visible u db' r = P.visible u ((P.view u db).filterMap g ++ new) r) :
    P.view u db' = P.view u (st.effect schema (P.view u db)) := by
  obtain ⟨g, new, hwrites, rfl, heffect⟩ := execute_cases hcascades h
  obtain ⟨hhidden, hsame⟩ := hlocal g new hwrites rfl
  rw [heffect, view, view, List.filter_append, List.filter_append]
  have hkept : (db.filterMap g).filter (P.visible u (db.filterMap g ++ new)) =
      ((P.view u db).filterMap g).filter (P.visible u (db.filterMap g ++ new)) := by
    rw [List.filter_filterMap, List.filter_filterMap, view, List.filterMap_filter]
    apply List.filterMap_congr
    intro r hr
    cases hvisible : P.visible u db r with
    | true => rfl
    | false =>
      cases hg : g r with
      | none => rfl
      | some r' => simp [hhidden r hr hvisible r' hg]
  rw [hkept]
  congr 1
  · apply List.filter_congr
    intro r hr
    exact hsame r (List.mem_append_left _ hr)
  · apply List.filter_congr
    intro r hr
    exact hsame r (List.mem_append_right _ hr)

end RowPolicy

end Foundation
