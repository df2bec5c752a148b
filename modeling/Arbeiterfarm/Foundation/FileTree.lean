import Mathlib.Data.List.Basic
import Mathlib.Data.Option.Basic

/-!
# File trees with links

A file system is a tree of named entries. A path that is followed from its root may lead through
symbolic links, up to a limit. What it leads to in the end has a path of its own without links, and
whether that lies below a directory can be seen from its names alone.
-/

namespace Foundation

/-- A step of a path: stay in the directory, go to its parent, or to an entry. -/
inductive PathStep (κ : Type*) where
  | stay
  | up
  | down (name : κ)
  deriving DecidableEq

/-- The steps go down by the names, one after the other, and may stay before each of them. -/
inductive Spells {κ : Type*} : List (PathStep κ) → List κ → Prop
  | nil : Spells [] []
  | stay {steps : List (PathStep κ)} {names : List κ} (hne : names ≠ []) (h : Spells steps names) :
    Spells (.stay :: steps) names
  | down (name : κ) {steps : List (PathStep κ)} {names : List κ} (h : Spells steps names) :
    Spells (.down name :: steps) (name :: names)

lemma spells_map_down {κ : Type*} (names : List κ) : Spells (names.map .down) names := by
  induction names with
  | nil => exact .nil
  | cons name names ih => exact .down name ih

lemma Spells.up_not_mem {κ : Type*} {steps : List (PathStep κ)} {names : List κ}
    (h : Spells steps names) : .up ∉ steps := by
  induction h with
  | nil => simp
  | stay _ _ ih => simpa using ih
  | down name _ ih => simpa using ih

inductive FileTree (κ β : Type*) where
  | file (content : β)
  | dir (entries : List (κ × FileTree κ β))
  /-- The target is followed from the root or from the directory of the link. -/
  | link (absolute : Bool) (target : List (PathStep κ))

namespace FileTree

variable {κ β : Type*} [DecidableEq κ]

def IsLink : FileTree κ β → Prop
  | link _ _ => True
  | file _ | dir _ => False

/-! ### Walking down -/

def entry (t : FileTree κ β) (name : κ) : Option (FileTree κ β) :=
  match t with
  | dir entries => entries.lookup name
  | file _ | link _ _ => none

/-- What is at the path, if it does not lead through a link. -/
def walk (t : FileTree κ β) : List κ → Option (FileTree κ β)
  | [] => some t
  | name :: path => (t.entry name).bind fun t => t.walk path

@[simp] lemma walk_nil (t : FileTree κ β) : t.walk [] = some t := rfl

@[simp] lemma walk_cons (t : FileTree κ β) (name : κ) (path : List κ) :
    t.walk (name :: path) = (t.entry name).bind fun t => t.walk path := rfl

lemma walk_append (t : FileTree κ β) (path rest : List κ) :
    t.walk (path ++ rest) = (t.walk path).bind fun t => t.walk rest := by
  induction path generalizing t with
  | nil => rfl
  | cons name path ih =>
    simp only [List.cons_append, walk_cons, Option.bind_assoc]
    cases t.entry name with
    | none => rfl
    | some u => simp [ih u]

lemma not_isLink_of_entry {t u : FileTree κ β} {name : κ} (h : t.entry name = some u) :
    ¬ t.IsLink := by
  cases t with
  | dir entries => exact id
  | file content => cases h
  | link absolute target => cases h

/-! ### Following a path -/

/-- There is something at the path, and it is not a link. -/
def Plain (root : FileTree κ β) (path : List κ) : Prop :=
  ∃ t, root.walk path = some t ∧ ¬ t.IsLink

lemma plain_of_append {root : FileTree κ β} {path rest : List κ}
    (h : root.Plain (path ++ rest)) : root.Plain path := by
  obtain ⟨t, ht, hlink⟩ := h
  rw [walk_append] at ht
  obtain ⟨u, hu, hut⟩ := Option.bind_eq_some_iff.mp ht
  refine ⟨u, hu, ?_⟩
  cases rest with
  | nil =>
    cases hut
    exact hlink
  | cons name rest =>
    obtain ⟨v, hv, -⟩ := Option.bind_eq_some_iff.mp hut
    exact not_isLink_of_entry hv

lemma Plain.nil {root : FileTree κ β} {path : List κ} (h : root.Plain path) : root.Plain [] := by
  rw [← List.nil_append path] at h
  exact plain_of_append h

lemma Plain.dropLast {root : FileTree κ β} {path : List κ} (h : root.Plain path) :
    root.Plain path.dropLast := by
  by_cases hnil : path = []
  · rw [hnil] at h ⊢
    exact h
  · rw [← List.dropLast_append_getLast hnil] at h
    exact plain_of_append h

section

variable (root : FileTree κ β)

/-- Follow the steps from a path; `next` goes on behind a link. -/
def follow (next : List κ → List (PathStep κ) → Option (List κ)) :
    List κ → List (PathStep κ) → Option (List κ)
  | path, [] => some path
  | path, step :: steps =>
    match root.walk path with
    | some (.dir entries) =>
      match step with
      | .stay => follow next path steps
      | .up => follow next path.dropLast steps
      | .down name =>
        match entries.lookup name with
        | none => none
        | some (.link absolute target) => next (if absolute then [] else path) (target ++ steps)
        | some _ => follow next (path ++ [name]) steps
    | _ => none

/-- Follow the steps through at most as many links. -/
def resolve : ℕ → List κ → List (PathStep κ) → Option (List κ)
  | 0 => root.follow fun _ _ => none
  | links + 1 => root.follow (resolve links)

variable {root}

lemma plain_of_follow {next : List κ → List (PathStep κ) → Option (List κ)}
    (hnext : ∀ {path path' : List κ} {steps : List (PathStep κ)}, root.Plain path →
      next path steps = some path' → root.Plain path')
    {path path' : List κ} {steps : List (PathStep κ)} (h : root.Plain path)
    (hfollow : root.follow next path steps = some path') : root.Plain path' := by
  induction steps generalizing path with
  | nil =>
    cases hfollow
    exact h
  | cons step steps ih =>
    rw [follow] at hfollow
    split at hfollow
    · next entries hwalk =>
      cases step with
      | stay => exact ih h hfollow
      | up => exact ih h.dropLast hfollow
      | down name =>
        dsimp only at hfollow
        have hentry {t : FileTree κ β} (ht : entries.lookup name = some t) :
            root.walk (path ++ [name]) = some t := by
          rw [walk_append, hwalk]
          simp [entry, ht]
        split at hfollow
        · cases hfollow
        · next absolute target _ =>
          apply hnext _ hfollow
          cases absolute with
          | true => exact h.nil
          | false => exact h
        · next t hlink hlookup =>
          refine ih ⟨t, hentry hlookup, ?_⟩ hfollow
          cases t with
          | link absolute target => exact absurd rfl (hlink absolute target)
          | _ => exact id
    · cases hfollow

/-- What a path leads to is not a link, and no link is on its own path. -/
theorem plain_of_resolve {links : ℕ} {path path' : List κ} {steps : List (PathStep κ)}
    (h : root.Plain path) (hresolve : root.resolve links path steps = some path') :
    root.Plain path' := by
  induction links generalizing path path' steps with
  | zero => exact plain_of_follow (fun _ hnone => by cases hnone) h hresolve
  | succ links ih => exact plain_of_follow (fun hplain hnext => ih hplain hnext) h hresolve

/-- Only in a directory there is something further down. -/
lemma exists_dir_of_plain {path names : List κ} (hne : names ≠ [])
    (h : root.Plain (path ++ names)) : ∃ entries, root.walk path = some (.dir entries) := by
  obtain ⟨t, ht, -⟩ := h
  rw [walk_append] at ht
  obtain ⟨u, hu, hut⟩ := Option.bind_eq_some_iff.mp ht
  obtain ⟨name, rest, rfl⟩ := List.exists_cons_of_ne_nil hne
  cases u with
  | dir entries => exact ⟨entries, hu⟩
  | file content => cases hut
  | link absolute target => cases hut

lemma follow_spelled {next : List κ → List (PathStep κ) → Option (List κ)} {path names : List κ}
    {steps : List (PathStep κ)} (hsteps : Spells steps names) (h : root.Plain (path ++ names)) :
    root.follow next path steps = some (path ++ names) := by
  induction hsteps generalizing path with
  | nil => rw [List.append_nil]; rfl
  | stay hne _ ih =>
    obtain ⟨entries, hdir⟩ := exists_dir_of_plain hne h
    rw [follow, hdir]
    exact ih h
  | @down name steps names _ ih =>
    obtain ⟨entries, hdir⟩ := exists_dir_of_plain (by simp) h
    rw [List.append_cons] at h ⊢
    obtain ⟨t, ht, hlink⟩ := plain_of_append h
    have hlookup : entries.lookup name = some t := by simpa [walk_append, hdir, entry] using ht
    rw [follow, hdir]
    dsimp only
    rw [hlookup]
    cases t with
    | link absolute target => exact absurd trivial hlink
    | file content => exact ih h
    | dir entries' => exact ih h

lemma follow_append {next : List κ → List (PathStep κ) → Option (List κ)}
    {more : List (PathStep κ)} {path' path'' : List κ}
    (hmore : root.follow next path' more = some path'')
    (hnext : ∀ {path : List κ} {steps : List (PathStep κ)}, next path steps = some path' →
      next path (steps ++ more) = some path'')
    {path : List κ} {steps : List (PathStep κ)} (h : root.follow next path steps = some path') :
    root.follow next path (steps ++ more) = some path'' := by
  induction steps generalizing path with
  | nil =>
    cases h
    exact hmore
  | cons step steps ih =>
    rw [List.cons_append, follow]
    rw [follow] at h
    split at h
    · next entries hwalk =>
      cases step with
      | stay => exact ih h
      | up => exact ih h
      | down name =>
        dsimp only at h ⊢
        cases hlookup : entries.lookup name with
        | none =>
          rw [hlookup] at h
          cases h
        | some t =>
          rw [hlookup] at h
          cases t with
          | link absolute target =>
            dsimp only at h ⊢
            rw [← List.append_assoc]
            exact hnext h
          | file content => exact ih h
          | dir entries' => exact ih h
    · cases h

/-- Two paths in a row, if the second one can be followed without links. -/
theorem resolve_append {links : ℕ} {path path' path'' : List κ} {steps more : List (PathStep κ)}
    (hmore : ∀ links, root.resolve links path' more = some path'')
    (h : root.resolve links path steps = some path') :
    root.resolve links path (steps ++ more) = some path'' := by
  induction links generalizing path steps with
  | zero =>
    refine follow_append (hmore 0) ?_ h
    intro path steps hnone
    cases hnone
  | succ links ih => exact follow_append (hmore (links + 1)) ih h

/-- A path without links leads to what is at it, however it is spelled. -/
theorem resolve_spelled {links : ℕ} {path names : List κ} {steps : List (PathStep κ)}
    (hsteps : Spells steps names) (h : root.Plain (path ++ names)) :
    root.resolve links path steps = some (path ++ names) := by
  cases links with
  | zero => exact follow_spelled hsteps h
  | succ links => exact follow_spelled hsteps h

end

end FileTree

end Foundation
