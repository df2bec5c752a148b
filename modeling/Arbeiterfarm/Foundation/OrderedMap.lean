import Mathlib.Data.List.Basic
import Mathlib.Data.List.Perm.Basic
import Mathlib.Order.Lattice

/-!
# Ordered maps and sets

The entries of an ordered map are listed by ascending key. The operations are those that a
work queue of numbered groups needs: push to a group, take the first group, and filter or
rewrite what is in them.

Counting arguments only look at `elems`, the members of all groups in order; there is one lemma
for each operation about it. There is one as well about `get`, the members of one group, and about
`pairs`, the members with the keys of their groups.

The elements of an ordered set are listed in ascending order, each of them once.
-/

namespace Foundation

variable {κ α : Type*} [LinearOrder κ]

/-- A map from keys to lists. -/
structure OrderedMap (κ α : Type*) [LinearOrder κ] where
  entries : List (κ × List α)
  sorted : (entries.map Prod.fst).Pairwise (· < ·)

namespace OrderedMap

@[ext] lemma ext {m n : OrderedMap κ α} (h : m.entries = n.entries) : m = n := by
  cases m
  cases n
  simpa using h

def empty : OrderedMap κ α := ⟨[], by simp⟩

def firstKey? (m : OrderedMap κ α) : Option κ := m.entries.head?.map Prod.fst

/-- The members of all groups, by ascending key. -/
def elems (m : OrderedMap κ α) : List α := m.entries.flatMap Prod.snd

/-! ### Looking up a group -/

def getEntry (k : κ) : List (κ × List α) → List α
  | [] => []
  | (k', as) :: l => if k = k' then as else getEntry k l

/-- The members of a group; a group that is not there has none. -/
def get (k : κ) (m : OrderedMap κ α) : List α := getEntry k m.entries

lemma getEntry_of_forall_lt {k : κ} {l : List (κ × List α)} (h : ∀ e ∈ l, k < e.1) :
    getEntry k l = [] := by
  induction l with
  | nil => rfl
  | cons e l ih =>
    obtain ⟨hlt, hrest⟩ := List.forall_mem_cons.mp h
    rw [getEntry, if_neg hlt.ne, ih hrest]

lemma mem_of_mem_getEntry {k : κ} {a : α} {l : List (κ × List α)} (h : a ∈ getEntry k l) :
    ∃ as, (k, as) ∈ l ∧ a ∈ as := by
  induction l with
  | nil => cases h
  | cons e l ih =>
    obtain ⟨k', as⟩ := e
    rw [getEntry] at h
    split_ifs at h with hk
    · subst hk
      exact ⟨as, List.mem_cons_self, h⟩
    · obtain ⟨bs, hbs, ha⟩ := ih h
      exact ⟨bs, List.mem_cons_of_mem _ hbs, ha⟩

lemma getEntry_eq_of_mem {k : κ} {as : List α} {l : List (κ × List α)}
    (hsorted : (l.map Prod.fst).Pairwise (· < ·)) (h : (k, as) ∈ l) : getEntry k l = as := by
  induction l with
  | nil => cases h
  | cons e l ih =>
    obtain ⟨hhead, htail⟩ := List.pairwise_cons.mp hsorted
    rw [getEntry]
    rcases List.mem_cons.mp h with rfl | h
    · rw [if_pos rfl]
    · rw [if_neg (hhead k (List.mem_map_of_mem h)).ne', ih htail h]

lemma mem_elems_iff {a : α} {m : OrderedMap κ α} : a ∈ m.elems ↔ ∃ k, a ∈ m.get k := by
  rw [elems, List.mem_flatMap]
  constructor
  · rintro ⟨⟨k, as⟩, he, ha⟩
    exact ⟨k, by rwa [get, getEntry_eq_of_mem m.sorted he]⟩
  · rintro ⟨k, ha⟩
    obtain ⟨as, he, ha⟩ := mem_of_mem_getEntry ha
    exact ⟨(k, as), he, ha⟩

/-! ### Pushing to a group -/

def pushEntry (k : κ) (a : α) : List (κ × List α) → List (κ × List α)
  | [] => [(k, [a])]
  | (k', as) :: l =>
    if k < k' then (k, [a]) :: (k', as) :: l
    else if k = k' then (k', as ++ [a]) :: l
    else (k', as) :: pushEntry k a l

lemma key_of_mem_pushEntry {k k' : κ} {a : α} {l : List (κ × List α)}
    (h : k' ∈ (pushEntry k a l).map Prod.fst) : k' = k ∨ k' ∈ l.map Prod.fst := by
  induction l with
  | nil => simpa [pushEntry] using h
  | cons e l ih =>
    obtain ⟨k₀, as⟩ := e
    simp only [pushEntry] at h
    split_ifs at h with hlt heq
    · simpa using h
    · exact .inr h
    · rcases List.mem_cons.mp h with rfl | h
      · simp
      · exact (ih h).imp_right (List.mem_cons_of_mem _)

lemma sorted_pushEntry {k : κ} {a : α} {l : List (κ × List α)}
    (h : (l.map Prod.fst).Pairwise (· < ·)) :
    ((pushEntry k a l).map Prod.fst).Pairwise (· < ·) := by
  induction l with
  | nil => simp [pushEntry]
  | cons e l ih =>
    obtain ⟨k₀, as⟩ := e
    obtain ⟨hhead, htail⟩ := List.pairwise_cons.mp h
    simp only [pushEntry]
    split_ifs with hlt heq
    · refine List.pairwise_cons.mpr ⟨fun k' hk' => ?_, h⟩
      rcases List.mem_cons.mp hk' with rfl | hk'
      · exact hlt
      · exact hlt.trans (hhead k' hk')
    · exact h
    · refine List.pairwise_cons.mpr ⟨fun k' hk' => ?_, ih htail⟩
      rcases key_of_mem_pushEntry hk' with rfl | hk'
      · exact lt_of_le_of_ne (not_lt.mp hlt) (Ne.symm heq)
      · exact hhead k' hk'

/-- `entry(k).or_default().push(a)` -/
def push (k : κ) (a : α) (m : OrderedMap κ α) : OrderedMap κ α :=
  ⟨pushEntry k a m.entries, sorted_pushEntry m.sorted⟩

lemma elems_push (k : κ) (a : α) (m : OrderedMap κ α) : (m.push k a).elems.Perm (a :: m.elems) := by
  simp only [elems, push]
  induction m.entries with
  | nil => simp [pushEntry]
  | cons e l ih =>
    obtain ⟨k₀, as⟩ := e
    simp only [pushEntry]
    split_ifs
    · simp
    · simp
    · rw [List.flatMap_cons, List.flatMap_cons]
      exact (ih.append_left as).trans List.perm_middle

lemma getEntry_pushEntry (k k' : κ) (a : α) (l : List (κ × List α))
    (hsorted : (l.map Prod.fst).Pairwise (· < ·)) :
    getEntry k' (pushEntry k a l) = if k' = k then getEntry k l ++ [a] else getEntry k' l := by
  induction l with
  | nil => simp [pushEntry, getEntry]
  | cons e l ih =>
    obtain ⟨k₀, as⟩ := e
    obtain ⟨hhead, htail⟩ := List.pairwise_cons.mp hsorted
    rw [pushEntry]
    by_cases hlt : k < k₀
    · -- the group is new, and the first one
      have hnone : getEntry k ((k₀, as) :: l) = [] := by
        apply getEntry_of_forall_lt
        intro e he
        rcases List.mem_cons.mp he with rfl | he
        · exact hlt
        · exact hlt.trans (hhead e.1 (List.mem_map_of_mem he))
      rw [if_pos hlt, hnone, List.nil_append, getEntry]
    · rw [if_neg hlt]
      by_cases heq : k = k₀
      · subst heq
        rw [if_pos rfl, getEntry, getEntry, if_pos rfl]
        by_cases hk : k' = k
        · rw [if_pos hk, if_pos hk]
        · rw [if_neg hk, if_neg hk, getEntry, if_neg hk]
      · rw [if_neg heq, getEntry, getEntry, if_neg heq, getEntry, ih htail]
        by_cases hk : k' = k
        · rw [if_pos hk, if_pos hk, hk, if_neg heq]
        · rw [if_neg hk, if_neg hk]

lemma get_push (k k' : κ) (a : α) (m : OrderedMap κ α) :
    (m.push k a).get k' = if k' = k then m.get k ++ [a] else m.get k' :=
  getEntry_pushEntry k k' a m.entries m.sorted

/-! ### Taking the first group -/

def popFirst (m : OrderedMap κ α) : Option (κ × List α × OrderedMap κ α) :=
  match m with
  | ⟨[], _⟩ => none
  | ⟨(k, as) :: l, h⟩ => some (k, as, ⟨l, (List.pairwise_cons.mp h).2⟩)

lemma entries_popFirst {m n : OrderedMap κ α} {k : κ} {as : List α}
    (h : m.popFirst = some (k, as, n)) : m.entries = (k, as) :: n.entries := by
  obtain ⟨l, hl⟩ := m
  cases l with
  | nil => simp [popFirst] at h
  | cons e l =>
    simp only [popFirst, Option.some.injEq, Prod.mk.injEq] at h
    obtain ⟨rfl, rfl, rfl⟩ := h
    rfl

lemma elems_popFirst {m n : OrderedMap κ α} {k : κ} {as : List α}
    (h : m.popFirst = some (k, as, n)) : m.elems = as ++ n.elems := by
  rw [elems, entries_popFirst h, List.flatMap_cons, elems]

/-- The first group has the least key. -/
lemma lt_of_popFirst {m n : OrderedMap κ α} {k : κ} {as : List α}
    (h : m.popFirst = some (k, as, n)) : ∀ e ∈ n.entries, k < e.1 := by
  have hsorted := m.sorted
  rw [entries_popFirst h, List.map_cons] at hsorted
  intro e he
  exact (List.pairwise_cons.mp hsorted).1 _ (List.mem_map_of_mem he)

lemma mem_get_of_popFirst {m n : OrderedMap κ α} {k k' : κ} {as : List α} {a : α}
    (h : m.popFirst = some (k, as, n)) (ha : a ∈ n.get k') : a ∈ m.get k' := by
  obtain ⟨bs, hbs, ha⟩ := mem_of_mem_getEntry ha
  have hmem : (k', bs) ∈ m.entries := by
    rw [entries_popFirst h]
    exact List.mem_cons_of_mem _ hbs
  rwa [get, getEntry_eq_of_mem m.sorted hmem]

/-! ### Rewriting the groups -/

/-- Rewrite every group; a group that `f` maps to `none` is removed. -/
def filterMapGroups (f : κ → List α → Option (List α)) (m : OrderedMap κ α) : OrderedMap κ α where
  entries := m.entries.filterMap fun e => (f e.1 e.2).map (e.1, ·)
  sorted := by
    refine List.Pairwise.sublist ?_ m.sorted
    induction m.entries with
    | nil => simp
    | cons e l ih =>
      rw [List.filterMap_cons]
      cases f e.1 e.2 with
      | none => exact ih.cons _
      | some as => simpa using ih.cons_cons e.1

lemma elems_filterMapGroups (f : κ → List α → Option (List α)) (m : OrderedMap κ α) :
    (m.filterMapGroups f).elems = m.entries.flatMap fun e => (f e.1 e.2).getD [] := by
  simp only [elems, filterMapGroups]
  induction m.entries with
  | nil => rfl
  | cons e l ih =>
    rw [List.filterMap_cons]
    cases he : f e.1 e.2 with
    | none => simpa [he] using ih
    | some as => simpa [he] using ih

/-- A rewriting that only removes members leaves a sublist. -/
lemma elems_filterMapGroups_sublist {f : κ → List α → Option (List α)}
    (hf : ∀ k as bs, f k as = some bs → bs.Sublist as) (m : OrderedMap κ α) :
    (m.filterMapGroups f).elems.Sublist m.elems := by
  rw [elems_filterMapGroups, elems]
  induction m.entries with
  | nil => simp
  | cons e l ih =>
    rw [List.flatMap_cons, List.flatMap_cons]
    refine List.Sublist.append ?_ ih
    cases he : f e.1 e.2 with
    | none => simp
    | some bs => exact hf _ _ _ he

lemma elems_filterMapGroups_map (f : α → α) (m : OrderedMap κ α) :
    (m.filterMapGroups fun _ as => some (as.map f)).elems = m.elems.map f := by
  rw [elems_filterMapGroups, elems, List.map_flatMap]
  rfl

lemma get_filterMapGroups {f : κ → List α → Option (List α)} (hf : ∀ k, (f k []).getD [] = [])
    (k : κ) (m : OrderedMap κ α) : (m.filterMapGroups f).get k = (f k (m.get k)).getD [] := by
  obtain ⟨l, hsorted⟩ := m
  show getEntry k (l.filterMap fun e => (f e.1 e.2).map (e.1, ·)) = (f k (getEntry k l)).getD []
  induction l with
  | nil => exact (hf k).symm
  | cons e l ih =>
    obtain ⟨k', as⟩ := e
    obtain ⟨hhead, htail⟩ := List.pairwise_cons.mp hsorted
    rw [List.filterMap_cons, getEntry]
    by_cases hk : k = k'
    · subst hk
      rw [if_pos rfl]
      cases has : f k as with
      | none =>
        have hrest : getEntry k l = [] :=
          getEntry_of_forall_lt fun e he => hhead e.1 (List.mem_map_of_mem he)
        simp only [Option.map_none, Option.getD_none]
        rw [ih htail, hrest, hf]
      | some bs =>
        simp only [Option.map_some, Option.getD_some]
        rw [getEntry, if_pos rfl]
    · rw [if_neg hk]
      cases has : f k' as with
      | none =>
        simp only [Option.map_none]
        exact ih htail
      | some bs =>
        simp only [Option.map_some]
        rw [getEntry, if_neg hk, ih htail]

/-! ### Members with their groups -/

/-- The members with the keys of their groups, by ascending key. -/
def pairs (m : OrderedMap κ α) : List (κ × α) := m.entries.flatMap fun e => e.2.map (e.1, ·)

lemma pairs_push (k : κ) (a : α) (m : OrderedMap κ α) :
    (m.push k a).pairs.Perm ((k, a) :: m.pairs) := by
  simp only [pairs, push]
  induction m.entries with
  | nil => simp [pushEntry]
  | cons e l ih =>
    obtain ⟨k₀, as⟩ := e
    simp only [pushEntry]
    split_ifs with hlt heq
    · simp
    · subst heq
      rw [List.flatMap_cons, List.flatMap_cons, List.map_append]
      exact (List.perm_append_comm.append_right _)
    · rw [List.flatMap_cons, List.flatMap_cons]
      exact (ih.append_left _).trans List.perm_middle

/-- A rewriting that keeps the members that meet `p`. -/
lemma pairs_filterMapGroups {f : κ → List α → Option (List α)} {p : κ × α → Bool}
    (hf : ∀ k as, (f k as).getD [] = as.filter fun a => p (k, a)) (m : OrderedMap κ α) :
    (m.filterMapGroups f).pairs = m.pairs.filter p := by
  simp only [pairs, filterMapGroups]
  induction m.entries with
  | nil => rfl
  | cons e l ih =>
    rw [List.flatMap_cons, List.filter_append, List.filter_map, ← ih, List.filterMap_cons]
    have hkept := hf e.1 e.2
    cases hfe : f e.1 e.2 with
    | none =>
      rw [hfe, Option.getD_none] at hkept
      simp only [Option.map_none, Function.comp_def, ← hkept, List.map_nil, List.nil_append]
    | some as =>
      rw [hfe, Option.getD_some] at hkept
      simp only [Option.map_some, Function.comp_def, ← hkept, List.flatMap_cons]

lemma filter_pairs (k : κ) (m : OrderedMap κ α) :
    (m.pairs.filter fun x => x.1 = k) = (m.get k).map (k, ·) := by
  obtain ⟨l, hsorted⟩ := m
  show (List.filter _ (l.flatMap fun e => e.2.map (e.1, ·))) = (getEntry k l).map (k, ·)
  induction l with
  | nil => rfl
  | cons e l ih =>
    obtain ⟨k', as⟩ := e
    obtain ⟨hhead, htail⟩ := List.pairwise_cons.mp hsorted
    rw [List.flatMap_cons, List.filter_append, ih htail, getEntry]
    by_cases hk : k = k'
    · subst hk
      have hrest : getEntry k l = [] :=
        getEntry_of_forall_lt fun e he => hhead e.1 (List.mem_map_of_mem he)
      rw [if_pos rfl, hrest, List.map_nil, List.append_nil, List.filter_eq_self]
      intro x hx
      obtain ⟨a, -, rfl⟩ := List.mem_map.mp hx
      exact decide_eq_true rfl
    · have hnone : (as.map (k', ·)).filter (fun x => x.1 = k) = [] := by
        rw [List.filter_eq_nil_iff]
        intro x hx
        obtain ⟨a, -, rfl⟩ := List.mem_map.mp hx
        rw [decide_eq_true_eq]
        exact Ne.symm hk
      rw [if_neg hk, hnone, List.nil_append]

/-! ### What holds of all keys -/

lemma forall_key_push {Q : κ → Prop} {m : OrderedMap κ α} {k : κ} (hk : Q k)
    (h : ∀ e ∈ m.entries, Q e.1) (a : α) : ∀ e ∈ (m.push k a).entries, Q e.1 := by
  intro e he
  rcases key_of_mem_pushEntry (List.mem_map_of_mem he) with hkey | hkey
  · rwa [hkey]
  · obtain ⟨e', he', hkey⟩ := List.mem_map.mp hkey
    rw [← hkey]
    exact h e' he'

lemma forall_key_filterMapGroups {Q : κ → Prop} {m : OrderedMap κ α}
    (h : ∀ e ∈ m.entries, Q e.1) (f : κ → List α → Option (List α)) :
    ∀ e ∈ (m.filterMapGroups f).entries, Q e.1 := by
  intro e he
  obtain ⟨e', he', heq⟩ := List.mem_filterMap.mp he
  obtain ⟨as, -, rfl⟩ := Option.map_eq_some_iff.mp heq
  exact h e' he'

/-! ### Empty groups -/

/-- No group is empty. -/
def NoEmpty (m : OrderedMap κ α) : Prop := ∀ e ∈ m.entries, e.2 ≠ []

lemma noEmpty_empty : (empty : OrderedMap κ α).NoEmpty := by simp [NoEmpty, empty]

lemma NoEmpty.push {m : OrderedMap κ α} (h : m.NoEmpty) (k : κ) (a : α) : (m.push k a).NoEmpty := by
  simp only [NoEmpty, OrderedMap.push] at h ⊢
  revert h
  induction m.entries with
  | nil => simp [pushEntry]
  | cons e l ih =>
    intro h
    obtain ⟨k₀, as⟩ := e
    obtain ⟨hhead, htail⟩ := List.forall_mem_cons.mp h
    simp only [pushEntry]
    split_ifs
    · exact List.forall_mem_cons.mpr ⟨by simp, h⟩
    · exact List.forall_mem_cons.mpr ⟨by simp, htail⟩
    · exact List.forall_mem_cons.mpr ⟨hhead, ih htail⟩

lemma NoEmpty.popFirst {m n : OrderedMap κ α} {k : κ} {as : List α} (h : m.NoEmpty)
    (hpop : m.popFirst = some (k, as, n)) : as ≠ [] ∧ n.NoEmpty := by
  rw [NoEmpty, entries_popFirst hpop] at h
  exact List.forall_mem_cons.mp h

lemma noEmpty_filterMapGroups {f : κ → List α → Option (List α)} {m : OrderedMap κ α}
    (hf : ∀ e ∈ m.entries, ∀ bs, f e.1 e.2 = some bs → bs ≠ []) :
    (m.filterMapGroups f).NoEmpty := by
  intro e he
  obtain ⟨e₀, he₀, heq⟩ := List.mem_filterMap.mp he
  obtain ⟨bs, hbs, rfl⟩ := Option.map_eq_some_iff.mp heq
  exact hf e₀ he₀ bs hbs

end OrderedMap

end Foundation

namespace Foundation

/-! ### Ordered sets -/

variable {α : Type*} [LinearOrder α]

structure OrderedSet (α : Type*) [LinearOrder α] where
  elems : List α
  ascending : elems.Pairwise (· < ·)

namespace OrderedSet

def empty : OrderedSet α := ⟨[], List.Pairwise.nil⟩

def insertElem (a : α) : List α → List α
  | [] => [a]
  | b :: l => if a < b then a :: b :: l else if a = b then b :: l else b :: insertElem a l

@[simp] lemma mem_insertElem {a b : α} {l : List α} : b ∈ insertElem a l ↔ b = a ∨ b ∈ l := by
  induction l with
  | nil => simp [insertElem]
  | cons c l ih =>
    rw [insertElem]
    split_ifs with hlt heq
    · simp
    · simp [heq]
    · rw [List.mem_cons, ih, List.mem_cons]
      exact or_left_comm

lemma pairwise_insertElem (a : α) {l : List α} (h : l.Pairwise (· < ·)) :
    (insertElem a l).Pairwise (· < ·) := by
  induction l with
  | nil => exact List.pairwise_singleton _ a
  | cons b l ih =>
    obtain ⟨hhead, htail⟩ := List.pairwise_cons.mp h
    rw [insertElem]
    split_ifs with hlt heq
    · exact List.pairwise_cons.mpr ⟨List.forall_mem_cons.mpr
        ⟨hlt, fun c hc => hlt.trans (hhead c hc)⟩, h⟩
    · exact h
    · refine List.pairwise_cons.mpr ⟨fun c hc => ?_, ih htail⟩
      rcases mem_insertElem.mp hc with rfl | hc
      · exact lt_of_le_of_ne (not_lt.mp hlt) (Ne.symm heq)
      · exact hhead c hc

def insert (s : OrderedSet α) (a : α) : OrderedSet α :=
  ⟨insertElem a s.elems, pairwise_insertElem a s.ascending⟩

lemma mem_insert {s : OrderedSet α} {a b : α} : b ∈ (s.insert a).elems ↔ b = a ∨ b ∈ s.elems :=
  mem_insertElem

lemma mem_foldl_insert {ι : Type*} (f : ι → α) (l : List ι) {s : OrderedSet α} {b : α} :
    b ∈ (l.foldl (fun s i => s.insert (f i)) s).elems ↔ b ∈ s.elems ∨ ∃ i ∈ l, f i = b := by
  induction l generalizing s with
  | nil => simp
  | cons i l ih =>
    rw [List.foldl_cons, ih, mem_insert]
    simp only [List.exists_mem_cons_iff]
    rw [eq_comm (a := b), or_comm (a := f i = b), or_assoc]

end OrderedSet

end Foundation
