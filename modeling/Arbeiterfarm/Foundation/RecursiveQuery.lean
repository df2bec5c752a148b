import Mathlib.Data.Finset.Card
import Mathlib.Data.List.Chain
import Mathlib.Logic.Relation

/-!
# Recursive queries

`WITH RECURSIVE … UNION ALL` starts from some rows and goes on with the rows that the last ones
lead to, until there are none. Rows are not compared with those that have been found before, so a
query that comes to a cycle does not end.
-/

namespace Foundation

variable {α : Type*} (next : α → List α)

/-- The rows that a query finds in at most `fuel` rounds; `none` if it has not ended by then. -/
def unionAll : ℕ → List α → Option (List α)
  | 0, _ => none
  | fuel + 1, rows =>
    if rows.isEmpty then some [] else (unionAll fuel (rows.flatMap next)).map (rows ++ ·)

/-- The rows of round `n`. -/
def queryRound : ℕ → List α → List α
  | 0, rows => rows
  | n + 1, rows => queryRound n (rows.flatMap next)

/-- A row leads to another one. -/
def Leads (a b : α) : Prop := b ∈ next a

variable {next} {rows : List α} {a b : α}

lemma queryRound_succ (n : ℕ) (rows : List α) :
    queryRound next (n + 1) rows = (queryRound next n rows).flatMap next := by
  induction n generalizing rows with
  | zero => rfl
  | succ n ih => exact ih (rows.flatMap next)

lemma isSome_unionAll {fuel : ℕ} :
    (unionAll next fuel rows).isSome = true ↔ ∃ n < fuel, queryRound next n rows = [] := by
  induction fuel generalizing rows with
  | zero => simp [unionAll]
  | succ fuel ih =>
    by_cases hempty : rows = []
    · subst hempty
      exact ⟨fun _ => ⟨0, Nat.succ_pos _, rfl⟩, fun _ => rfl⟩
    · have hfalse : ¬ rows.isEmpty = true := by rwa [List.isEmpty_iff]
      rw [unionAll, if_neg hfalse, Option.isSome_map, ih]
      constructor
      · rintro ⟨n, hn, hround⟩
        exact ⟨n + 1, Nat.succ_lt_succ hn, hround⟩
      · rintro ⟨_ | n, hn, hround⟩
        · exact absurd hround hempty
        · exact ⟨n, Nat.lt_of_succ_lt_succ hn, hround⟩

/-- A query that ends finds what its first rows lead to. -/
theorem mem_unionAll {fuel : ℕ} {found : List α} (h : unionAll next fuel rows = some found) :
    b ∈ found ↔ ∃ a ∈ rows, Relation.ReflTransGen (Leads next) a b := by
  induction fuel generalizing rows found with
  | zero => cases h
  | succ fuel ih =>
    rw [unionAll] at h
    split_ifs at h with hempty
    · obtain rfl := Option.some.inj h
      rw [List.isEmpty_iff] at hempty
      subst hempty
      simp
    · obtain ⟨rest, hrest, rfl⟩ := Option.map_eq_some_iff.mp h
      rw [List.mem_append, ih hrest]
      constructor
      · rintro (hb | ⟨a', ha', hpath⟩)
        · exact ⟨b, hb, .refl⟩
        · obtain ⟨a, ha, hnext⟩ := List.mem_flatMap.mp ha'
          exact ⟨a, ha, .head hnext hpath⟩
      · rintro ⟨a, ha, hpath⟩
        rcases hpath.cases_head with rfl | ⟨a', hnext, hpath⟩
        · exact .inl ha
        · exact .inr ⟨a', List.mem_flatMap.mpr ⟨a, ha, hnext⟩, hpath⟩

/-! ### Cycles -/

lemma queryRound_of_path (ha : a ∈ rows) (h : Relation.ReflTransGen (Leads next) a b) :
    ∃ n, b ∈ queryRound next n rows := by
  induction h with
  | refl => exact ⟨0, ha⟩
  | tail _ hnext ih =>
    obtain ⟨n, hn⟩ := ih
    exact ⟨n + 1, by rw [queryRound_succ]; exact List.mem_flatMap.mpr ⟨_, hn, hnext⟩⟩

/-- A row on a cycle comes up again. -/
lemma queryRound_of_cycle {n : ℕ} (hb : b ∈ queryRound next n rows)
    (h : Relation.TransGen (Leads next) b b) : ∃ m, n < m ∧ b ∈ queryRound next m rows := by
  have hpath (c : α) (hc : Relation.TransGen (Leads next) b c) :
      ∃ m, n < m ∧ c ∈ queryRound next m rows := by
    induction hc with
    | single hnext =>
      refine ⟨n + 1, Nat.lt_succ_self n, ?_⟩
      rw [queryRound_succ]
      exact List.mem_flatMap.mpr ⟨b, hb, hnext⟩
    | tail _ hnext ih =>
      obtain ⟨m, hm, hc⟩ := ih
      refine ⟨m + 1, hm.trans (Nat.lt_succ_self m), ?_⟩
      rw [queryRound_succ]
      exact List.mem_flatMap.mpr ⟨_, hc, hnext⟩
  exact hpath b h

lemma queryRound_eq_nil {n m : ℕ} (h : queryRound next n rows = []) (hle : n ≤ m) :
    queryRound next m rows = [] := by
  induction m, hle using Nat.le_induction with
  | base => exact h
  | succ m _ ih => rw [queryRound_succ, ih, List.flatMap_nil]

/-- A row of round `n` is at the end of a path with `n` steps. -/
lemma exists_chain {n : ℕ} (h : b ∈ queryRound next n rows) :
    ∃ a ∈ rows, ∃ l : List α, l.length = n ∧ List.IsChain (Leads next) (a :: l) := by
  induction n generalizing rows with
  | zero => exact ⟨b, h, [], rfl, List.isChain_singleton b⟩
  | succ n ih =>
    obtain ⟨a', ha', l, hlength, hchain⟩ := ih h
    obtain ⟨a, ha, hnext⟩ := List.mem_flatMap.mp ha'
    refine ⟨a, ha, a' :: l, by rw [List.length_cons, hlength], ?_⟩
    exact List.isChain_cons_cons.mpr ⟨hnext, hchain⟩

/-- A query over finitely many rows ends, unless it comes to a cycle. -/
theorem unionAll_ends_iff {univ : List α} (huniv : ∀ a b, Leads next a b → b ∈ univ) :
    (∃ fuel, (unionAll next fuel rows).isSome = true) ↔
      ∀ a ∈ rows, ∀ b, Relation.ReflTransGen (Leads next) a b →
        ¬ Relation.TransGen (Leads next) b b := by
  constructor
  · rintro ⟨fuel, hends⟩ a ha b hpath hcycle
    obtain ⟨n, -, hempty⟩ := isSome_unionAll.mp hends
    have hagain (k : ℕ) : ∃ m, k ≤ m ∧ b ∈ queryRound next m rows := by
      induction k with
      | zero =>
        obtain ⟨m, hm⟩ := queryRound_of_path ha hpath
        exact ⟨m, Nat.zero_le m, hm⟩
      | succ k ih =>
        obtain ⟨m, hle, hm⟩ := ih
        obtain ⟨m', hlt, hm'⟩ := queryRound_of_cycle hm hcycle
        exact ⟨m', hle.trans_lt hlt, hm'⟩
    obtain ⟨m, hle, hm⟩ := hagain n
    rw [queryRound_eq_nil hempty hle] at hm
    cases hm
  · intro hacyclic
    refine ⟨univ.length + 2, isSome_unionAll.mpr ⟨univ.length + 1, Nat.lt_succ_self _, ?_⟩⟩
    rw [List.eq_nil_iff_forall_not_mem]
    intro b hb
    obtain ⟨a, ha, l, hlength, hchain⟩ := exists_chain hb
    have hpaths : (a :: l).Pairwise (Relation.TransGen (Leads next)) :=
      List.isChain_iff_pairwise.mp (hchain.imp fun _ _ => .single)
    obtain ⟨hfrom, hpaths⟩ := List.pairwise_cons.mp hpaths
    have hnodup : l.Nodup := by
      refine hpaths.imp_of_mem ?_
      rintro c d hc - hcd rfl
      exact hacyclic a ha c (hfrom c hc).to_reflTransGen hcd
    have hsub : l ⊆ univ := by
      intro c hc
      obtain ⟨d, -, hdc⟩ := Relation.TransGen.tail'_iff.mp (hfrom c hc)
      exact huniv d c hdc
    have hle := (List.subperm_of_subset hnodup hsub).length_le
    rw [hlength] at hle
    exact Nat.not_succ_le_self _ hle

end Foundation
