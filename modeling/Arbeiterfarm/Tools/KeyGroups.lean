import Arbeiterfarm.Core.Json
import Arbeiterfarm.Foundation.Grouping
import Arbeiterfarm.Tools.JqPrograms

/-!
# Sorting and grouping in jq

`sort_by`, `unique_by` and `group_by` are written in jq, on top of two native filters. The tool puts
the prelude that defines them before the expression; if the parser does not accept this, it takes
the expression alone. Either way something is called that is not defined: `group_by` in the body of
`sort_by`, or the function itself. So the program is not compiled, whatever the native filters do.
-/

namespace Arbeiterfarm.Tools.Jq

open Foundation.Grouping

/-! ### The tool -/

/-- The interpreter, with its errors as they are printed. -/
structure Jaq where
  parse : String → Option Filter × List String
  /-- The errors of a program over native filters. -/
  compile : List Callee → Filter → List String
  /-- The outputs of a program, one after the other. -/
  run : Filter → Json → List (Except String Json)
  /-- The length of a value as text. -/
  size : Json → ℕ

/-- An error of the tool; it is never retried. -/
structure Failure where
  code : String
  message : String
  deriving DecidableEq

def maxOutputSize : ℕ := 64 * 1024 * 1024

namespace Jaq

variable (jaq : Jaq)

/-- The outputs up to the first that is too much; an error before that is the result. -/
def collectOutputs : List (Except String Json) → ℕ → List Json → Except Failure (List Json)
  | [], _, results => .ok results
  | .ok v :: outputs, total_size, results =>
    if total_size + jaq.size v > maxOutputSize then .ok results
    else collectOutputs outputs (total_size + jaq.size v) (results ++ [v])
  | .error e :: _, _, _ => .error ⟨"jq_runtime_error", "jq evaluation error: " ++ e⟩

/-- The results that are written out. -/
def runFilter (filter : Filter) (expression : String) (input_val : Json) :
    Except Failure (List Json) :=
  if jaq.compile natives filter ≠ [] then
    .error ⟨"jq_compile_error", "failed to compile jq expression (" ++ expression ++
      "): undefined function or variable"⟩
  else jaq.collectOutputs (jaq.run filter input_val) 0 []

/-- `execute` with the text of the artifact, if it can be read, and the parser of JSON. -/
def execute (fromStr : String → Except String Json) (content : Except String String)
    (expression : Option String) : Except Failure (List Json) :=
  match expression with
  | none => .error ⟨"missing_expression", "expression parameter is required"⟩
  | some expression =>
    match content with
    | .error e => .error ⟨"read_error", "failed to read artifact: " ++ e⟩
    | .ok content =>
      match fromStr content with
      | .error e => .error ⟨"json_parse_error", "artifact is not valid JSON: " ++ e⟩
      | .ok input_val =>
        match jaq.parse (jqPrelude ++ "\n" ++ expression) with
        | (some filter, []) => jaq.runFilter filter expression input_val
        | (none, []) => .error ⟨"jq_parse_error", "jq expression parsed to nothing"⟩
        | (_, errs) =>
          -- again without the prelude
          match jaq.parse expression with
          | (some filter, []) => jaq.runFilter filter expression input_val
          | _ => .error ⟨"jq_parse_error",
              "failed to parse jq expression: " ++ ", ".intercalate errs⟩

end Jaq

/-! ### The native filters -/

section

variable {α V O ε : Type} [LinearOrder O] (rank : V → O) (null : V)

/-- The first output of a filter. -/
def firstOutput (outputs : List (Except ε V)) : Except ε V :=
  match outputs.head? with
  | some output => output
  | none => .ok null

/-- `sort_by_key(f)` of an array, where `run` is the filter: the items are sorted by its first
output. -/
def nativeSortByKey (run : α → List (Except ε V)) (a : List α) : Except ε (List α) :=
  (a.mapM fun item => (firstOutput null (run item)).map fun key => (key, item)).map fun keyed =>
    (sortOn (fun p => rank p.1) keyed).map Prod.snd

/-- The items are compared with the first item of the current group. -/
def groupLoop (same : α → α → Bool) (first : α) (rest : List α) : List α → List (List α)
  | [] => [first :: rest]
  | item :: a =>
    if same item first then groupLoop same first (rest ++ [item]) a
    else (first :: rest) :: groupLoop same item [] a

/-- `_group_by_sorted` of an array. -/
def nativeGroupBySorted (same : α → α → Bool) : List α → List (List α)
  | [] => []
  | first :: a => groupLoop same first [] a

lemma mapM_ok {β : Type} {f : α → Except ε β} {g : α → β} {l : List α}
    (h : ∀ a ∈ l, f a = .ok (g a)) : l.mapM f = .ok (l.map g) := by
  induction l with
  | nil => rfl
  | cons a l ih =>
    obtain ⟨ha, hl⟩ := List.forall_mem_cons.mp h
    rw [List.mapM_cons, ha, ih hl]
    rfl

lemma nativeSortByKey_eq {run : α → List (Except ε V)} {k : α → V} {a : List α}
    (h : ∀ x ∈ a, firstOutput null (run x) = .ok (k x)) :
    nativeSortByKey rank null run a = .ok (sortOn (fun x => rank (k x)) a) := by
  have hkeyed : (a.mapM fun item => (firstOutput null (run item)).map fun key => (key, item)) =
      .ok (a.map fun x => (k x, x)) :=
    mapM_ok fun x hx => by rw [h x hx]; rfl
  rw [nativeSortByKey, hkeyed, Except.map, sortOn_map, List.map_map]
  exact congrArg Except.ok (List.map_id' _)

lemma grouped_groupLoop {κ : Type} [LinearOrder κ] {same : α → α → Bool} {k : α → κ} (first : α)
    (rest : List α) {l : List α} (hsorted : (first :: rest ++ l).Pairwise fun a b => k a ≤ k b)
    (hrest : ∀ a ∈ rest, k a = k first) (hsame : ∀ a b, same a b ↔ k a = k b) :
    Grouped k (first :: rest ++ l) (groupLoop same first rest l) := by
  have hfirst : ∀ c ∈ first :: rest, k c = k first := List.forall_mem_cons.mpr ⟨rfl, hrest⟩
  induction l generalizing first rest with
  | nil =>
    refine Grouped.cons (List.cons_ne_nil _ _) (fun a ha b hb => ?_) (by simp) Grouped.nil
    rw [hfirst a ha, hfirst b hb]
  | cons item l ih =>
    rw [groupLoop]
    by_cases hitem : same item first = true
    · have happend : first :: rest ++ item :: l = first :: (rest ++ [item]) ++ l := by simp
      rw [if_pos hitem, happend]
      rw [happend] at hsorted
      have hmore : ∀ a ∈ rest ++ [item], k a = k first :=
        List.forall_mem_append.mpr
          ⟨hrest, List.forall_mem_singleton.mpr ((hsame item first).mp hitem)⟩
      exact ih first _ hsorted hmore (List.forall_mem_cons.mpr ⟨rfl, hmore⟩)
    · rw [if_neg hitem]
      obtain ⟨-, htail, hcross⟩ := List.pairwise_append.mp hsorted
      have hlt : k first < k item :=
        lt_of_le_of_ne (hcross first List.mem_cons_self item List.mem_cons_self)
          fun h => hitem ((hsame item first).mpr h.symm)
      refine Grouped.cons (List.cons_ne_nil _ _) (fun a ha b hb => ?_) (fun a ha b hb => ?_) ?_
      · rw [hfirst a ha, hfirst b hb]
      · rw [hfirst a ha]
        rcases List.mem_cons.mp hb with rfl | hb
        · exact hlt
        · exact hlt.trans_le (List.rel_of_pairwise_cons htail hb)
      · exact ih item [] htail (List.forall_mem_nil _) (by simp)

lemma grouped_nativeGroupBySorted {κ : Type} [LinearOrder κ] {same : α → α → Bool} {k : α → κ}
    (hsame : ∀ a b, same a b ↔ k a = k b) (l : List α) :
    Grouped k l (nativeGroupBySorted same (sortOn k l)) := by
  have hgroups : Grouped k (sortOn k l) (nativeGroupBySorted same (sortOn k l)) := by
    have hsorted := pairwise_sortOn k l
    cases hsort : sortOn k l with
    | nil => exact Grouped.nil
    | cons first a =>
      rw [hsort] at hsorted
      exact grouped_groupLoop first [] hsorted (List.forall_mem_nil _) hsame
  exact hgroups.congr (filter_sortOn k l)

end

def keyFunctions : List String := ["group_by", "unique_by", "sort_by"]

/-- What is relied on of the interpreter: the prelude is read as its definitions and the call of a
function as a call, and a program is compiled only if all that it calls is defined before. -/
structure IsJq (jaq : Jaq) : Prop where
  prelude : ∀ expression m, jaq.parse (jqPrelude ++ "\n" ++ expression) = (some m, []) →
    ∃ f, m = withDefs preludeDefs f
  call : ∀ name ∈ keyFunctions, ∀ f t m, jaq.parse f = (some t, []) →
    jaq.parse (name ++ "(" ++ f ++ ")") = (some m, []) → m = .call name [t]
  inScope : ∀ m, jaq.compile natives m = [] → m.undefined natives = []

variable {κ : Type} [LinearOrder κ] [Inhabited κ]

/-- The call of a function with the key filter `f` on an array. -/
def callOn (jaq : Jaq) (name f : String) (items : List Json) : Except Failure (List Json) :=
  jaq.execute (fun _ => .ok (.arr items)) (.ok "") (some (name ++ "(" ++ f ++ ")"))

/-- `key` is what the filter `f` makes of an item. An error of it is an error of the program.
Otherwise there is one group for each key, in ascending order, with the first item of each group,
and the items are sorted stably. -/
structure FollowsJq (jaq : Jaq) (f : String) (key : Json → Except String κ) (items : List Json) :
    Prop where
  fails : ∀ x ∈ items, ∀ e, key x = .error e → ∀ name ∈ keyFunctions, ∃ message,
    callOn jaq name f items = .error ⟨"jq_runtime_error", message⟩
  groups : ∀ k : Json → κ, (∀ x ∈ items, key x = .ok (k x)) →
    ∃ gs, callOn jaq "group_by" f items = .ok [.arr (gs.map .arr)] ∧ Grouped k items gs ∧
      (∃ firsts, callOn jaq "unique_by" f items = .ok [.arr firsts] ∧
        gs.map List.head? = firsts.map some) ∧
      ∃ sorted, callOn jaq "sort_by" f items = .ok [.arr sorted] ∧ StablySorted k items sorted

/-! ### No program is compiled -/

variable {jaq : Jaq}

lemma runFilter_of_undefined (hjaq : IsJq jaq) {filter : Filter} {callee : Callee}
    (h : callee ∈ filter.undefined natives) (expression : String) (input_val : Json) :
    ∃ message, jaq.runFilter filter expression input_val =
      .error ⟨"jq_compile_error", message⟩ := by
  have herrs : jaq.compile natives filter ≠ [] := by
    intro hnil
    rw [hjaq.inScope filter hnil] at h
    cases h
  rw [Jaq.runFilter, if_pos herrs]
  exact ⟨_, rfl⟩

lemma keyFunction_undefined {name : String} (h : name ∈ keyFunctions) (t : Filter) :
    (name, 1) ∈ (Filter.call name [t]).undefined natives := by
  have hnative : ∀ name ∈ keyFunctions, (name, 1) ∉ natives := by decide
  simp [Filter.undefined, hnative name h]

/-- The parser or the compiler rejects each call of the three functions. -/
theorem callOn_fails (hjaq : IsJq jaq) {name f : String} {t : Filter} (hname : name ∈ keyFunctions)
    (hf : jaq.parse f = (some t, [])) (items : List Json) :
    ∃ code message, callOn jaq name f items = .error ⟨code, message⟩ ∧
      (code = "jq_parse_error" ∨ code = "jq_compile_error") := by
  have hcompile : ∀ {filter : Filter} {callee : Callee}, callee ∈ filter.undefined natives →
      ∃ code message, jaq.runFilter filter (name ++ "(" ++ f ++ ")") (.arr items) =
        .error ⟨code, message⟩ ∧ (code = "jq_parse_error" ∨ code = "jq_compile_error") := by
    intro filter callee h
    obtain ⟨message, hmessage⟩ :=
      runFilter_of_undefined hjaq h (name ++ "(" ++ f ++ ")") (.arr items)
    exact ⟨_, message, hmessage, Or.inr rfl⟩
  rw [callOn, Jaq.execute]
  dsimp only
  split
  · -- with the prelude, `sort_by` calls what is not defined
    rename_i m hfull
    obtain ⟨g, rfl⟩ := hjaq.prelude _ m hfull
    exact hcompile (undefined_withDefs_prelude g)
  · exact ⟨_, _, rfl, Or.inl rfl⟩
  · split
    · -- without it, the function itself is not defined
      rename_i m halone
      obtain rfl := hjaq.call name hname f t m hf halone
      exact hcompile (keyFunction_undefined hname t)
    · exact ⟨_, _, rfl, Or.inl rfl⟩

/-- On no array does a key filter give what jq gives. -/
theorem not_followsJq (hjaq : IsJq jaq) {f : String} {t : Filter}
    (hf : jaq.parse f = (some t, [])) (key : Json → Except String κ) (items : List Json) :
    ¬ FollowsJq jaq f key items := by
  intro h
  have hmem : "group_by" ∈ keyFunctions := List.mem_cons_self
  obtain ⟨code, message, hcall, hcode⟩ := callOn_fails hjaq hmem hf items
  by_cases hkeys : ∃ k : Json → κ, ∀ x ∈ items, key x = .ok (k x)
  · obtain ⟨k, hk⟩ := hkeys
    obtain ⟨gs, hgroups, -⟩ := h.groups k hk
    rw [hcall] at hgroups
    cases hgroups
  · -- then the filter fails on some item
    obtain ⟨x, hx, e, he⟩ : ∃ x ∈ items, ∃ e, key x = .error e := by
      by_contra hnone
      refine hkeys ⟨fun x => (key x).toOption.getD default, fun x hx => ?_⟩
      cases hkey : key x with
      | error e => exact absurd ⟨x, hx, e, hkey⟩ hnone
      | ok c => simp [hkey, Except.toOption]
    obtain ⟨message', hruntime⟩ := h.fails x hx e he _ hmem
    have hsame := congrArg Failure.code (Except.error.inj (hcall.symm.trans hruntime))
    rcases hcode with rfl | rfl <;> simp at hsame

/-! ### An interpreter without the prelude -/

/-- It does not accept the prelude, and of other texts it knows `.` and the three functions of
it. -/
def dotJaq : Jaq where
  parse text :=
    if text = "." then (some .identity, [])
    else match keyFunctions.find? fun name => text = name ++ "(.)" with
      | some name => (some (.call name [.identity]), [])
      | none => (none, ["unexpected token"])
  compile scope filter := (filter.undefined scope).map Prod.fst
  run _ input := [.ok input]
  size _ := 0

lemma dotJaq_parse {text : String} {m : Filter} (h : dotJaq.parse text = (some m, [])) :
    (text = "." ∧ m = .identity) ∨
      ∃ name ∈ keyFunctions, text = name ++ "(.)" ∧ m = .call name [.identity] := by
  simp only [dotJaq] at h
  split at h
  · rename_i htext
    exact Or.inl ⟨htext, (Option.some.inj (Prod.mk.inj h).1).symm⟩
  · split at h
    · rename_i name hfind
      have hname := List.find?_some hfind
      refine Or.inr ⟨name, List.mem_of_find?_eq_some hfind, of_decide_eq_true hname, ?_⟩
      exact (Option.some.inj (Prod.mk.inj h).1).symm
    · cases h

lemma dotJaq_parse_prelude (expression : String) :
    dotJaq.parse (jqPrelude ++ "\n" ++ expression) = (none, ["unexpected token"]) := by
  have hhead : (jqPrelude ++ "\n" ++ expression).toList.head? = some '\n' := by simp [jqPrelude]
  have hdot : jqPrelude ++ "\n" ++ expression ≠ "." := by
    intro h
    simp [h] at hhead
  have hnone : keyFunctions.find? (fun name => jqPrelude ++ "\n" ++ expression = name ++ "(.)") =
      none := by
    rw [List.find?_eq_none]
    intro name hname h
    rw [of_decide_eq_true h] at hhead
    simp only [keyFunctions, List.mem_cons, List.not_mem_nil, or_false] at hname
    rcases hname with rfl | rfl | rfl <;> simp at hhead
  simp only [dotJaq, if_neg hdot, hnone]

lemma isJq_dotJaq : IsJq dotJaq where
  prelude expression m h := by
    rw [dotJaq_parse_prelude] at h
    cases h
  call name hname f t m hf h := by
    have hlast : ∀ name' : String, name ++ "(" ++ (name' ++ "(.)") ++ ")" ≠ "." ∧
        ∀ other : String, name ++ "(" ++ (name' ++ "(.)") ++ ")" ≠ other ++ "(.)" := by
      intro name'
      refine ⟨fun heq => ?_, fun other heq => ?_⟩
      · simpa using congrArg (fun s => s.toList.reverse) heq
      · simpa using congrArg (fun s => s.toList.reverse) heq
    rcases dotJaq_parse hf with ⟨rfl, rfl⟩ | ⟨name', -, rfl, -⟩
    · rcases dotJaq_parse h with ⟨htext, -⟩ | ⟨other, -, htext, rfl⟩
      · simpa using congrArg (fun s => s.toList.reverse) htext
      · obtain rfl : name = other := by
          have hsame : name ++ "(.)" = other ++ "(.)" := by
            rw [← htext, String.append_assoc, String.append_assoc]
            rfl
          exact String.toList_inj.mp (by simpa using congrArg String.toList hsame)
        rfl
    · rcases dotJaq_parse h with ⟨htext, -⟩ | ⟨other, -, htext, -⟩
      · exact absurd htext (hlast name').1
      · exact absurd htext ((hlast name').2 other)
  inScope m h := List.map_eq_nil_iff.mp h

/-- What `.` makes of a number. -/
def numberKey : Json → Except String ℤ
  | .num (.int n) => .ok n
  | _ => .error "not a number"

/-- `[n, …] | group_by(.)` of numbers. -/
def numbers (ns : List ℤ) : List Json := ns.map fun n => .num (.int n)

/-- The parser takes the call alone, and the compiler does not know the function. -/
theorem not_followsJq_numbers :
    callOn dotJaq "group_by" "." (numbers [3, 1, 2, 1]) =
        .error ⟨"jq_compile_error",
          "failed to compile jq expression (group_by(.)): undefined function or variable"⟩ ∧
      ¬ FollowsJq dotJaq "." numberKey (numbers [3, 1, 2, 1]) := by
  have hcall : callOn dotJaq "group_by" "." (numbers [3, 1, 2, 1]) =
      .error ⟨"jq_compile_error",
        "failed to compile jq expression (group_by(.)): undefined function or variable"⟩ := by
    have hparse : dotJaq.parse ("group_by" ++ "(" ++ "." ++ ")") =
        (some (.call "group_by" [.identity]), []) := by
      simp [dotJaq, keyFunctions]
    have hcompile : dotJaq.compile natives (.call "group_by" [.identity]) ≠ [] := by
      simp [dotJaq, Filter.undefined, natives]
    simp only [callOn, Jaq.execute, dotJaq_parse_prelude, hparse, Jaq.runFilter, if_pos hcompile]
    rfl
  refine ⟨hcall, fun h => ?_⟩
  have hkeys : ∀ x ∈ numbers [3, 1, 2, 1],
      numberKey x = .ok ((numberKey x).toOption.getD 0) := by
    intro x hx
    obtain ⟨n, -, rfl⟩ := List.mem_map.mp hx
    rfl
  obtain ⟨gs, hgroups, -⟩ := h.groups _ hkeys
  rw [hcall] at hgroups
  cases hgroups

theorem not_followsJq_tens :
    ¬ FollowsJq dotJaq "." (fun x => (numberKey x).map (· / 10)) (numbers [11, 12, 3]) :=
  not_followsJq isJq_dotJaq (t := .identity) rfl _ _

end Arbeiterfarm.Tools.Jq
