import Arbeiterfarm.Core.Json
import Arbeiterfarm.Foundation.TemplateOrder
import Mathlib.Data.List.Nodup

/-!
# Prompt templates

The prompt of a hook is its template with the placeholders of the event's variables expanded. The
map of the variables is iterated in any order, and each variable is expanded in the text that the
ones before have left, so a value may bring a placeholder of a later variable with it.
-/

namespace Arbeiterfarm.Hooks

open Foundation Foundation.Templates

/-! ### The variables -/

/-- The last `n` hexadecimal digits. -/
def hexDigits : ℕ → ℕ → List Char
  | 0, _ => []
  | n + 1, u => hexDigits n (u / 16) ++ [Nat.digitChar (u % 16)]

/-- `Uuid::to_string`. -/
def uuidText (id : Uuid) : String := String.ofList
  (hexDigits 8 (id / 0x1000000000000000000000000) ++
    '-' :: hexDigits 4 (id / 0x100000000000000000000) ++
    '-' :: hexDigits 4 (id / 0x10000000000000000) ++ '-' :: hexDigits 4 (id / 0x1000000000000) ++
      '-' :: hexDigits 12 id)

/-- The digest of a blob, in hexadecimal. -/
structure Sha256 where
  text : String
  length_eq : text.toList.length = 64
  hex : ∀ ch ∈ text.toList, ∃ d < 16, ch = Nat.digitChar d

/-- What the variables of an event are made from. -/
inductive HookEventData where
  | artifactUploaded (artifact_id : Uuid) (filename : String) (sha256 : Sha256) (project_id : Uuid)
      (project_name : String)
  | tick (project_id : Uuid) (project_name : Option String) (hook_name : String)
      (tick_generation : ℕ)

abbrev Vars := List (String × String)

def HookEventData.vars : HookEventData → Vars
  | .artifactUploaded artifact_id filename sha256 project_id project_name =>
    [("artifact_id", uuidText artifact_id), ("filename", filename), ("sha256", sha256.text),
      ("project_id", uuidText project_id), ("project_name", project_name)]
  | .tick project_id project_name hook_name tick_generation =>
    [("project_id", uuidText project_id), ("project_name", project_name.getD ""),
      ("hook_name", hook_name), ("tick_count", toString (tick_generation + 1))]

/-! ### Expanding -/

/-- The name between double braces. -/
def placeholder (key : String) : List Char := hole '{' '}' key.toList

/-- The variables come in the order in which the map is iterated. -/
def expandTemplate (template : String) (vars : Vars) : String :=
  vars.foldl (fun result kv =>
    String.ofList (replace (placeholder kv.1) kv.2.toList result.toList)) template

/-! ### What it is for -/

def names (vars : Vars) : List (List Char) := vars.map fun kv => kv.1.toList

def valueOf (vars : Vars) (name : List Char) : List Char :=
  ((vars.find? fun kv => kv.1.toList = name).map fun kv => kv.2.toList).getD (hole '{' '}' name)

/-- Every placeholder of the template is replaced by its value, and nothing else. -/
def expandAll (template : String) (vars : Vars) : String :=
  String.ofList (expand '{' '}' (names vars) (valueOf vars) template.toList)

def Simultaneous (template : String) (vars : Vars) : Prop :=
  ∀ order : Vars, order.Perm vars → expandTemplate template order = expandAll template vars

/-! ### The order -/

section

variable {vars : Vars} (hnodup : (names vars).Nodup)

include hnodup

lemma valueOf_of_mem {kv : String × String} (hkv : kv ∈ vars) :
    valueOf vars kv.1.toList = kv.2.toList := by
  obtain ⟨found, hfound⟩ : ∃ found,
      vars.find? (fun kv' => kv'.1.toList = kv.1.toList) = some found :=
    Option.isSome_iff_exists.mp (List.find?_isSome.mpr ⟨kv, hkv, decide_eq_true rfl⟩)
  have hname : found.1.toList = kv.1.toList := by simpa using List.find?_some hfound
  obtain rfl := List.inj_on_of_nodup_map hnodup (List.mem_of_find?_eq_some hfound) hkv hname
  rw [valueOf, hfound]
  rfl

lemma toList_expandTemplate {order : Vars} (horder : ∀ kv ∈ order, kv ∈ vars) (template : String) :
    (expandTemplate template order).toList =
      replaceHoles '{' '}' (valueOf vars) (names order) template.toList := by
  induction order generalizing template with
  | nil => rfl
  | cons kv order ih =>
    obtain ⟨hkv, hrest⟩ := List.forall_mem_cons.mp horder
    rw [expandTemplate, List.foldl_cons, ← expandTemplate, ih hrest, String.toList_ofList]
    have hcons : names (kv :: order) = kv.1.toList :: names order := rfl
    rw [hcons, replaceHoles, replaceHoles, List.foldl_cons, valueOf_of_mem hnodup hkv]
    rfl

/-- The variables in the order of their names. -/
lemma map_names : (names vars).map (fun name =>
    (String.ofList name, String.ofList (valueOf vars name))) = vars := by
  rw [names, List.map_map]
  refine (List.map_congr_left fun kv hkv => ?_).trans (List.map_id vars)
  simp [valueOf_of_mem hnodup hkv]

lemma simultaneous_iff (template : String) :
    Simultaneous template vars ↔ ∀ order : List (List Char), order.Perm (names vars) →
      replaceHoles '{' '}' (valueOf vars) order template.toList =
        expand '{' '}' (names vars) (valueOf vars) template.toList := by
  constructor
  · intro h order horder
    have hperm := (horder.map fun name =>
      (String.ofList name, String.ofList (valueOf vars name))).trans
        (List.Perm.of_eq (map_names hnodup))
    have hall := congrArg String.toList (h _ hperm)
    have hnames : names (order.map fun name =>
        (String.ofList name, String.ofList (valueOf vars name))) = order := by
      rw [names, List.map_map]
      refine (List.map_congr_left fun name _ => ?_).trans (List.map_id order)
      simp
    rw [toList_expandTemplate hnodup (fun kv hkv => hperm.subset hkv), expandAll,
      String.toList_ofList, hnames] at hall
    exact hall
  · intro h order horder
    have hnames := h _ (horder.map fun kv => kv.1.toList)
    rw [← String.toList_inj, toList_expandTemplate hnodup (fun kv hkv => horder.subset hkv),
      expandAll, String.toList_ofList]
    exact hnames

end

/-! ### Values that bring no placeholders -/

variable {keys : List (List Char)}

lemma isAlphanum_digitChar : ∀ d < 16, (Nat.digitChar d).isAlphanum := by decide

lemma isAlphanum_of_mem_hexDigits {n u : ℕ} {ch : Char} (h : ch ∈ hexDigits n u) :
    ch.isAlphanum := by
  induction n generalizing u with
  | zero => exact absurd h List.not_mem_nil
  | succ n ih =>
    rcases List.mem_append.mp h with h | h
    · exact ih h
    · rw [List.mem_singleton.mp h]
      exact isAlphanum_digitChar _ (Nat.mod_lt u (by decide))

lemma mem_uuidText {id : Uuid} {ch : Char} (h : ch ∈ (uuidText id).toList) :
    ch = '-' ∨ ch.isAlphanum := by
  simp only [uuidText, String.toList_ofList, List.mem_append, List.mem_cons] at h
  rcases h with (((h | h | h) | h | h) | h | h) | h | h
  all_goals first
    | exact Or.inl h
    | exact Or.inr (isAlphanum_of_mem_hexDigits h)

/-- A text of digits and hyphens has no braces. -/
lemma plain_of_forall {v : List Char} (h : ∀ ch ∈ v, ch = '-' ∨ ch.isAlphanum) :
    Plain '{' '}' v :=
  ⟨fun hmem => absurd (h _ hmem) (by decide), fun hmem => absurd (h _ hmem) (by decide)⟩

lemma inert_uuidText (hkeys : ∀ k ∈ keys, '-' ∉ k) (id : Uuid) :
    Inert '{' '}' keys (uuidText id).toList := by
  refine ⟨plain_of_forall fun ch => mem_uuidText, fun k hk hpart => hkeys k hk (hpart.subset ?_)⟩
  rw [uuidText, String.toList_ofList]
  simp

lemma inert_sha256 (hkeys : ∀ k ∈ keys, k.length < 64) (sha256 : Sha256) :
    Inert '{' '}' keys sha256.text.toList := by
  refine ⟨plain_of_forall fun ch hch => ?_, fun k hk hpart => ?_⟩
  · obtain ⟨d, hd, rfl⟩ := sha256.hex ch hch
    exact Or.inr (isAlphanum_digitChar d hd)
  have hle := hpart.length_le
  rw [sha256.length_eq] at hle
  exact absurd (hkeys k hk) (Nat.not_lt.mpr hle)

lemma inert_toString (hkeys : ∀ k ∈ keys, ∀ ch ∈ k, ¬ch.isDigit) (n : ℕ) :
    Inert '{' '}' keys (toString n).toList := by
  have hdigits : (toString n).toList = Nat.toDigits 10 n := Nat.toList_repr
  have hdigit : ∀ ch ∈ Nat.toDigits 10 n, ch.isDigit := fun ch =>
    Nat.isDigit_of_mem_toDigits (by decide) (by decide)
  rw [hdigits]
  refine ⟨plain_of_forall fun ch hch => Or.inr ?_, fun k hk hpart => ?_⟩
  · rw [Char.isAlphanum, hdigit ch hch, Bool.or_true]
  · obtain ⟨ch, hch⟩ := List.exists_mem_of_ne_nil _ (Nat.toDigits_ne_nil (n := n) (b := 10))
    exact hkeys k hk ch (hpart.subset hch) (hdigit ch hch)

/-! ### The events -/

lemma simultaneous_iff_of_inert {vars rest : Vars} {free free' : String × String}
    (hperm : vars.Perm (rest ++ [free, free'])) (hnodup : (names vars).Nodup)
    (hplain : ∀ k ∈ names vars, '{' ∉ k ∧ '}' ∉ k)
    (hinert : ∀ kv ∈ rest, Inert '{' '}' (names vars) kv.2.toList) (template : String) :
    Simultaneous template vars ↔
      NoNewHoles '{' '}' (names vars) (valueOf vars) template.toList := by
  have hnames : (names vars).Perm (names rest ++ [free.1.toList, free'.1.toList]) := by
    have hmap := hperm.map fun kv => kv.1.toList
    rwa [List.map_append] at hmap
  rw [simultaneous_iff hnodup]
  refine replaceHoles_eq_expand_iff (by decide) (fun k hk => ⟨(hplain k hk).1, (hplain k hk).2⟩)
    (fun k hk => ?_) hnames hnodup
  obtain ⟨kv, hkv, rfl⟩ := List.mem_map.mp hk
  have hmem : kv ∈ vars := hperm.symm.subset (List.mem_append_left _ hkv)
  rw [valueOf_of_mem hnodup hmem]
  exact ⟨List.mem_map_of_mem hmem, hinert kv hkv⟩

/-- The prompt of a hook is its template with all placeholders expanded at once, if and only if the
values make no further placeholders in it. -/
theorem simultaneous_iff_noNewHoles (data : HookEventData) (template : String) :
    Simultaneous template data.vars ↔
      NoNewHoles '{' '}' (names data.vars) (valueOf data.vars) template.toList := by
  cases data with
  | artifactUploaded artifact_id filename sha256 project_id project_name =>
    let keys :=
      ["artifact_id", "filename", "sha256", "project_id", "project_name"].map String.toList
    have hhyphen : ∀ k ∈ keys, '-' ∉ k := by decide +kernel
    have hshort : ∀ k ∈ keys, k.length < 64 := by decide +kernel
    have hplain : ∀ k ∈ keys, '{' ∉ k ∧ '}' ∉ k := by decide +kernel
    have hnodup : keys.Nodup := by decide +kernel
    have hperm : (HookEventData.artifactUploaded artifact_id filename sha256 project_id
        project_name).vars.Perm ([("artifact_id", uuidText artifact_id), ("sha256", sha256.text),
          ("project_id", uuidText project_id)] ++
            [("filename", filename), ("project_name", project_name)]) :=
      .cons _ ((List.Perm.swap _ _ _).trans (.cons _ (.swap _ _ _)))
    refine simultaneous_iff_of_inert hperm hnodup hplain ?_ template
    simp only [List.forall_mem_cons]
    exact ⟨inert_uuidText hhyphen artifact_id, inert_sha256 hshort sha256,
      inert_uuidText hhyphen project_id, List.forall_mem_nil _⟩
  | tick project_id project_name hook_name tick_generation =>
    let keys := ["project_id", "project_name", "hook_name", "tick_count"].map String.toList
    have hhyphen : ∀ k ∈ keys, '-' ∉ k := by decide +kernel
    have hdigit : keys.all (fun k => k.all fun ch => !ch.isDigit) = true := by decide +kernel
    have hplain : ∀ k ∈ keys, '{' ∉ k ∧ '}' ∉ k := by decide +kernel
    have hnodup : keys.Nodup := by decide +kernel
    have hperm : (HookEventData.tick project_id project_name hook_name tick_generation).vars.Perm
        ([("project_id", uuidText project_id), ("tick_count", toString (tick_generation + 1))] ++
          [("project_name", project_name.getD ""), ("hook_name", hook_name)]) :=
      .cons _ ((List.Perm.cons _ (.swap _ _ _)).trans (.swap _ _ _))
    refine simultaneous_iff_of_inert hperm hnodup hplain ?_ template
    simp only [List.forall_mem_cons]
    refine ⟨inert_uuidText hhyphen project_id, inert_toString (fun k hk ch hch => ?_) _,
      List.forall_mem_nil _⟩
    simpa using List.all_eq_true.mp (List.all_eq_true.mp hdigit k hk) ch hch

/-- A digest of zeros. -/
def zeros : Sha256 where
  text := String.ofList (List.replicate 64 '0')
  length_eq := by rw [String.toList_ofList, List.length_replicate]
  hex := by
    intro ch hch
    rw [String.toList_ofList] at hch
    exact ⟨0, by decide, List.eq_of_mem_replicate hch⟩

/-- A file whose name is a placeholder. -/
def namedAfterPlaceholder : HookEventData := .artifactUploaded 1 "{{sha256}}" zeros 2 "demo"

/-- If the file name comes before the digest, the digest is put where the file name was. -/
theorem not_simultaneous_placeholder_name :
    ¬Simultaneous "{{filename}}" namedAfterPlaceholder.vars := fun h =>
  absurd (h _ (List.Perm.refl _)) (by decide +kernel)

end Arbeiterfarm.Hooks
