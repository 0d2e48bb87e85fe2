import Mathlib.Data.List.Infix
import Treatise.Proofs.Tool.Suites

/-!
# Selections by several names

The categories that a list of names selects, and the warnings about the names. The names are taken
one after the other, and what they have selected is described by the names alone.

* `Suite.Asks` — a name asks for a category: the category has the name or lies below it.
* `Suite.selectName_chosen`, `Suite.selectNames_chosen` — what one name adds to the selection of
  those before it, and what all names add. A name that adds nothing is warned about.
* **`Suite.entries_and_warnings_select`** — the selected entries are those of the suite that a name
  asks for. The warnings are about just the names that ask for no category of the suite, if and only
  if all other names add a category.
-/

namespace Treatise

/-- The places of a list, each with what stands in front of it. -/
theorem mem_zip_inits_iff {α : Type} {l before : List α} {a : α} :
    (before, a) ∈ l.inits.zip l ↔ before ++ [a] <+: l := by
  induction l generalizing before with
  | nil => simp
  | cons b l ih =>
    rw [List.inits_cons, List.zip_cons_cons, List.mem_cons, List.zip_map_left, List.mem_map]
    cases before with
    | nil => simp [eq_comm]
    | cons c before => simp [← ih, and_comm, eq_comm]

namespace Suite

variable {all : Suite} {before names : List String} {name category : String}

/-- The name asks for the category: without the slashes around it, it is the category, or the
category begins with it and a slash. -/
def Asks (name category : String) : Prop :=
  category = trimSlashes name ∨ (trimSlashes name ++ "/").toList <+: category.toList

theorem isWithin_trimSlashes_iff :
    isWithin (trimSlashes name) category = true ↔ Asks name category := by
  rw [isWithin, Bool.or_eq_true, beq_iff_eq, String.isPrefixOf, String.startsWith_string_iff, Asks]

instance : Decidable (Asks name category) := decidable_of_iff _ isWithin_trimSlashes_iff

/-- The name asks for a category of the suite that no name before it asks for. -/
def Adds (all : Suite) (before : List String) (name : String) : Prop :=
  ∃ category ∈ all.keys, Asks name category ∧ ∀ earlier ∈ before, ¬Asks earlier category

instance : Decidable (all.Adds before name) :=
  inferInstanceAs (Decidable (∃ category ∈ all.keys, Asks name category ∧
    ∀ earlier ∈ before, ¬Asks earlier category))

/-! ## Taking the names in turn -/

/-- The categories of the suite that names ask for. -/
def chosen (all : Suite) (names : List String) : Suite :=
  all.restrict fun category => decide (∃ name ∈ names, Asks name category)

theorem get?_chosen (all : Suite) (names : List String) (category : String) :
    (all.chosen names).get? category =
      if ∃ name ∈ names, Asks name category then all.get? category else none := by
  rw [chosen, Dict.get?_restrict]
  simp only [decide_eq_true_eq]

/-- What a name selects behind others is what they select together. -/
theorem fst_selectName_chosen (all : Suite) (before : List String) (name : String) :
    (selectName all (all.chosen before) name).1 = all.chosen (before ++ [name]) := by
  refine Dict.ext_get? fun category => ?_
  rw [get?_selectName, get?_chosen, get?_chosen]
  simp only [isWithin_trimSlashes_iff, List.mem_append, List.mem_singleton, or_and_right, exists_or,
    exists_eq_left]
  by_cases hname : Asks name category
  · simp only [hname, or_true, if_true]
    split
    · exact Option.or_self
    · exact Option.or_none
  · simp only [hname, or_false, if_false]

/-- The selection is no larger with one name more if the name asks for nothing new. -/
theorem size_chosen_append_eq_iff (all : Suite) (before : List String) (name : String) :
    (all.chosen (before ++ [name])).size = (all.chosen before).size ↔ ¬all.Adds before name := by
  rw [eq_comm, chosen, chosen, Dict.size_restrict_eq_iff]
  · simp only [Adds, decide_eq_true_eq, List.mem_append, List.mem_singleton, not_exists, not_and,
      not_forall, not_not, exists_prop]
    constructor
    · intro h category hmem hname
      exact h category hmem ⟨name, .inr rfl, hname⟩
    · rintro h category hmem ⟨asking, hasking | rfl, hasks⟩
      · exact ⟨asking, hasking, hasks⟩
      · exact h category hmem hasks
  · simp only [decide_eq_true_eq]
    rintro category ⟨earlier, hearlier, hasks⟩
    exact ⟨earlier, List.mem_append_left _ hearlier, hasks⟩

/-- One name behind others: it adds what it asks for, and it is warned about if this is nothing new.
-/
theorem selectName_chosen (all : Suite) (before : List String) (name : String) :
    selectName all (all.chosen before) name =
      (all.chosen (before ++ [name]),
        if all.Adds before name then [] else [notFound all (trimSlashes name)]) := by
  refine Prod.ext (fst_selectName_chosen all before name) ?_
  have hsize := size_chosen_append_eq_iff all before name
  rw [← fst_selectName_chosen] at hsize
  refine (if_congr hsize rfl rfl).trans ?_
  exact ite_not _ _ _

/-- The warnings about names that are taken behind others. -/
def warnings (all : Suite) (before names : List String) : List String :=
  ((names.inits.zip names).filter fun p => ¬all.Adds (before ++ p.1) p.2).map
    fun p => notFound all (trimSlashes p.2)

theorem warnings_cons (all : Suite) (before : List String) (name : String) (names : List String) :
    all.warnings before (name :: names) =
      (if all.Adds before name then [] else [notFound all (trimSlashes name)]) ++
        all.warnings (before ++ [name]) names := by
  have hbefore (p : List String × String) :
      before ++ (Prod.map (name :: ·) id p).1 = before ++ [name] ++ p.1 := by simp
  rw [warnings, warnings, List.inits_cons, List.zip_cons_cons, List.zip_map_left, List.filter_cons,
    List.filter_map, apply_ite (List.map _), List.map_cons, List.append_nil]
  simp only [Function.comp_def, hbefore, List.map_map, Prod.map_snd, id]
  by_cases hadds : all.Adds before name <;> simp [hadds]

/-- The names of a list behind others. Induction on the list: each name is a step, and then stands
before those that follow. -/
theorem selectNames_chosen (all : Suite) (before names : List String) :
    selectNames all (all.chosen before) names =
      (all.chosen (before ++ names), all.warnings before names) := by
  induction names generalizing before with
  | nil => rw [List.append_nil]; rfl
  | cons name names ih =>
    rw [selectNames, selectName_chosen, warnings_cons]
    simp only [ih, List.append_assoc, List.singleton_append]

/-! ## The whole selection -/

theorem select_eq (all : Suite) (hnames : names ≠ []) :
    all.select names = (all.chosen names, all.warnings [] names) := by
  have hempty : all.chosen [] = ∅ := by
    refine Dict.ext_get? fun category => ?_
    rw [get?_chosen, if_neg (by simp)]
    rfl
  rw [select, if_neg (mt List.isEmpty_iff.1 hnames), ← hempty, selectNames_chosen, List.nil_append]

/-- The warnings are about the names that no category has, if every other name adds a category. -/
theorem warnings_eq_iff :
    all.warnings [] names =
        (names.filter fun name => ¬∃ category ∈ all.keys, Asks name category).map
          (fun name => notFound all (trimSlashes name)) ↔
      ∀ before name, before ++ [name] <+: names → (∃ category ∈ all.keys, Asks name category) →
        all.Adds before name := by
  -- the names with those in front of them, of which two filters are compared
  have hzip : names = (names.inits.zip names).map (·.2) := by
    refine (List.map_snd_zip ?_).symm
    rw [List.length_inits]
    omega
  have hfilter : (names.filter fun name => ¬∃ category ∈ all.keys, Asks name category).map
        (fun name => notFound all (trimSlashes name)) =
      ((names.inits.zip names).filter fun p => ¬∃ category ∈ all.keys, Asks p.2 category).map
        fun p => notFound all (trimSlashes p.2) := by
    conv_lhs => rw [hzip]
    rw [List.filter_map, List.map_map]
    rfl
  have hweaker (p : List String × String) (h : ¬∃ category ∈ all.keys, Asks p.2 category) :
      ¬all.Adds ([] ++ p.1) p.2 :=
    fun ⟨category, hmem, hasks, _⟩ => h ⟨category, hmem, hasks⟩
  rw [hfilter, warnings]
  constructor
  · intro heq before name hplace hcategory
    have hlength := congrArg List.length heq
    rw [List.length_map, List.length_map, eq_comm, length_filter_eq_iff] at hlength
    · by_contra hadds
      have hmem := mem_zip_inits_iff.2 hplace
      exact of_decide_eq_true (hlength _ hmem (decide_eq_true hadds)) hcategory
    · intro p _ hnone
      exact decide_eq_true (hweaker p (of_decide_eq_true hnone))
  · intro h
    congr 1
    refine List.filter_congr fun p hp => decide_eq_decide.2 ⟨fun hadds hcategory => ?_, hweaker p⟩
    exact hadds (h p.1 p.2 (mem_zip_inits_iff.1 hp) hcategory)

/-- The selected entries are those of the suite that one of the names asks for, in the order of the
suite. A name is warned about if it asks for no category but those that names before it ask for; so
the warnings are about just the names that no category of the suite has, if and only if each other
name asks for a category that no name before it asks for. -/
theorem entries_and_warnings_select (all : Suite) (hnames : names ≠ []) :
    (all.select names).1.entries =
        all.entries.filter (fun e => ∃ name ∈ names, Asks name e.1) ∧
      (all.select names).2 =
        ((names.inits.zip names).filter fun p => ¬all.Adds p.1 p.2).map
          (fun p => notFound all (trimSlashes p.2)) ∧
      ((all.select names).2 =
          (names.filter fun name => ¬∃ category ∈ all.keys, Asks name category).map
            (fun name => notFound all (trimSlashes name)) ↔
        ∀ before name, before ++ [name] <+: names → (∃ category ∈ all.keys, Asks name category) →
          all.Adds before name) := by
  rw [select_eq all hnames]
  exact ⟨rfl, rfl, warnings_eq_iff⟩

/-- A name that is given twice is warned about, with its category among those that are available. -/
theorem warnings_select_of_repeated_name :
    (select ((∅ : Suite).insert "a" ["t/a/x.test.md"]) ["a", "a"]).2 =
      ["warning: category 'a' not found (available: a)"] := by
  rw [(entries_and_warnings_select _ (List.cons_ne_nil "a" ["a"])).2.1]
  decide +kernel

end Suite

end Treatise
