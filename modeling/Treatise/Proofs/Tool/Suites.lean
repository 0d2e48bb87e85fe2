import Mathlib.Data.List.Nodup
import Treatise.Proofs.Dictionaries
import Treatise.Proofs.Tool.FileTrees
import Treatise.Tool.Suite

/-!
# The tests of a directory

Which tests a suite finds below a directory, and which of them are selected by the names of categories.

* **`FoundTest.splitAll_category`** — a category as the names of directories.
* **`mem_listingTests_iff`** — the tests of a listing are the files below the directory that are named
  like tests.
* **`Suite.get?_discover`** — a category has its tests, in the order of the paths.
* **`Suite.get?_select`** — a category is selected if a name asks for it.
* **`Suite.isAskedFor_category_iff`** — so a name asks for a directory and for those below it.
* **`Suite.exists_groups`** — so the selected categories hold every test that is asked for, each once.
-/

namespace Treatise

/-! ## The order of lists of names -/

theorem namesLe_cons {a b : String} {as bs : List String} :
    namesLe (a :: as) (b :: bs) = true ↔ a < b ∨ a = b ∧ namesLe as bs = true := by
  simp [namesLe]

theorem namesLe_iff {as bs : List String} :
    namesLe as bs = true ↔ as = bs ∨ List.Lex (· < ·) as bs := by
  induction as generalizing bs with
  | nil =>
    cases bs with
    | nil => simp [namesLe]
    | cons b bs => simp [namesLe]
  | cons a as ih =>
    cases bs with
    | nil => simp [namesLe]
    | cons b bs =>
      rw [namesLe_cons, ih, List.cons_lex_cons_iff, List.cons.injEq]
      constructor
      · rintro (h | ⟨h, h' | h'⟩)
        · exact .inr (.inl h)
        · exact .inl ⟨h, h'⟩
        · exact .inr (.inr ⟨h, h'⟩)
      · rintro (⟨h, h'⟩ | h | ⟨h, h'⟩)
        · exact .inr ⟨h, .inl h'⟩
        · exact .inl h
        · exact .inr ⟨h, .inr h'⟩

theorem namesLe_total (as bs : List String) : (namesLe as bs || namesLe bs as) = true := by
  rw [Bool.or_eq_true]
  induction as generalizing bs with
  | nil => exact .inl rfl
  | cons a as ih =>
    cases bs with
    | nil => exact .inr rfl
    | cons b bs =>
      rw [namesLe_cons, namesLe_cons]
      rcases Std.lt_trichotomy a b with h | h | h
      · exact .inl (.inl h)
      · exact (ih bs).imp (fun h' => .inr ⟨h, h'⟩) fun h' => .inr ⟨h.symm, h'⟩
      · exact .inr (.inl h)

theorem namesLe_trans {as bs cs : List String} (hab : namesLe as bs = true)
    (hbc : namesLe bs cs = true) : namesLe as cs = true := by
  induction as generalizing bs cs with
  | nil => rfl
  | cons a as ih =>
    cases bs with
    | nil => cases hab
    | cons b bs =>
      cases cs with
      | nil => cases hbc
      | cons c cs =>
        rw [namesLe_cons] at hab hbc ⊢
        rcases hab with hab | ⟨rfl, hab⟩
        · rcases hbc with hbc | ⟨rfl, -⟩
          · exact .inl (String.lt_trans hab hbc)
          · exact .inl hab
        · exact hbc.imp_right fun hbc => ⟨hbc.1, ih hab hbc.2⟩

/-! ## The tests that are found -/

namespace FoundTest

/-- The test is a file below the directory, and it is named like a test. -/
structure IsIn (t : FileTree) (f : FoundTest) : Prop where
  isFile : ∃ content, t.get? f.parts = some (.file content)
  isNamed : ".test.md".toList <:+ f.name.toList

/-- The test is a file in the entry of a directory with this name, or is that entry. -/
def IsBehind (name : String) (t : FileTree) (f : FoundTest) : Prop :=
  (∃ names, f.parts = name :: names ∧ ∃ content, t.get? names = some (.file content)) ∧
    isTestName f.name = true

/-- The order of tests: by the category, and within a category by the path. -/
def Before (f g : FoundTest) : Prop :=
  f.category < g.category ∨ f.category = g.category ∧ List.Lex (· < ·) f.parts g.parts

theorem ne_of_before {f g : FoundTest} (h : f.Before g) : f ≠ g := by
  rintro rfl
  rcases h with h | ⟨-, h⟩
  · exact String.lt_irrefl _ h
  · exact List.lex_irrefl String.lt_irrefl _ h

theorem eq_of_parts {f g : FoundTest} (h : f.parts = g.parts) : f = g := by
  obtain ⟨hdirectories, hname⟩ := List.append_inj' h rfl
  cases f
  cases g
  exact FoundTest.mk.injEq .. ▸ ⟨hdirectories, List.singleton_inj.1 hname⟩

/-- The pieces of a category are the directories that the test lies in, cut at backslashes. -/
theorem splitAll_category {f : FoundTest} (hne : f.directories ≠ [])
    (h : ∀ d ∈ f.directories, '/' ∉ d.toList) :
    Text.splitAll '/' f.category.toList =
      f.directories.flatMap fun d => Text.splitAll '\\' d.toList := by
  have hcategory : f.category.toList = ['/'].intercalate (f.directories.map fun d =>
      d.toList.map fun c => if c = '\\' then '/' else c) := by
    rw [category, String.toList_ofList, String.toList_intercalate]
    exact (Text.map_intercalate _ '/' _).trans (congrArg _ (List.map_map ..))
  rw [hcategory, Text.splitAll_intercalate (by simp [hne]), List.flatMap_map]
  exact List.flatMap_congr fun d hd => Text.splitAll_map_replace (h d hd)

end FoundTest

theorem isTestName_iff {name : String} :
    isTestName name = true ↔ ".test.md".toList <:+ name.toList := by
  rw [isTestName, Option.isSome_iff_exists]
  simp only [Text.stripEnd?_eq_some_iff]
  exact ⟨fun ⟨r, h⟩ => ⟨r, h.symm⟩, fun ⟨r, h⟩ => ⟨r, h.symm⟩⟩

section Listings

open FileTree FoundTest

variable {name : String} {t : FileTree} {entries : List (String × FileTree)}
  {directories : List String} {f : FoundTest}

theorem FoundTest.isIn_iff :
    f.IsIn t ↔ (∃ content, t.get? f.parts = some (.file content)) ∧ isTestName f.name = true :=
  ⟨fun ⟨h, h'⟩ => ⟨h, isTestName_iff.2 h'⟩, fun ⟨h, h'⟩ => ⟨h, isTestName_iff.1 h'⟩⟩

theorem FoundTest.isIn_cons_iff (h : (directory ((name, t) :: entries)).WellFormed) :
    f.IsIn (directory ((name, t) :: entries)) ↔ f.IsBehind name t ∨ f.IsIn (directory entries) := by
  obtain ⟨first, names, hparts⟩ : ∃ first names, f.parts = first :: names := by
    cases hdirectories : f.directories <;> simp [parts, hdirectories]
  simp only [isIn_iff, IsBehind, hparts, get?_cons_eq_some_iff h, exists_or, exists_and_left,
    List.cons.injEq, or_and_right]
  refine or_congr_left (and_congr_left' ?_)
  simp

theorem get?_file {content : ByteArray} {names : List String} {leaf : FileTree} :
    (file content).get? names = some leaf ↔ names = [] ∧ file content = leaf := by
  cases names <;> simp [get?]

/-- A file is a test of its own if it has the name of one. -/
theorem mem_tests_file_iff {content : ByteArray} :
    f ∈ ((file content).toListing name).tests directories ↔
      ∃ rest, f.directories = directories ++ rest ∧
        IsBehind name (file content) ⟨rest, f.name⟩ := by
  rw [toListing, Listing.tests]
  constructor
  · intro hf
    split at hf
    · next hname =>
      rw [List.mem_singleton.1 hf]
      exact ⟨[], (List.append_nil _).symm, ⟨[], rfl, content, rfl⟩, hname⟩
    · exact absurd hf List.not_mem_nil
  · rintro ⟨rest, hdirectories, ⟨names, hparts, leaf, hget⟩, hname⟩
    obtain ⟨rfl, -⟩ := get?_file.1 hget
    rcases rest with _ | ⟨first, _ | ⟨second, rest⟩⟩
    · obtain rfl : f.name = name := List.singleton_inj.1 hparts
      rw [if_pos hname, List.mem_singleton, ← hdirectories.trans (List.append_nil _)]
    · cases hparts
    · cases hparts

/-- The tests in a directory lie one name deeper. -/
theorem isIn_directory_iff {below : List (String × FileTree)} :
    (∃ rest, f.directories = directories ++ [name] ++ rest ∧
        IsIn (directory below) ⟨rest, f.name⟩) ↔
      ∃ rest, f.directories = directories ++ rest ∧
        IsBehind name (directory below) ⟨rest, f.name⟩ := by
  constructor
  · rintro ⟨rest, hdirectories, ⟨content, hget⟩, hname⟩
    exact ⟨name :: rest, by rw [hdirectories, List.append_assoc]; rfl,
      ⟨rest ++ [f.name], rfl, content, hget⟩, isTestName_iff.2 hname⟩
  · rintro ⟨rest, hdirectories, ⟨names, hparts, content, hget⟩, hname⟩
    -- a directory is no file, so the way to a file in it goes on
    cases rest with
    | nil =>
      obtain ⟨-, rfl⟩ := List.cons.inj hparts
      cases hget
    | cons first rest =>
      obtain ⟨rfl, rfl⟩ := List.cons.inj hparts
      exact ⟨rest, by rw [hdirectories, List.append_assoc]; rfl, ⟨content, hget⟩,
        isTestName_iff.1 hname⟩

/-- The tests of the entries of a directory, which lies in some directories itself. -/
theorem mem_listingTests_iff (h : (directory entries).WellFormed) :
    f ∈ listingTests directories (entriesToListing entries) ↔
      ∃ rest, f.directories = directories ++ rest ∧ IsIn (directory entries) ⟨rest, f.name⟩ := by
  induction entries using entries_induction generalizing directories with
  | nil =>
    refine iff_of_false List.not_mem_nil ?_
    rintro ⟨rest, -, ⟨content, hget⟩, -⟩
    cases rest <;> cases hget
  | file name content entries ih =>
    rw [entriesToListing, listingTests, List.mem_append, ih h.tail, mem_tests_file_iff]
    simp only [isIn_cons_iff h, and_or_left, exists_or]
  | directory name below entries ihBelow ih =>
    have hbelow := (wellFormed_of_mem h List.mem_cons_self).2
    rw [entriesToListing, listingTests, List.mem_append, toListing, Listing.tests,
      ihBelow hbelow, ih h.tail, isIn_directory_iff]
    simp only [isIn_cons_iff h, and_or_left, exists_or]

/-- What lies in the first entry of a directory is not in those behind it. -/
theorem FoundTest.not_isIn_of_parts (h : (directory ((name, t) :: entries)).WellFormed)
    {names : List String} (hparts : f.parts = name :: names) : ¬f.IsIn (directory entries) := by
  rintro ⟨⟨content, hget⟩, -⟩
  rw [hparts] at hget
  exact (List.nodup_cons.1 h.distinct).1 (mem_keys_of_get? h.tail.distinct hget)

/-- No test of a directory is found twice. -/
theorem nodup_listingTests (h : (directory entries).WellFormed) :
    (listingTests directories (entriesToListing entries)).Nodup := by
  induction entries using entries_induction generalizing directories with
  | nil => exact List.nodup_nil
  | file name content entries ih =>
    rw [entriesToListing, listingTests, toListing, Listing.tests]
    split
    · refine List.nodup_cons.2 ⟨fun hmem => ?_, ih h.tail⟩
      obtain ⟨rest, hdirectories, hin⟩ := (mem_listingTests_iff h.tail).1 hmem
      obtain rfl : rest = [] := List.self_eq_append_right.1 hdirectories
      exact not_isIn_of_parts h rfl hin
    · exact ih h.tail
  | directory name below entries ihBelow ih =>
    have hbelow := (wellFormed_of_mem h List.mem_cons_self).2
    rw [entriesToListing, listingTests, toListing, Listing.tests]
    refine (ihBelow hbelow).append (ih h.tail) fun f hfirst hmem => ?_
    obtain ⟨rest, hdirectories, -⟩ := (mem_listingTests_iff hbelow).1 hfirst
    obtain ⟨rest', hdirectories', hin⟩ := (mem_listingTests_iff h.tail).1 hmem
    -- both hold the directories from here on, of which the first is the name of the entry
    rw [hdirectories, List.append_assoc, List.append_right_inj] at hdirectories'
    subst hdirectories'
    exact not_isIn_of_parts h rfl hin

end Listings

/-! ## Suites -/

namespace Suite

/-- The tests of a listing, in the order of the paths. -/
def found (entries : List Listing) : List FoundTest :=
  (listingTests [] entries).mergeSort fun a b => namesLe a.parts b.parts

/-- The tests of a category. -/
def group (tests : List FoundTest) (category : String) : List FoundTest :=
  tests.filter (·.category == category)

theorem mem_found_iff {entries : List (String × FileTree)}
    (h : (FileTree.directory entries).WellFormed) {f : FoundTest} :
    f ∈ found (FileTree.entriesToListing entries) ↔ f.IsIn (.directory entries) := by
  rw [found, (List.mergeSort_perm _ _).mem_iff, mem_listingTests_iff h]
  simp

/-- The tests are found in the order of the paths, each once. -/
theorem pairwise_found {entries : List (String × FileTree)}
    (h : (FileTree.directory entries).WellFormed) :
    (found (FileTree.entriesToListing entries)).Pairwise
      fun f g => List.Lex (· < ·) f.parts g.parts := by
  have hsorted : (found (FileTree.entriesToListing entries)).Pairwise
      fun f g => namesLe f.parts g.parts = true :=
    List.pairwise_mergeSort
      (fun (f g k : FoundTest) (hfg : namesLe f.parts g.parts = true) hgk => namesLe_trans hfg hgk)
      (fun f g => namesLe_total f.parts g.parts) _
  have hnodup : (found (FileTree.entriesToListing entries)).Nodup :=
    (List.mergeSort_perm _ _).nodup_iff.2 (nodup_listingTests h)
  -- what comes before and is not the same comes strictly before
  refine (hsorted.and hnodup).imp fun ⟨hle, hne⟩ => ?_
  exact (namesLe_iff.1 hle).resolve_left fun heq => hne (FoundTest.eq_of_parts heq)

theorem group_cons (f : FoundTest) (tests : List FoundTest) (category : String) :
    group (f :: tests) category =
      if category = f.category then f :: group tests category else group tests category := by
  by_cases h : category = f.category
  · rw [if_pos h, group, List.filter_cons_of_pos (by simp [h])]
    rfl
  · rw [if_neg h, group, List.filter_cons_of_neg (by simp [Ne.symm h])]
    rfl

theorem get?_foldl_add (top : String) (s : Suite) (tests : List FoundTest) (category : String) :
    (tests.foldl (add top) s).get? category =
      if group tests category = [] then s.get? category
      else some ((s.get? category).getD [] ++ (group tests category).map (·.path top)) := by
  induction tests generalizing s with
  | nil => rfl
  | cons f tests ih =>
    rw [List.foldl_cons, ih, add, Dict.get?_insert, group_cons]
    by_cases hcategory : category = f.category
    · by_cases hgroup : group tests category = []
      · simp [hcategory ▸ hgroup, hcategory]
      · simp [hcategory ▸ hgroup, hcategory]
    · simp only [if_neg hcategory]

/-- A category has its tests, in the order of the paths. -/
theorem get?_discover (top : String) (entries : List Listing) (category : String) :
    (discover top entries).get? category =
      if group (found entries) category = [] then none
      else some ((group (found entries) category).map (·.path top)) :=
  get?_foldl_add top ∅ (found entries) category

/-! ## Selections -/

theorem isWithin_iff {name category : String} :
    isWithin name category = true ↔
      Text.splitAll '/' name.toList <+: Text.splitAll '/' category.toList := by
  have hprefix : (name ++ "/").isPrefixOf category = true ↔
      name.toList ++ ['/'] <+: category.toList := by
    rw [String.isPrefixOf, String.startsWith_string_iff, String.toList_append]
    rfl
  rw [Text.splitAll_prefix_iff, isWithin, Bool.or_eq_true, beq_iff_eq, hprefix, String.toList_inj]

example : isWithin "a/b" "a/b/c" = true ∧ isWithin "a/b" "a/bc" = false := by decide +kernel

theorem get?_selectName (all selected : Suite) (name category : String) :
    (selectName all selected name).1.get? category =
      if isWithin (trimSlashes name) category then (all.get? category).or (selected.get? category)
      else selected.get? category := by
  have hentries : (all.entries.filter fun e => isWithin (trimSlashes name) e.1).filter
        (·.1 == category) =
      if isWithin (trimSlashes name) category then ((all.get? category).map (category, ·)).toList
      else [] := by
    rw [List.filter_comm, Dict.filter_entries]
    cases all.get? category with
    | none => split <;> rfl
    | some tests => exact List.filter_singleton.trans (cond_eq_ite ..)
  refine (Dict.get?_insertAll selected _ category).trans ?_
  rw [hentries]
  split
  · cases all.get? category <;> rfl
  · rfl

theorem get?_selectNames (all selected : Suite) (names : List String) (category : String) :
    (selectNames all selected names).1.get? category =
      if ∃ name ∈ names, isWithin (trimSlashes name) category then
        (all.get? category).or (selected.get? category)
      else selected.get? category := by
  induction names generalizing selected with
  | nil => simp [selectNames]
  | cons name names ih =>
    rw [selectNames, ih, get?_selectName]
    simp only [List.mem_cons, exists_eq_or_imp]
    by_cases hname : isWithin (trimSlashes name) category = true
    · by_cases hnames : ∃ name ∈ names, isWithin (trimSlashes name) category = true
      · cases all.get? category <;> simp [hname, hnames]
      · simp [hname, hnames]
    · simp [hname]

/-- A name asks for the category or for one around it, which is to say that its pieces between slashes
begin those of the category. All categories are asked for where there is no name. -/
def IsAskedFor (names : List String) (category : String) : Prop :=
  names = [] ∨ ∃ name ∈ names,
    Text.splitAll '/' (trimSlashes name).toList <+: Text.splitAll '/' category.toList

/-- Where no name of a directory has a backslash, a name asks for the tests of a directory and for those
below it. -/
theorem isAskedFor_category_iff {names : List String} {f : FoundTest} (hne : f.directories ≠ [])
    (h : ∀ d ∈ f.directories, '/' ∉ d.toList ∧ '\\' ∉ d.toList) :
    IsAskedFor names f.category ↔ names = [] ∨ ∃ name ∈ names,
      Text.splitAll '/' (trimSlashes name).toList <+: f.directories.map String.toList := by
  rw [IsAskedFor, FoundTest.splitAll_category hne fun d hd => (h d hd).1, ← List.flatMap_pure_eq_map]
  have hpieces : f.directories.flatMap (fun d => Text.splitAll '\\' d.toList) =
      f.directories.flatMap (pure ∘ String.toList) :=
    List.flatMap_congr fun d hd => Text.splitAll_of_notMem (h d hd).2
  rw [hpieces]

open Classical in
theorem get?_select (all : Suite) (names : List String) (category : String) :
    (all.select names).1.get? category =
      if IsAskedFor names category then all.get? category else none := by
  simp only [IsAskedFor, ← isWithin_iff, select]
  split
  · next hnil => rw [if_pos (.inl (List.isEmpty_iff.1 hnil))]
  · next hnil =>
    rw [get?_selectNames]
    simp only [mt List.isEmpty_iff.2 hnil, false_or]
    exact if_congr Iff.rfl Option.or_none rfl

theorem entries_select_of_isEmpty {all : Suite} (h : all.isEmpty = true) (names : List String) :
    (all.select names).1.entries = [] := by
  refine List.eq_nil_iff_forall_not_mem.2 fun e he => ?_
  have hget := Dict.mem_entries_iff.1 (show (e.1, e.2) ∈ _ from he)
  rw [get?_select] at hget
  have hmem := Dict.mem_entries_iff.2 (Option.ite_none_right_eq_some.1 hget).2
  exact List.not_mem_nil (List.isEmpty_iff.1 h ▸ hmem)

theorem mem_entries_select_iff (top : String) (entries : List Listing) (names : List String)
    (category : String) (paths : List String) :
    (category, paths) ∈ ((discover top entries).select names).1.entries ↔
      IsAskedFor names category ∧ group (found entries) category ≠ [] ∧
        (group (found entries) category).map (·.path top) = paths := by
  rw [Dict.mem_entries_iff, get?_select, get?_discover]
  by_cases hasked : IsAskedFor names category
  · by_cases hgroup : group (found entries) category = [] <;> simp [hasked, hgroup]
  · simp [hasked]

/-! ## The groups of a selection -/

/-- Groups of tests by category hold all tests of a directory that names ask for, each once and in
order. -/
structure IsSelection (t : FileTree) (names : List String)
    (groups : List (String × List FoundTest)) : Prop where
  mem_iff : ∀ f, f ∈ groups.flatMap (·.2) ↔ f.IsIn t ∧ IsAskedFor names f.category
  ordered : (groups.flatMap (·.2)).Pairwise FoundTest.Before
  category_eq : ∀ g ∈ groups, ∀ f ∈ g.2, f.category = g.1
  ne_nil : ∀ g ∈ groups, g.2 ≠ []

theorem IsSelection.nodup {t : FileTree} {names : List String}
    {groups : List (String × List FoundTest)} (h : IsSelection t names groups) :
    (groups.flatMap (·.2)).Nodup :=
  h.ordered.imp FoundTest.ne_of_before

theorem mem_group_iff {tests : List FoundTest} {category : String} {f : FoundTest} :
    f ∈ group tests category ↔ f ∈ tests ∧ f.category = category := by
  rw [group, List.mem_filter, beq_iff_eq]

/-- The selected categories of a directory are groups of all tests that are asked for. -/
theorem exists_groups {entries : List (String × FileTree)}
    (h : (FileTree.directory entries).WellFormed) (top : String) (names : List String) :
    ∃ groups, IsSelection (.directory entries) names groups ∧
      ((discover top (FileTree.entriesToListing entries)).select names).1.entries =
        groups.map fun g => (g.1, g.2.map (·.path top)) := by
  have hentries := mem_entries_select_iff top (FileTree.entriesToListing entries) names
  -- of the tests and the selected categories, only this is used from here on
  have hfound := pairwise_found h
  have hmem := fun f => mem_found_iff (f := f) h
  generalize found (FileTree.entriesToListing entries) = tests at hentries hfound hmem
  generalize ((discover top (FileTree.entriesToListing entries)).select names).1 = selected
    at hentries
  refine ⟨selected.entries.map fun e => (e.1, group tests e.1), ⟨fun f => ?_, ?_, ?_, ?_⟩, ?_⟩
  · simp only [List.mem_flatMap, List.mem_map]
    constructor
    · rintro ⟨g, ⟨e, he, rfl⟩, hf⟩
      obtain ⟨hf, hcategory⟩ := mem_group_iff.1 hf
      exact ⟨(hmem f).1 hf, hcategory ▸ ((hentries _ _).1 he).1⟩
    · rintro ⟨hin, hasked⟩
      have hf : f ∈ group tests f.category := mem_group_iff.2 ⟨(hmem f).2 hin, rfl⟩
      exact ⟨_, ⟨_, (hentries _ _).2 ⟨hasked, List.ne_nil_of_mem hf, rfl⟩, rfl⟩, hf⟩
  · rw [List.flatMap_map, List.pairwise_flatMap]
    constructor
    -- within a category the order is that of the paths, and the categories ascend
    · intro e _
      have hgroup := hfound.filter (·.category == e.1)
      refine hgroup.imp_of_mem fun hf hg hlex => .inr ⟨?_, hlex⟩
      exact (mem_group_iff.1 hf).2.trans (mem_group_iff.1 hg).2.symm
    · refine selected.sorted.imp fun hlt f hf g hg => .inl ?_
      rwa [(mem_group_iff.1 hf).2, (mem_group_iff.1 hg).2]
  · simp only [List.mem_map]
    rintro g ⟨e, -, rfl⟩ f hf
    exact (mem_group_iff.1 hf).2
  · simp only [List.mem_map]
    rintro g ⟨e, he, rfl⟩
    exact ((hentries _ _).1 he).2.1
  · rw [List.map_map]
    refine (List.map_id' _).symm.trans (List.map_congr_left fun e he => Prod.ext rfl ?_)
    exact ((hentries _ _).1 he).2.2.symm

end Suite

end Treatise
