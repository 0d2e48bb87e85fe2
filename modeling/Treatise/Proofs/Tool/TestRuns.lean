import Treatise.Proofs.Tool.Commands
import Treatise.Proofs.Tool.Suites

/-!
# Runs of conformance tests

What a run of the tests of a directory does, in a tree of files that it leaves as it is.

* **`run_runTests`** — the run, with the results of its tests.
* **`tests_asked_for_are_run`** — which tests these are, how they are counted, and when the run is a
  success.
-/

namespace Treatise

open FileTree

/-- The result of a test in a tree of files. -/
def FileTree.testResult (t : FileTree) (path : String) : TestResult :=
  ((runTest FileTree.files path).run t).1

/-- The results of tests by category, in a tree of files. -/
def FileTree.groupResults (t : FileTree) (top : String)
    (groups : List (String × List FoundTest)) : List (String × List TestResult) :=
  groups.map fun g => (g.1, g.2.map fun f => t.testResult (f.path top))

/-- What is reported on groups of tests of a directory. -/
structure TestCommand.Reports (c : TestCommand) (plain : Bool) (t : FileTree)
    (groups : List (String × List FoundTest)) (o : Outcome) : Prop where
  /-- The report shows the result of every test. -/
  report : groups ≠ [] → ∃ warnings, o.stderr =
    unlines warnings ++ unlines (reportLines plain false (t.groupResults c.path groups))
  /-- It ends in the numbers of the tests that passed and failed. -/
  summary : groups ≠ [] → ∃ front passed failed,
    o.stderr = front ++ summaryLine plain passed failed ++ "\n" ∧
      passed = (groups.flatMap (·.2)).countP (fun f => (t.testResult (f.path c.path)).passed) ∧
      passed + failed = (groups.flatMap (·.2)).length
  /-- The run is a success if there are tests and all of them pass. -/
  success : o.code = 0 ↔
    groups ≠ [] ∧ ∀ f ∈ groups.flatMap (·.2), (t.testResult (f.path c.path)).passed = true

variable {t : FileTree} {top : String} {groups : List (String × List FoundTest)}

theorem results_groupResults :
    (t.groupResults top groups).flatMap (·.2) =
      (groups.flatMap (·.2)).map fun f => t.testResult (f.path top) := by
  rw [groupResults, List.flatMap_map, List.map_flatMap]

/-! ## The report -/

theorem unlines_append (ls ms : List String) : unlines (ls ++ ms) = unlines ls ++ unlines ms := by
  rw [unlines, List.map_append, String.join_append]
  rfl

theorem unlines_singleton (l : String) : unlines [l] = l ++ "\n" := by
  rw [unlines, List.map_singleton, String.join_cons, String.join_nil, String.append_empty]

/-- A report ends in the numbers of the results. -/
theorem exists_reportLines_eq (plain : Bool) (results : List (String × List TestResult)) :
    ∃ front passed failed,
      reportLines plain false results = front ++ [summaryLine plain passed failed] ∧
      passed = (results.flatMap (·.2)).countP (·.passed) ∧
      passed + failed = (results.flatMap (·.2)).length := by
  have hcount := List.length_eq_countP_add_countP TestResult.passed (l := results.flatMap (·.2))
  simp only [Bool.not_eq_true, Bool.decide_eq_false, List.countP_eq_length_filter] at hcount
  rw [reportLines]
  -- what stands above the last two lines does not matter
  generalize List.flatMap _ results ++ failuresLines _ = above
  refine ⟨above ++ [""], _, _, by rw [List.append_assoc]; rfl, ?_,
    Nat.sub_add_cancel (List.length_filter_le _ _)⟩
  rw [List.countP_eq_length_filter]
  exact Nat.sub_eq_of_eq_add hcount

theorem code_reportOutcome (plain : Bool) (results : List (String × List TestResult)) :
    (reportOutcome plain false results).code = 0 ↔
      ∀ r ∈ results.flatMap (·.2), r.passed = true := by
  have hall : (results.all fun g => g.2.all (·.passed)) = true ↔
      ∀ r ∈ results.flatMap (·.2), r.passed = true := by
    simp only [List.all_eq_true, List.forall_mem_flatMap]
  rw [← hall, reportOutcome]
  split
  · next h => exact iff_of_true rfl h
  · next h => exact iff_of_false Nat.one_ne_zero h

/-- The outcome of the run of some tests: warnings, and the report on them. -/
theorem TestCommand.Reports.of_report {c : TestCommand} {plain : Bool} {warnings : List String}
    {report : Outcome} (hreport : report = reportOutcome plain false (t.groupResults c.path groups))
    (hne : groups ≠ []) :
    c.Reports plain t groups { report with stderr := unlines warnings ++ report.stderr } := by
  subst hreport
  refine ⟨fun _ => ⟨warnings, rfl⟩, fun _ => ?_, ?_⟩
  · obtain ⟨front, passed, failed, hfront, hpassed, hsum⟩ :=
      exists_reportLines_eq plain (t.groupResults c.path groups)
    rw [results_groupResults, List.countP_map] at hpassed
    rw [results_groupResults, List.length_map] at hsum
    refine ⟨unlines warnings ++ unlines front, passed, failed, ?_, hpassed, hsum⟩
    show unlines warnings ++ unlines (reportLines plain false _) = _
    rw [hfront, unlines_append, unlines_singleton, String.append_assoc, String.append_assoc]
  · rw [code_reportOutcome, results_groupResults, List.forall_mem_map]
    exact (and_iff_right hne).symm

/-! ## The run -/

theorem run_runGroups (t : FileTree) (groups : List (String × List String)) :
    (runGroups FileTree.files groups).run t =
      (groups.map fun g => (g.1, g.2.map t.testResult), t) := by
  have hgroup (g : String × List String) : ReadsOnly
      (do return (g.1, ← g.2.mapM (runTest FileTree.files)) : StateM FileTree _) :=
    (ReadsOnly.mapM readsOnly_runTest g.2).bind fun _ => .pure _
  rw [runGroups, ReadsOnly.run_mapM hgroup]
  refine Prod.ext (List.map_congr_left fun g _ => ?_) rfl
  rw [(ReadsOnly.mapM readsOnly_runTest g.2).run_bind, ReadsOnly.run_mapM readsOnly_runTest]
  rfl

/-- The run of the tests of a directory whose selected categories are these groups. -/
theorem run_runTests (c : TestCommand) (plain : Bool) {entries : List (String × FileTree)}
    (hpath : t.LeadsTo c.path (directory entries))
    (hselected :
      ((Suite.discover c.path (entriesToListing entries)).select c.categories).1.entries =
        groups.map fun g => (g.1, g.2.map (·.path c.path))) :
    ∃ o, (c.runTests plain FileTree.files).run t = (o, t) ∧ c.Reports plain t groups o := by
  have hisFile : ReadsOnly (FileTree.files.isFile c.path) := fun _ => rfl
  have hlist : ReadsOnly (FileTree.files.list c.path) := fun _ => rfl
  have hfile : ((FileTree.files.isFile c.path).run t).1 = false := hpath.isFile_directory
  have hentries : ((FileTree.files.list c.path).run t).1 = entriesToListing entries :=
    hpath.list_directory
  -- without a group there is no report, and the run fails
  have hnone (o : Outcome) (hcode : o.code = 1) (hnil : groups = []) :
      c.Reports plain t groups o :=
    ⟨fun hne => absurd hnil hne, fun hne => absurd hnil hne, by simp [hcode, hnil]⟩
  rw [TestCommand.runTests, hisFile.run_bind, hfile, if_neg Bool.false_ne_true, hlist.run_bind,
    hentries]
  dsimp only
  split
  · next hempty =>
    rw [Suite.entries_select_of_isEmpty hempty, eq_comm, List.map_eq_nil_iff] at hselected
    exact ⟨_, rfl, hnone _ rfl hselected⟩
  · split
    · next hempty =>
      rw [Dict.isEmpty, List.isEmpty_iff, hselected, List.map_eq_nil_iff] at hempty
      exact ⟨_, rfl, hnone _ rfl hempty⟩
    · next hempty =>
      rw [Dict.isEmpty, List.isEmpty_iff, hselected, List.map_eq_nil_iff] at hempty
      rw [hselected, StateT.run_bind, run_runGroups]
      refine ⟨_, rfl, .of_report ?_ hempty⟩
      rw [List.map_map, groupResults]
      simp only [Function.comp_def, List.map_map]

/-- A run of the tests of a directory runs all tests below it that are asked for, each once and in the
order of categories and paths, and reports on them. -/
theorem tests_asked_for_are_run (c : TestCommand) (plain : Bool) {t : FileTree}
    {entries : List (String × FileTree)} (hwf : t.WellFormed)
    (hpath : t.LeadsTo c.path (directory entries)) (hrun : c.listCategories = false) :
    ∃ groups o, (c.run plain FileTree.files).run t = (o, t) ∧
      Suite.IsSelection (directory entries) c.categories groups ∧ (groups.flatMap (·.2)).Nodup ∧
      c.Reports plain t groups o ∧
      ∀ f ∈ groups.flatMap (·.2), ∀ content,
        (directory entries).get? f.parts = some (file content) →
        FileError.ofPath? (f.path c.path) = none → t.read (f.path c.path) = .ok content := by
  have hdirectory := hpath.wellFormed hwf
  obtain ⟨groups, hgroups, hselected⟩ := Suite.exists_groups hdirectory c.path c.categories
  obtain ⟨o, ho, hreports⟩ := run_runTests c plain hpath hselected
  refine ⟨groups, o, ?_, hgroups, hgroups.nodup, hreports, fun f _ content hget hok => ?_⟩
  · rw [TestCommand.run, hrun]
    exact ho
  · exact (hpath.joinAll hdirectory hget hok).read_file

/-- Of two tests, one lies below the directory `a` that is asked for, in a directory that is itself named
like a test. -/
theorem tests_asked_for_are_run_below_a_directory :
    let tests := [("a", directory [("u.test.md", directory [("x.test.md", file ByteArray.empty)])]),
      ("b.test.md", file ByteArray.empty)]
    let t := directory [("t", directory tests)]
    let c : TestCommand := { path := "t", categories := ["/a/"], listCategories := false }
    ∃ groups o, (c.run true FileTree.files).run t = (o, t) ∧
      Suite.IsSelection (directory tests) ["/a/"] groups ∧ c.Reports true t groups o ∧
      ⟨["a", "u.test.md"], "x.test.md"⟩ ∈ groups.flatMap (·.2) ∧
      ⟨[], "b.test.md"⟩ ∉ groups.flatMap (·.2) := by
  intro tests t c
  have hsingle (name : String) (u : FileTree) (hname : IsName name) (hu : u.WellFormed) :
      (directory [(name, u)]).WellFormed :=
    .directory (List.nodup_singleton _) (List.forall_mem_singleton.2 hname)
      (List.forall_mem_singleton.2 hu)
  have ha := hsingle "u.test.md" _ (by decide +kernel)
    (hsingle "x.test.md" _ (by decide +kernel) (.file ByteArray.empty))
  have hwf : t.WellFormed := hsingle "t" _ (by decide +kernel)
    (.directory (by decide +kernel) (by decide +kernel)
      (List.forall_mem_cons.2 ⟨ha, List.forall_mem_singleton.2 (.file _)⟩))
  obtain ⟨groups, o, hrun, hgroups, -, hreports, -⟩ :=
    tests_asked_for_are_run c true hwf ⟨["t"], by decide +kernel, rfl⟩ rfl
  refine ⟨groups, o, hrun, hgroups, hreports, ?_, ?_⟩
  · rw [hgroups.mem_iff]
    exact ⟨⟨⟨_, rfl⟩, ⟨"x".toList, by decide +kernel⟩⟩, .inr ⟨"/a/", .head _, by decide +kernel⟩⟩
  · rw [hgroups.mem_iff]
    rintro ⟨-, h | ⟨name, hname, h⟩⟩
    · cases h
    · obtain rfl := List.mem_singleton.1 hname
      exact absurd h (by decide +kernel)

/-- A backslash in the name of a directory is a slash in the category, so that the directory is not
found by its own name. -/
theorem backslash_is_no_part_of_a_category :
    (⟨["a\\b"], "x.test.md"⟩ : FoundTest).IsIn
        (directory [("a\\b", directory [("x.test.md", file ByteArray.empty)])]) ∧
      (((⟨"t", ["a\\b"], false⟩ : TestCommand).run true FileTree.files).run (directory [("t",
        directory [("a\\b", directory [("x.test.md", file ByteArray.empty)])])])).1.stderr =
        "warning: category 'a\\b' not found (available: a/b)\nno matching categories found\n" := by
  refine ⟨⟨⟨_, rfl⟩, ⟨"x".toList, by decide +kernel⟩⟩, by decide +kernel⟩

end Treatise
