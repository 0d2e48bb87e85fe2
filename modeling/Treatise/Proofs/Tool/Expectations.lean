import Mathlib.Data.List.Basic
import Mathlib.Data.Nat.Basic
import Treatise.Proofs.Conversions
import Treatise.Proofs.Tool.Precedence
import Treatise.Proofs.Tool.TestRuns

/-!
# What a conformance test expects

The expectations of a test, said of the output as a whole and not in the order in which they are
checked.

* **`ExpectedWarning.IsMetBy`**, **`Conformance.IsMetBy`** — a warning, and an output, as they are
  expected.
* `Span.startsOnLine_iff` — the line that is found for a span is the one on which it starts.
* `Conformance.checkContent_eq_none_iff`, `Conformance.checkWarnings_eq_none_iff` — nothing is found
  wrong with a content, and with the warnings, just if they are as expected.
* **`Conformance.passes_iff_isMetBy`** — a test passes if and only if its output meets the
  expectations.
-/

namespace Treatise

/-! ## Lines -/

/-- The line of a byte is behind the line ends that stand in front of it. -/
theorem Conformance.lineOfByte_append (before after : List Char) :
    lineOfByte (before ++ after) (Text.byteLength before) = before.count '\n' + 1 := by
  induction before with
  | nil => cases after <;> simp [lineOfByte]
  | cons c before ih =>
    have hbehind : Text.byteLength (c :: before) ≠ 0 := by
      have hsize := c.utf8Size_pos
      rw [Text.byteLength_cons]
      omega
    rw [List.cons_append, lineOfByte, if_neg hbehind, Text.byteLength_cons,
      Nat.add_sub_cancel_left, ih]
    by_cases hc : c = '\n'
    · rw [if_pos hc, hc, List.count_cons_self, Nat.add_comm]
    · rw [if_neg hc, List.count_cons_of_ne hc, Nat.zero_add]

namespace Span

variable {span : Span} {source : List Char} {line : Nat}

/-- The span starts on that line of the source, counted from 1: there is a line end for each line
before. -/
def StartsOnLine (span : Span) (source : List Char) (line : Nat) : Prop :=
  ∃ before after, source = before ++ after ∧ span.start = Text.byteLength before ∧
    line = before.count '\n' + 1

theorem startsOnLine_iff (h : span.IsRangeOf source) :
    span.StartsOnLine source line ↔ Conformance.lineOfByte source span.start = line := by
  constructor
  · rintro ⟨before, after, rfl, hstart, rfl⟩
    rw [hstart, Conformance.lineOfByte_append]
  · rintro rfl
    obtain ⟨before, inside, after, -, rfl, rfl⟩ := h
    rw [List.append_assoc, Conformance.lineOfByte_append]
    exact ⟨before, inside ++ after, rfl, rfl, rfl⟩

end Span

/-! ## Expectations -/

/-- The issue is the expected one: its message contains the text, and if a line is given, it has a
span that starts there. -/
structure ExpectedWarning.IsMetBy (w : ExpectedWarning) (source : List Char) (i : Issue) :
    Prop where
  message : w.contains.toList <:+: i.message.toList
  line : ∀ line ∈ w.line, ∃ span ∈ i.span, span.StartsOnLine source line

/-- The output is as the test expects it. -/
structure Conformance.IsMetBy (c : Conformance) (o : Output) : Prop where
  output : ∀ expected ∈ c.output, Text.trimString o.content = Text.trimString expected
  contained : ∀ part ∈ c.contained, part.toList <:+: (Text.trimString o.content).toList
  absent : ∀ part ∈ c.absent, ¬part.toList <:+: (Text.trimString o.content).toList
  /-- If warnings are given, there are as many issues. -/
  count : ∀ expected ∈ c.warnings, o.issues.length = expected.length
  /-- Each issue is the warning at its position. -/
  warnings : ∀ expected ∈ c.warnings, ∀ (n : Nat) (w : ExpectedWarning) (i : Issue),
    expected[n]? = some w → o.issues[n]? = some i → w.IsMetBy o.source i

/-! ## Checks -/

namespace Conformance

variable {c : Conformance} {source : List Char} {w : ExpectedWarning} {i : Issue}
  {issues : List Issue}

theorem holds_iff {text part : String} : holds text part = true ↔ part.toList <:+: text.toList :=
  Text.occursIn_iff

/-- Nothing is wrong with a content that is as expected. The three checks are made one after the
other, but each has to find nothing. -/
theorem checkContent_eq_none_iff {content : String} :
    c.checkContent content = none ↔
      (∀ expected ∈ c.output, Text.trimString content = Text.trimString expected) ∧
      (∀ part ∈ c.contained, part.toList <:+: (Text.trimString content).toList) ∧
      ∀ part ∈ c.absent, ¬part.toList <:+: (Text.trimString content).toList := by
  rw [checkContent]
  simp only [Option.orElse_eq_orElse, Option.orElse_eq_or, Option.or_eq_none_iff]
  refine and_congr ?_ (and_congr ?_ ?_)
  · cases c.output <;> simp
  · simp [holds_iff]
  · simp [holds_iff]

theorem checkLine_eq_none_iff {line : Nat} (hi : ∀ span ∈ i.span, span.IsRangeOf source) :
    checkLine source line i = none ↔ ∃ span ∈ i.span, span.StartsOnLine source line := by
  rw [checkLine]
  cases hspan : i.span with
  | none => simp
  | some span => simp [Span.startsOnLine_iff (hi span hspan)]

theorem checkWarning_eq_none_iff (hi : ∀ span ∈ i.span, span.IsRangeOf source) :
    checkWarning source w i = none ↔ w.IsMetBy source i := by
  have hfields : w.IsMetBy source i ↔ w.contains.toList <:+: i.message.toList ∧
      ∀ line ∈ w.line, ∃ span ∈ i.span, span.StartsOnLine source line :=
    ⟨fun h => ⟨h.message, h.line⟩, fun h => ⟨h.1, h.2⟩⟩
  rw [hfields, checkWarning, ← holds_iff]
  cases holds i.message w.contains with
  | false => simp
  | true =>
    cases w.line with
    | none => simp
    | some line => simp [checkLine_eq_none_iff hi]

/-- Warnings and issues are compared position by position, as long as there are both. Induction on
the warnings; the number of the first one is only said in the message. -/
theorem checkEach_eq_none_iff (index : Nat) (ws : List ExpectedWarning) :
    checkEach source index ws issues = none ↔
      ∀ (n : Nat) (w : ExpectedWarning) (i : Issue), ws[n]? = some w → issues[n]? = some i →
        checkWarning source w i = none := by
  induction ws generalizing index issues with
  | nil => simp [checkEach]
  | cons w ws ih =>
    cases issues with
    | nil => simp [checkEach]
    | cons i issues =>
      rw [← Nat.and_forall_add_one]
      simp only [List.getElem?_cons_zero, List.getElem?_cons_succ, Option.some.injEq,
        ← ih (index + 1), checkEach]
      cases hfirst : checkWarning source w i <;> simp [hfirst]

theorem checkWarnings_eq_none_iff (hissues : ∀ i ∈ issues, ∀ span ∈ i.span, span.IsRangeOf source) :
    c.checkWarnings source issues = none ↔
      ∀ expected ∈ c.warnings, issues.length = expected.length ∧
        ∀ (n : Nat) (w : ExpectedWarning) (i : Issue), expected[n]? = some w →
          issues[n]? = some i → w.IsMetBy source i := by
  rw [checkWarnings]
  cases c.warnings with
  | none => simp
  | some expected =>
    have hwarning {n : Nat} {w : ExpectedWarning} {i : Issue} (hi : issues[n]? = some i) :
        checkWarning source w i = none ↔ w.IsMetBy source i :=
      checkWarning_eq_none_iff (hissues i (List.mem_of_getElem? hi))
    simp only [Option.mem_def, Option.some.injEq, forall_eq']
    show (if issues.length ≠ expected.length then _
      else checkEach source 0 expected issues) = none ↔ _
    by_cases hlength : issues.length = expected.length
    · rw [if_neg (not_not.2 hlength), checkEach_eq_none_iff]
      constructor
      · intro h
        exact ⟨hlength, fun n w i hw hi => (hwarning hi).1 (h n w i hw hi)⟩
      · rintro ⟨-, h⟩ n w i hw hi
        exact (hwarning hi).2 (h n w i hw hi)
    · rw [if_pos hlength]
      exact iff_of_false nofun fun h => hlength h.1

/-- Nothing is wrong with an output that meets the expectations, if the places of its issues are
parts of its source. -/
theorem check_eq_none_iff {o : Output}
    (hissues : ∀ i ∈ o.issues, ∀ span ∈ i.span, span.IsRangeOf o.source) :
    c.check o = none ↔ c.IsMetBy o := by
  rw [check]
  simp only [Option.orElse_eq_orElse, Option.orElse_eq_or, Option.or_eq_none_iff]
  rw [checkContent_eq_none_iff, checkWarnings_eq_none_iff hissues]
  constructor
  · rintro ⟨⟨houtput, hcontained, habsent⟩, hwarnings⟩
    exact ⟨houtput, hcontained, habsent, fun e he => (hwarnings e he).1,
      fun e he => (hwarnings e he).2⟩
  · intro h
    exact ⟨⟨h.output, h.contained, h.absent⟩, fun e he => ⟨h.count e he, h.warnings e he⟩⟩

end Conformance

/-! ## Test files -/

/-- The output of the document of a test file, which finds the images beside the file. -/
def FileTree.testOutput (t : FileTree) (path : String) (c : Conformance) (document : List Char) :
    Output :=
  ((convertIn FileTree.files (Path.parent path.toList) c.options (String.ofList document)).run t).1

theorem FileTree.passed_testResult_iff (t : FileTree) (path : String) :
    (t.testResult path).passed = true ↔
      ∃ text c document, ((FileTree.files.readText path).run t).1 = .ok text ∧
        Conformance.parse text.toList = .ok (c, document) ∧
        c.check (t.testOutput path c document) = none := by
  rw [testResult, runTest, (readsOnly_readText path).run_bind]
  cases hread : ((FileTree.files.readText path).run t).1 with
  | error e => exact iff_of_false nofun (by simp)
  | ok text =>
    dsimp only
    cases hparse : Conformance.parse text.toList with
    | error e => exact iff_of_false nofun (by simp [hparse])
    | ok parsed =>
      obtain ⟨c, document⟩ := parsed
      dsimp only
      rw [(readsOnly_convertIn _ _ _).run_bind]
      show (c.check (t.testOutput path c document)).isNone = true ↔ _
      simp [hparse]

/-- A conversion is as a test expects it if and only if the test finds nothing wrong with it; its
source is the expanded one. A test file passes if and only if it can be read and its document is
converted as expected. -/
theorem Conformance.passes_iff_isMetBy :
    (∀ (c : Conformance) (o : Options) (assets : AssetProbe) (source : List Char) (fileId : Nat),
      (convert o assets source fileId).source = (Abbreviation.expand source fileId).text ∧
      (c.check (convert o assets source fileId) = none ↔
        c.IsMetBy (convert o assets source fileId))) ∧
    ∀ (t : FileTree) (path : String), (t.testResult path).passed = true ↔
      ∃ text c document, ((FileTree.files.readText path).run t).1 = .ok text ∧
        Conformance.parse text.toList = .ok (c, document) ∧
        c.IsMetBy (t.testOutput path c document) := by
  have hconvert (c : Conformance) (o : Options) (assets : AssetProbe) (source : List Char)
      (fileId : Nat) : c.check (convert o assets source fileId) = none ↔
        c.IsMetBy (convert o assets source fileId) :=
    check_eq_none_iff fun _ => isRangeOf_of_mem_convert
  refine ⟨fun c o assets source fileId => ⟨rfl, hconvert c o assets source fileId⟩,
    fun t path => ?_⟩
  rw [t.passed_testResult_iff path]
  refine exists_congr fun text => exists_congr fun c => exists_congr fun document => ?_
  obtain ⟨assets, houtput⟩ := exists_run_convertIn (Path.parent path.toList) c.options
    (String.ofList document) t
  rw [FileTree.testOutput, houtput, hconvert]

/-- The line is counted in the document, which begins behind the table of the test file. -/
example : (match Conformance.parse
      ("---\n[[expect_warnings]]\ncontains = \"unterminated Lemma\"\nline = 3\n---\n" ++
        "Intro.\n\nLemma: open\n").toList with
    | .ok (c, document) => c.check (convert c.options (fun _ => false) document 0)
    | .error e => some e) = none := by
  decide +kernel

end Treatise
