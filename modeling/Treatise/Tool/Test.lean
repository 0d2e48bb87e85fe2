import Treatise.Tool.Conformance
import Treatise.Tool.Render
import Treatise.Tool.Suite

/-!
# Running conformance tests

The command runs the tests of a file or of the selected categories of a directory and reports on them.
Its exit code is 0 only if there are tests and all of them pass.
-/

namespace Treatise

structure TestResult where
  path : String
  description : Option String := none
  /-- What is wrong, if the test failed. -/
  reason : Option String := none
  deriving DecidableEq, Repr

namespace TestResult

def passed (r : TestResult) : Bool := r.reason.isNone

/-- What a report calls the test. -/
def label (r : TestResult) : String :=
  r.description.getD (((Path.stem? r.path.toList).map String.ofList).getD "?")

end TestResult

/-! ## The report -/

/-- A text in a colour of the terminal. -/
def paint (plain : Bool) (code text : String) : String :=
  if plain then text else "\x1b[" ++ code ++ "m" ++ text ++ "\x1b[0m"

def resultLine (plain : Bool) (r : TestResult) : String :=
  "  " ++ (if r.passed then paint plain "32" "PASS" else paint plain "31" "FAIL") ++ "  " ++ r.label

def failureLines (r : TestResult) : List String :=
  match r.reason with
  | none => []
  | some reason =>
    ["", "  --- " ++ r.path ++ " ---"] ++ (Text.stringLines reason).map ("  " ++ ·)

def failuresLines (failures : List TestResult) : List String :=
  if failures.isEmpty then [] else ["", "failures:"] ++ failures.flatMap failureLines

def summaryLine (plain : Bool) (passed failed : Nat) : String :=
  if failed = 0 then
    "test result: " ++ paint plain "32" "ok" ++ ". " ++ Nat.repr passed ++ " passed, 0 failed"
  else
    "test result: " ++ paint plain "31" "FAILED" ++ ". " ++ Nat.repr passed ++ " passed, " ++
      Nat.repr failed ++ " failed (of " ++ Nat.repr (passed + failed) ++ ")"

/-- The report on the results of categories. The tests of a single file have no category. -/
def reportLines (plain single : Bool) (groups : List (String × List TestResult)) : List String :=
  let results := groups.flatMap (·.2)
  let failures := results.filter (!·.passed)
  groups.flatMap (fun (category, results) =>
    (if single then [] else ["", paint plain "1" (Suite.label category)]) ++
      results.map (resultLine plain)) ++
  failuresLines failures ++
  ["", summaryLine plain (results.length - failures.length) failures.length]

def reportOutcome (plain single : Bool) (groups : List (String × List TestResult)) : Outcome where
  code := if groups.all fun g => g.2.all (·.passed) then 0 else 1
  stderr := unlines (reportLines plain single groups)

/-- What is said about a directory without tests. -/
def noTests (path : String) : String := "no .test.md files found in " ++ path

/-- The lines about the categories of a suite. -/
def categoryLines (path : String) (s : Suite) : List String :=
  if s.isEmpty then [noTests path]
  else
    "available categories:" ::
      s.entries.map fun e =>
        "  " ++ Suite.label e.1 ++ " (" ++ Nat.repr e.2.length ++ " tests)"

/-! ## The command -/

section

variable {m : Type → Type} [Monad m]

def runTest (files : Files m) (path : String) : m TestResult := do
  match ← files.readText path with
  | .error e => return { path, reason := some ("cannot read file: " ++ e.message) }
  | .ok text =>
    match Conformance.parse text.toList with
    | .error e => return { path, reason := some ("frontmatter error: " ++ e) }
    | .ok (c, document) =>
      let output ←
        convertIn files (Path.parent path.toList) c.options (String.ofList document)
      return { path, description := c.description, reason := c.check output }

/-- Runs the tests of categories. -/
def runGroups (files : Files m) (groups : List (String × List String)) :
    m (List (String × List TestResult)) :=
  groups.mapM fun g => do return (g.1, ← g.2.mapM (runTest files))

def TestCommand.list (c : TestCommand) (files : Files m) : m Outcome := do
  if ← files.isFile c.path then return { stderr := unlines ["(single file, no categories)"] }
  let suite := Suite.discover c.path (← files.list c.path)
  return { stderr := unlines (categoryLines c.path suite) }

/-- Runs the tests that are asked for. -/
def TestCommand.runTests (c : TestCommand) (plain : Bool) (files : Files m) : m Outcome := do
  if ← files.isFile c.path then
    return reportOutcome plain true (← runGroups files [("", [c.path])])
  let suite := Suite.discover c.path (← files.list c.path)
  if suite.isEmpty then return { code := 1, stderr := unlines [noTests c.path] }
  let (selected, warnings) := suite.select c.categories
  if selected.isEmpty then
    return { code := 1, stderr := unlines (warnings ++ ["no matching categories found"]) }
  let outcome := reportOutcome plain false (← runGroups files selected.entries)
  return { outcome with stderr := unlines warnings ++ outcome.stderr }

def TestCommand.run (c : TestCommand) (plain : Bool) (files : Files m) : m Outcome :=
  if c.listCategories then c.list files else c.runTests plain files

def Invocation.run (i : Invocation) (files : Files m) : m Outcome :=
  match i.command with
  | .render c => c.run files
  | .test c => c.run i.noColor files

/-- The outcome of words that are no command. -/
def Refusal.outcome : Refusal → Outcome
  | misuse => { code := 2, stderr := usage }
  | help => { stdout := usage }
  | version => { stdout := "mdt 0.1.0\n" }

/-- Runs the words of a command line, in which the name of a command may be left out. -/
def runWords (files : Files m) (words : List String) : m Outcome :=
  match Invocation.read (Invocation.withCommand words) with
  | .ok i => i.run files
  | .error refusal => pure refusal.outcome

end

end Treatise
