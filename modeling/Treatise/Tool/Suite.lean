import Treatise.Dict
import Treatise.Path
import Treatise.Text.Search
import Treatise.Tool.Files

/-!
# Suites of conformance tests

The tests of a directory are all files below it whose names end in `.test.md`. Their categories are the
directories that they lie in, as paths below the directory of the suite.

* `Suite.discover` — the tests by category;
* `Suite.select` — the categories that are asked for.
-/

namespace Treatise

/-- Tests by category, each category in the order of the paths. -/
abbrev Suite := Dict (List String)

/-- A test file, with the directories from the top of the suite. -/
structure FoundTest where
  directories : List String
  name : String
  deriving DecidableEq, Repr

namespace FoundTest

/-- The category of a test: a backslash in the name of a directory is like a slash. -/
def category (t : FoundTest) : String :=
  String.ofList (("/".intercalate t.directories).toList.map fun c => if c = '\\' then '/' else c)

def path (top : String) (t : FoundTest) : String :=
  String.ofList ((t.directories ++ [t.name]).foldl (fun p name => Path.join p name.toList) top.toList)

/-- The parts of the path, by which tests are ordered. -/
def parts (t : FoundTest) : List String := t.directories ++ [t.name]

end FoundTest

/-- The order of lists of names, name by name. -/
def namesLe : List String → List String → Bool
  | [], _ => true
  | _ :: _, [] => false
  | a :: as, b :: bs => a < b || (a == b && namesLe as bs)

/-- The name is that of a test. -/
def isTestName (name : String) : Bool := (Text.stripEnd? ".test.md".toList name.toList).isSome

mutual

/-- The tests of a listing that lies in these directories. -/
def Listing.tests (directories : List String) : Listing → List FoundTest
  | .file name => if isTestName name then [⟨directories, name⟩] else []
  | .directory name entries => listingTests (directories ++ [name]) entries

def listingTests (directories : List String) : List Listing → List FoundTest
  | [] => []
  | entry :: entries => entry.tests directories ++ listingTests directories entries

end

namespace Suite

/-- The suite with one more test at the end of its category. -/
def add (top : String) (s : Suite) (t : FoundTest) : Suite :=
  s.insert t.category ((s.get? t.category).getD [] ++ [t.path top])

/-- The suite of a directory at a path. -/
def discover (top : String) (entries : List Listing) : Suite :=
  ((listingTests [] entries).mergeSort fun a b => namesLe a.parts b.parts).foldl (add top) ∅

/-- The category as it is shown. -/
def label (category : String) : String := if category.isEmpty then "(root)" else category

/-- The name without the slashes around it. -/
def trimSlashes (name : String) : String :=
  String.ofList (((name.toList.dropWhile (· == '/')).reverse.dropWhile (· == '/')).reverse)

/-- The category is the named one or lies below it. -/
def isWithin (name category : String) : Bool :=
  category == name || (name ++ "/").isPrefixOf category

/-- The warning about a name to which no category was added. -/
def notFound (all : Suite) (name : String) : String :=
  "warning: category '" ++ name ++ "' not found (available: " ++
    ", ".intercalate (all.keys.map label) ++ ")"

/-- Adds the categories of one name, and warns if there was none to add. -/
def selectName (all selected : Suite) (name : String) : Suite × List String :=
  let name := trimSlashes name
  let added := (all.entries.filter (isWithin name ·.1)).foldl (fun s e => s.insert e.1 e.2) selected
  (added, if added.size = selected.size then [notFound all name] else [])

/-- Adds the categories of names, in turn. -/
def selectNames (all selected : Suite) : List String → Suite × List String
  | [] => (selected, [])
  | name :: names =>
    let (selected, warnings) := selectName all selected name
    let (selected, more) := selectNames all selected names
    (selected, warnings ++ more)

/-- The categories that are asked for, which are all if none is named; and a warning for every name
that added none. -/
def select (all : Suite) (names : List String) : Suite × List String :=
  if names.isEmpty then (all, []) else selectNames all ∅ names

end Suite

end Treatise
