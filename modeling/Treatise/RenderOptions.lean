import Treatise.Issue
import Treatise.Text.Blank
import Treatise.Text.Search
import Treatise.Tree.Node

/-!
# Options given as text

Options of an output format and substitutions are given as `key=value`. What cannot be understood is
left out and reported; it has no influence on the rest.

* `readAssignment` and `readAssignments` — the pairs;
* `RenderOptions.ofDict` — the options that the typesetting output knows.
-/

namespace Treatise

inductive OptionError where
  | missingValue (option : String)
  | emptyKey (option : String)
  | notABool (option value : String)
  | unknownClass (option name : String)
  | unknownFormat (name : String)
  deriving DecidableEq, Repr

namespace OptionError

/-- The option as it was given. -/
def option : OptionError → String
  | missingValue option => option
  | emptyKey option => option
  | notABool option _ => option
  | unknownClass option _ => option
  | unknownFormat name => name

def message : OptionError → String
  | missingValue _ => "expected `key=value`"
  | emptyKey _ => "empty key"
  | notABool _ value => "expected `true` or `false`, got '" ++ value ++ "'"
  | unknownClass _ name => "unknown class '" ++ name ++ "'"
  | unknownFormat name =>
    "unknown output format '" ++ name ++ "' (expected `html` or `latex`)"

def toIssue (e : OptionError) (fileId : Nat) : Issue :=
  ⟨.malformedRenderOption e.option e.message, none, fileId, []⟩

end OptionError

/-! ## Assignments -/

/-- Reads `key=value`, cut at the first `=`. -/
def readAssignment (s : String) : Except OptionError (String × String) :=
  match Text.splitOnce? '=' s.toList with
  | none => .error (.missingValue s)
  | some (key, value) =>
    let key := Text.trim key
    if key.isEmpty then .error (.emptyKey s)
    else .ok (String.ofList key, String.ofList (Text.trim value))

/-- The assignments that can be read, and what is wrong with the others, each in their order. -/
def splitAssignments : List String → List (String × String) × List OptionError
  | [] => ([], [])
  | s :: rest =>
    let (pairs, errors) := splitAssignments rest
    match readAssignment s with
    | .ok pair => (pair :: pairs, errors)
    | .error e => (pairs, e :: errors)

/-- Reads assignments, of which the later win. -/
def readAssignments (l : List String) : Dict String × List OptionError :=
  let (pairs, errors) := splitAssignments l
  (Dict.ofList pairs, errors)

/-! ## Options of the typesetting output -/

structure RenderOptions where
  /-- A link is followed by the type of the file that it leads to. -/
  linkFiletypes : Bool := false
  /-- Generated inline elements that are left out: the typesetting system makes its own. -/
  ignored : List Role :=
    [.sectionNumber, .blockLabel, .blockNumber, .blockName, .blockReferences, .proofSubject, .qed]
  deriving DecidableEq, Repr

namespace RenderOptions

def readBool? (s : String) : Option Bool :=
  if ["true", "yes", "1"].contains s then some true
  else if ["false", "no", "0"].contains s then some false
  else none

/-- The names of a list with commas. -/
def classNames (value : String) : List String :=
  ((Text.splitAll ',' value.toList).map fun s => String.ofList (Text.trim s)).filter (!·.isEmpty)

/-- Reads the classes that are left out. -/
def readClasses (option : String) : List String → List Role × List OptionError
  | [] => ([], [])
  | name :: names =>
    let (roles, errors) := readClasses option names
    match Role.ofClassName? name with
    | some role => (role :: roles, errors)
    | none => (roles, .unknownClass option name :: errors)

/-- The options with one more pair. Unknown keys mean nothing. -/
def set (o : RenderOptions) (key value : String) : RenderOptions × List OptionError :=
  let option := key ++ "=" ++ value
  if key = "link_filetypes" then
    match readBool? value with
    | some flag => ({ o with linkFiletypes := flag }, [])
    | none => (o, [.notABool option value])
  else if key = "ignore_classes" then
    let (roles, errors) := readClasses option (classNames value)
    ({ o with ignored := roles }, errors)
  else (o, [])

/-- The options with more pairs, and what is wrong with these. -/
def setAll (o : RenderOptions) : List (String × String) → RenderOptions × List OptionError
  | [] => (o, [])
  | (key, value) :: pairs =>
    let (o, errors) := o.set key value
    let (o, more) := o.setAll pairs
    (o, errors ++ more)

/-- Reads the options, in the order of the keys. -/
def ofDict (d : Dict String) : RenderOptions × List OptionError := setAll {} d.entries

end RenderOptions

end Treatise
