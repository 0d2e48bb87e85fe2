import Treatise.Text.Search

/-!
# Paths

A path is a text whose parts are separated by slashes. Empty parts count for nothing, and neither does
a part `.` unless the path begins with it.

* `Path.components` — the parts that count;
* `Path.fileName?`, `Path.stem?`, `Path.extension?` — the last part and its two halves;
* `Path.parent`, `Path.join` — the way up and the way down.
-/

namespace Treatise.Path

inductive Component where
  /-- The slash in front of an absolute path. -/
  | top
  /-- The `.` in front of a relative path. -/
  | here
  /-- `..` -/
  | up
  | name (s : List Char)
  deriving DecidableEq, Repr

/-- The component that a piece between slashes is, behind the first piece. -/
def Component.ofPiece? (piece : List Char) : Option Component :=
  if piece = [] ∨ piece = ['.'] then none
  else if piece = ['.', '.'] then some .up
  else some (.name piece)

/-- Whether the path begins at the top. -/
def isAbsolute (path : List Char) : Bool := path.head? == some '/'

def components (path : List Char) : List Component :=
  let pieces := Text.splitAll '/' path
  (if isAbsolute path then [.top] else if pieces.head? = some ['.'] then [.here] else []) ++
    pieces.filterMap Component.ofPiece?

/-- The last component, if it is a name. -/
def fileName? (path : List Char) : Option (List Char) :=
  match (components path).getLast? with
  | some (.name s) => some s
  | _ => none

/-- The text before and after the last occurrence of `c`. -/
def splitLast? (c : Char) (s : List Char) : Option (List Char × List Char) :=
  (Text.splitOnce? c s.reverse).map fun p => (p.2.reverse, p.1.reverse)

/-- A file name cut at its last dot. A dot in front is no cut. -/
def cutName (name : List Char) : List Char × Option (List Char) :=
  match splitLast? '.' name with
  | some (stem, ext) => if stem.isEmpty then (name, none) else (stem, some ext)
  | none => (name, none)

/-- The file name without its extension. -/
def stem? (path : List Char) : Option (List Char) := (fileName? path).map fun s => (cutName s).1

/-- What follows the last dot of the file name. -/
def extension? (path : List Char) : Option (List Char) :=
  (fileName? path).bind fun s => (cutName s).2

def Component.render : Component → List Char
  | top => []
  | here => ['.']
  | up => ['.', '.']
  | name s => s

def ofComponents : List Component → List Char
  | [.top] => ['/']
  | cs => ['/'].intercalate (cs.map Component.render)

/-- The directory of a path, without its last component. -/
def parent (path : List Char) : List Char := ofComponents (components path).dropLast

/-- A path below a directory; an absolute path stays as it is. -/
def join (directory path : List Char) : List Char :=
  if isAbsolute path ∨ directory.isEmpty then path
  else if directory.getLast? = some '/' then directory ++ path
  else directory ++ '/' :: path

end Treatise.Path
