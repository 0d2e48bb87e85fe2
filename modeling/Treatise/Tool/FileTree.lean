import Treatise.Path
import Treatise.Tool.Files

/-!
# File trees

A directory with all that is in it, as a value. Paths are looked up part by part, and every part but the
last must be a directory. Outside of the tree there are the directories above it, of which nothing else
is known: no file is found there, and a file that is written there does not change the tree.

* `FileTree.locate?` — the place that a path leads to;
* `FileTree.read`, `FileTree.write`, `FileTree.list` — the operations on files;
* `FileTree.files` — these operations on a tree that is the state of a monad.
-/

namespace Treatise

inductive FileTree where
  | file (content : ByteArray)
  | directory (entries : List (String × FileTree))

namespace FileTree

/-- What is at the end of a list of names. -/
def get? : (names : List String) → FileTree → Option FileTree
  | [], t => some t
  | name :: names, directory entries => (entries.lookup name).bind (get? names)
  | _ :: _, file _ => none

def isDirectory : FileTree → Bool
  | directory _ => true
  | file _ => false

/-- Where a path leads. -/
inductive Place where
  /-- Into the tree, by names in reverse order. -/
  | inside (names : List String)
  /-- To a directory above the tree. -/
  | outside
  deriving DecidableEq, Repr

/-- The greatest length of a name, in bytes. -/
def maxNameSize : Nat := 255

/-- One step from a place. -/
def step (t : FileTree) (place : Place) (piece : List Char) : Except FileError Place :=
  let name := String.ofList piece
  match place with
  | .outside =>
    if piece = [] ∨ piece = ['.'] ∨ piece = ['.', '.'] then .ok .outside
    else if maxNameSize < name.utf8ByteSize then .error .nameTooLong
    else .error .notFound
  | .inside names =>
    match t.get? names.reverse with
    | none => .error .notFound
    | some (file _) => .error .notADirectory
    | some (directory entries) =>
      if piece = [] ∨ piece = ['.'] then .ok place
      else if piece = ['.', '.'] then
        match names with
        | [] => .ok .outside
        | _ :: names => .ok (.inside names)
      else if maxNameSize < name.utf8ByteSize then .error .nameTooLong
      else if (entries.lookup name).isSome then .ok (.inside (name :: names))
      else .error .notFound

/-- Steps from the place where a path starts. -/
def walk (t : FileTree) (path : List Char) (pieces : List (List Char)) : Except FileError Place :=
  pieces.foldlM (step t) (if Path.isAbsolute path then .outside else .inside [])

/-- The place that a path leads to. -/
def locate? (t : FileTree) (path : String) : Except FileError Place :=
  match FileError.ofPath? path with
  | some e => .error e
  | none => walk t path.toList (Text.splitAll '/' path.toList)

def read (t : FileTree) (path : String) : Except FileError ByteArray := do
  match ← t.locate? path with
  | .outside => .error .isADirectory
  | .inside names =>
    match t.get? names.reverse with
    | some (file content) => .ok content
    | some (directory _) => .error .isADirectory
    | none => .error .notFound

def isFile (t : FileTree) (path : String) : Bool := (t.read path).toOption.isSome

/-- The entries with one of them replaced, or put at the end. -/
def setEntry (name : String) (t : FileTree) : List (String × FileTree) → List (String × FileTree)
  | [] => [(name, t)]
  | e :: es => if e.1 = name then (name, t) :: es else e :: setEntry name t es

/-- The tree with a file at the end of a list of names. Directories on the way are made. -/
def put (content : ByteArray) : (names : List String) → FileTree → FileTree
  | [], _ => file content
  | name :: names, directory entries =>
    directory (setEntry name (put content names ((entries.lookup name).getD (directory [])))
      entries)
  | name :: names, file _ => directory [(name, put content names (directory []))]

/-- The tree with an empty directory at the end of a list of names. -/
def putDirectory : (names : List String) → FileTree → FileTree
  | [], t => t
  | name :: names, directory entries =>
    directory (setEntry name (putDirectory names ((entries.lookup name).getD (directory [])))
      entries)
  | _ :: _, file content => file content

/-- What is wrong with the name of a file that is to be written. -/
def nameError? (name : List Char) : Option FileError :=
  if name = ['.'] ∨ name = ['.', '.'] then some .isADirectory
  else if maxNameSize < Text.byteLength name then some .nameTooLong
  else none

/-- The names that lead to a file that is to be written, if it is in the tree. Its directory must be
there. -/
def target? (t : FileTree) (path : String) : Except FileError (Option (List String)) := do
  if let some e := FileError.ofPath? path then .error e
  let slashes := path.toList.reverse.takeWhile (· == '/')
  let pieces := Text.splitAll '/' (path.toList.take (path.length - slashes.length))
  let last := pieces.getLast?.getD []
  let error? := if slashes.isEmpty then nameError? last else some .isADirectory
  match ← walk t path.toList pieces.dropLast with
  | .outside => error?.elim (.ok none) .error
  | .inside names =>
    match t.get? names.reverse with
    | some (file _) => .error .notADirectory
    | none => .error .notFound
    | some (directory entries) =>
      let name := String.ofList last
      if let some e := error? then .error e
      else if (entries.lookup name).any isDirectory then .error .isADirectory
      else .ok (some (names.reverse ++ [name]))

/-- The tree with a text in the file at a path. -/
def write (t : FileTree) (path content : String) : Except FileError FileTree := do
  match ← t.target? path with
  | some names => .ok (t.put content.toUTF8 names)
  | none => .ok t

mutual

def toListing (name : String) : FileTree → Listing
  | file _ => .file name
  | directory entries => .directory name (entriesToListing entries)

def entriesToListing : List (String × FileTree) → List Listing
  | [] => []
  | (name, t) :: entries => t.toListing name :: entriesToListing entries

end

/-- What is in the directory at a path. -/
def list (t : FileTree) (path : String) : List Listing :=
  match t.locate? path with
  | .ok (.inside names) =>
    match t.get? names.reverse with
    | some (directory entries) => entriesToListing entries
    | _ => []
  | _ => []

mutual

/-- All files of the tree with their paths. -/
def contents (above : String) : FileTree → List (String × ByteArray)
  | file content => [(above, content)]
  | directory entries => entriesContents above entries

def entriesContents (above : String) : List (String × FileTree) → List (String × ByteArray)
  | [] => []
  | (name, t) :: entries =>
    t.contents (if above.isEmpty then name else above ++ "/" ++ name) ++
      entriesContents above entries

end

/-- The operations on a tree that is a state. -/
def files : Files (StateM FileTree) where
  read path := do return (← get).read path
  write path content := do
    match (← get).write path content with
    | .ok t => set t; return .ok ()
    | .error e => return .error e
  isFile path := do return (← get).isFile path
  list path := do return (← get).list path

end FileTree

end Treatise
