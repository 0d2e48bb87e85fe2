/-!
# Access to files

What the command line tool does with files, as a record of operations in a monad. The tool itself runs
in `IO`; the same commands run in a state monad over `FileTree`.
-/

namespace Treatise

/-- Why a file cannot be read or written. -/
inductive FileError where
  | notFound
  | notADirectory
  | isADirectory
  | nameTooLong
  /-- The path holds the character NUL. -/
  | nulInPath
  /-- The file is there but is not text. -/
  | notText
  | other (message : String)
  deriving DecidableEq, Repr

def FileError.message : FileError → String
  | notFound => "No such file or directory (os error 2)"
  | notADirectory => "Not a directory (os error 20)"
  | isADirectory => "Is a directory (os error 21)"
  | nameTooLong => "File name too long (os error 36)"
  | nulInPath => "file name contained an unexpected NUL byte"
  | notText => "stream did not contain valid UTF-8"
  | other message => message

/-- What is wrong with a path, whatever files there are. -/
def FileError.ofPath? (path : String) : Option FileError :=
  if path.toList.contains '\x00' then some .nulInPath
  else if path.isEmpty then some .notFound
  else if 4096 ≤ path.utf8ByteSize then some .nameTooLong
  else none

inductive Listing where
  | file (name : String)
  | directory (name : String) (entries : List Listing)

structure Files (m : Type → Type) where
  /-- The bytes of a file. -/
  read : String → m (Except FileError ByteArray)
  /-- Makes a file or replaces its content. -/
  write : String → String → m (Except FileError Unit)
  /-- Whether there is a file at the path. -/
  isFile : String → m Bool
  /-- All that is in a directory; nothing, if it cannot be read. -/
  list : String → m (List Listing)

namespace Files

variable {m : Type → Type} [Monad m]

/-- The text of a file. -/
def readText (files : Files m) (path : String) : m (Except FileError String) := do
  match ← files.read path with
  | .error e => pure (.error e)
  | .ok bytes =>
    match String.fromUTF8? bytes with
    | some text => pure (.ok text)
    | none => pure (.error .notText)

/-- The paths at which there are files. -/
def existing (files : Files m) (paths : List String) : m (List String) :=
  paths.filterM files.isFile

end Files

end Treatise
