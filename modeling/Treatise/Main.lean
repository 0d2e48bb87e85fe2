import Treatise.Tool.Test

/-!
# The command line tool

Access to real files, and the words of the command line.
-/

namespace Treatise

/-- The number of a system error. Some operations give it with its sign changed. -/
def errorNumber (code : UInt32) : Nat := min code.toNat (UInt32.size - code.toNat)

/-- Why an operation on a file failed. -/
def FileError.ofSystem : IO.Error → FileError
  | .noFileOrDirectory .. => .notFound
  | .inappropriateType _ code details =>
    if errorNumber code = 20 then .notADirectory
    else if errorNumber code = 21 then .isADirectory
    else .other details
  | .invalidArgument _ code details =>
    if errorNumber code = 36 then .nameTooLong else .other details
  | .permissionDenied .. => .other "Permission denied (os error 13)"
  | e => .other e.toString

/-- Runs an operation on a file. -/
def attempt {α : Type} (path : String) (action : IO α) : IO (Except FileError α) := do
  if let some e := FileError.ofPath? path then return .error e
  try return .ok (← action) catch e => return .error (FileError.ofSystem e)

/-- The type of what is at the end of a path. -/
def fileType? (entry : IO.FS.DirEntry) : IO (Option IO.FS.FileType) := do
  try return some (← entry.path.metadata).type catch _ => return none

/-- All that is in a directory; nothing, if it cannot be read. -/
partial def listDirectory (directory : IO.FS.DirEntry) : IO (List Listing) := do
  let entries ← try directory.path.readDir catch _ => pure #[]
  entries.toList.mapM fun entry => do
    match ← fileType? entry with
    | some .dir => return .directory entry.fileName (← listDirectory entry)
    | _ => return .file entry.fileName

/-- The operations on real files. -/
def systemFiles : Files IO where
  read path := attempt path (IO.FS.readBinFile path)
  write path content := attempt path (IO.FS.writeFile path content)
  isFile path := return (← fileType? ⟨".", path⟩) == some .file
  list path := listDirectory ⟨".", path⟩

def Issue.lines (i : Issue) : List String :=
  ("warning: " ++ i.message) :: i.notes.map ("  note: " ++ ·)

def Outcome.show (o : Outcome) : IO Unit := do
  IO.eprint (unlines (o.issues.flatMap Issue.lines))
  IO.eprint o.stderr
  IO.print o.stdout
  match o.failure with
  | some f => IO.eprintln ("error: " ++ f.message)
  | none => pure ()

end Treatise

def main (words : List String) : IO UInt32 := do
  let outcome ← Treatise.runWords Treatise.systemFiles words
  outcome.show
  return outcome.code.toUInt32
