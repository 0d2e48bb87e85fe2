import Treatise.Toml.Scalar

/-!
# Documents

A document is a list of lines: entries `key = value`, headers `[table]` and `[[table]]`, comments and
blank lines. Every key is defined once; a table is opened by one header only, or by dotted keys.

* `Item` — what a key holds while the document is read, with how tables came to be;
* `table?` — the table of a document, or nothing if the document is not well formed;
* `parse?` — the same, with a reason where there is none.
-/

namespace Treatise.Toml

/-- How a table came to be. -/
inductive Origin where
  /-- By a header or as an inline table. -/
  | declared
  /-- By a header of a table in it. -/
  | implied
  /-- By a dotted key. -/
  | dotted
  deriving DecidableEq, Repr

/-- What a key holds while the document is read. -/
inductive Item where
  | value (v : Value)
  | table (origin : Origin) (entries : List (String × Item))
  /-- An array of tables: the complete ones and the last one. -/
  | tables (complete : List Value) (last : List (String × Item))

/-- Entries in the order in which they came. -/
abbrev Entries := List (String × Item)

mutual

def Item.toValue : Item → Value
  | .value v => v
  | .table _ entries => .table (entriesToValue entries)
  | .tables complete last => .array (complete ++ [.table (entriesToValue last)])

/-- Entries in ascending order of their keys. -/
def entriesToValue : List (String × Item) → List (String × Value)
  | [] => []
  | (key, item) :: entries => insertEntry key item.toValue (entriesToValue entries)

end

/-! ## Finding the place of an entry -/

def Entries.find? (entries : Entries) (key : String) : Option Item :=
  (List.find? (·.1 == key) entries).map (·.2)

/-- The entries with the item of a key replaced, or put at the end. -/
def Entries.set (entries : Entries) (key : String) (item : Item) : Entries :=
  if entries.any (·.1 == key) then
    entries.map fun e => if e.1 = key then (key, item) else e
  else entries ++ [(key, item)]

/-- Changes the table at a path of keys and makes the tables on the way that do not exist. A path of
dotted keys may not go through a table that a header opened. -/
def modifyAt? (dotted : Bool) (change : Origin → Entries → Option Entries) :
    (path : List String) → Origin → Entries → Option Entries
  | [], origin, entries => change origin entries
  | key :: path, _, entries =>
    match entries.find? key with
    | none =>
      let origin := if dotted then Origin.dotted else .implied
      (modifyAt? dotted change path origin []).map fun inner =>
        entries.set key (.table origin inner)
    | some (.value _) => none
    | some (.table origin inner) =>
      if dotted ∧ origin = .declared then none
      else (modifyAt? dotted change path origin inner).map fun inner =>
        entries.set key (.table origin inner)
    | some (.tables complete last) =>
      (modifyAt? dotted change path .declared last).map fun last =>
        entries.set key (.tables complete last)

/-- Adds an entry for a new key to a table; behind a dotted key, the table must come from dotted keys
too. -/
def addPair? (viaDots : Bool) (key : String) (v : Value) (origin : Origin) (entries : Entries) :
    Option Entries :=
  if viaDots ∧ origin ≠ .dotted then none
  else if (entries.find? key).isSome then none
  else some (entries ++ [(key, .value v)])

/-- Adds an entry with a dotted key to a table. -/
def define? (keys : List String) (v : Value) (origin : Origin) (entries : Entries) :
    Option Entries :=
  match keys.reverse with
  | [] => none
  | key :: path => modifyAt? true (addPair? (!path.isEmpty) key v) path.reverse origin entries

/-- Opens a table by its header. -/
def openTable? (path : List String) (root : Entries) : Option Entries :=
  match path.reverse with
  | [] => none
  | key :: parents =>
    modifyAt? false
      (fun _ entries =>
        match entries.find? key with
        | none => some (entries ++ [(key, .table .declared [])])
        | some (.table .implied inner) => some (entries.set key (.table .declared inner))
        | some _ => none)
      parents.reverse .declared root

/-- Begins the next table of an array by its header. -/
def openArrayTable? (path : List String) (root : Entries) : Option Entries :=
  match path.reverse with
  | [] => none
  | key :: parents =>
    modifyAt? false
      (fun _ entries =>
        match entries.find? key with
        | none => some (entries ++ [(key, .tables [] [])])
        | some (.tables complete last) =>
          some (entries.set key (.tables (complete ++ [.table (entriesToValue last)]) []))
        | some _ => none)
      parents.reverse .declared root

/-! ## Keys -/

/-- How many levels values and keys may nest. -/
def maxDepth : Nat := 80

/-- Reads a key without dots, in quotes or not. -/
def readSimpleKey? (s : List Char) : Option (String × List Char) :=
  match s with
  | '"' :: s => (readBasic? (s.length + 1) s).map fun p => (String.ofList p.1, p.2)
  | '\'' :: s => (readLiteral? s).map fun p => (String.ofList p.1, p.2)
  | s =>
    let name := s.takeWhile isBareKeyChar
    if name.isEmpty then none else some (String.ofList name, s.drop name.length)

/-- Reads keys with dots between. The first argument bounds their number. -/
def readKeys? : (bound : Nat) → List Char → Option (List String × List Char)
  | 0, _ => none
  | bound + 1, s => do
    let (key, s) ← readSimpleKey? (skipSpaces s)
    match skipSpaces s with
    | '.' :: s => (readKeys? bound s).map fun p => (key :: p.1, p.2)
    | s => pure ([key], s)

/-- Reads a dotted key and the blanks around it. -/
def readKey? (s : List Char) : Option (List String × List Char) := readKeys? (maxDepth - 1) s

/-! ## Values -/

/-- The rest of a line behind a comment, if its characters may stand in one. -/
def skipComment? (s : List Char) : Option (List Char) :=
  match s with
  | '#' :: s => some (s.dropWhile fun c => !isForbidden c)
  | s => some s

/-- Skips blanks, comments and line ends. The first argument bounds the number of lines. -/
def skipLines? : (bound : Nat) → List Char → Option (List Char)
  | 0, s => some s
  | bound + 1, s =>
    match skipSpaces s with
    | '#' :: rest => do
      let s ← skipComment? ('#' :: rest)
      let s ← readNewline? s
      skipLines? bound s
    | s =>
      match readNewline? s with
      | some s => skipLines? bound s
      | none => some s

/-- Reads the elements of an array and its closing bracket, given a reader for an element. The first
argument bounds their number. -/
def readElements? (read? : List Char → Option (Value × List Char)) :
    (bound : Nat) → List Char → Option (List Value × List Char)
  | 0, _ => none
  | bound + 1, s => do
    let s ← skipLines? s.length s
    match s with
    | ']' :: s => pure ([], s)
    | s =>
      let (v, s) ← read? s
      let s ← skipLines? s.length s
      match s with
      | ',' :: s => (readElements? read? bound s).map fun p => (v :: p.1, p.2)
      | ']' :: s => pure ([v], s)
      | _ => none

/-- Reads the entries of an inline table and its closing brace, given a reader for a value. The first
argument bounds their number. -/
def readInlineEntries? (read? : List Char → Option (Value × List Char)) :
    (bound : Nat) → Entries → List Char → Option (Entries × List Char)
  | 0, _, _ => none
  | bound + 1, entries, s => do
    let (keys, s) ← readKey? s
    let s ← Text.stripStart? ['='] s
    let (v, s) ← read? (skipSpaces s)
    let entries ← define? keys v .declared entries
    match skipSpaces s with
    | ',' :: s => readInlineEntries? read? bound entries s
    | '}' :: s => pure (entries, s)
    | _ => none

/-- Reads a value in which arrays and inline tables nest at most `depth` levels deep. -/
def readValue? : (depth : Nat) → List Char → Option (Value × List Char)
  | 0, s => readScalar? s
  | depth + 1, s =>
    match s with
    | '[' :: s => (readElements? (readValue? depth) (s.length + 1) s).map fun p => (.array p.1, p.2)
    | '{' :: s =>
      match skipSpaces s with
      | '}' :: s => some (.table [], s)
      | s =>
        (readInlineEntries? (readValue? depth) (s.length + 1) [] s).map fun p =>
          (.table (entriesToValue p.1), p.2)
    | s => readScalar? s

/-! ## Lines -/

/-- What follows the end of a line, where blanks and a comment may come first. -/
def endLine? (s : List Char) : Option (List Char) :=
  match skipComment? (skipSpaces s) with
  | none => none
  | some [] => some []
  | some s => readNewline? s

/-- A document read in part: its entries and the path of the last header. -/
structure Reading where
  root : Entries
  path : List String

/-- Reads a line that is not blank, and what follows it. -/
def Reading.line? (r : Reading) (s : List Char) : Option (Reading × List Char) :=
  match s with
  | '[' :: '[' :: s => do
    let (path, s) ← readKey? s
    let s ← Text.stripStart? [']', ']'] s
    let s ← endLine? s
    let root ← openArrayTable? path r.root
    pure (⟨root, path⟩, s)
  | '[' :: s => do
    let (path, s) ← readKey? s
    let s ← Text.stripStart? [']'] s
    let s ← endLine? s
    let root ← openTable? path r.root
    pure (⟨root, path⟩, s)
  | s => do
    let (keys, s) ← readKey? s
    let s ← Text.stripStart? ['='] s
    let (v, s) ← readValue? (maxDepth - 1) (skipSpaces s)
    let s ← endLine? s
    let root ← modifyAt? false (define? keys v) r.path .declared r.root
    pure (⟨root, r.path⟩, s)

/-- Reads all lines. The first argument bounds their number. -/
def Reading.lines? : (bound : Nat) → Reading → List Char → Option Entries
  | 0, _, _ => none
  | bound + 1, r, s =>
    match skipSpaces s with
    | [] => some r.root
    | c :: s =>
      if c = '#' ∨ c = '\n' ∨ c = '\r' then
        match endLine? (c :: s) with
        | some s => lines? bound r s
        | none => none
      else
        match r.line? (c :: s) with
        | some (r, s) => lines? bound r s
        | none => none

/-- The table of a document: its entries in ascending order of their keys. A byte order mark in front
does not count. -/
def table? (s : List Char) : Option (List (String × Value)) :=
  let s := match s with
    | '\uFEFF' :: s => s
    | s => s
  (Reading.lines? (s.length + 2) ⟨[], []⟩ s).map entriesToValue

/-- The table of a document, or why there is none. The reason does not say what is wrong. -/
def parse? (s : List Char) : Except String (List (String × Value)) :=
  match table? s with
  | some entries => .ok entries
  | none => .error "not a TOML document"

end Treatise.Toml
