import Treatise.Chunk
import Treatise.Issue
import Treatise.Statement.Heading

/-!
# Assembly of the tree

Chunks are taken one after the other. One that opens a statement starts a new container inside the
innermost open one; one that ends in the terminator closes the innermost; all other chunks are text.
Text that follows text belongs together: it is joined by blank lines and read by one call of the
reader, at the moment when the next statement opens, the container closes or the input ends.

* `Assembly.feed` — takes one chunk;
* `Assembly.finish` — closes what is open at the end, innermost first, with a warning each;
* `assemble` — the tree of all chunks.
-/

namespace Treatise

/-- Reads a text and puts its content at the end of a node. -/
abbrev Reader := List Char → Node → Node

/-- An open statement: its node so far and the byte at which it was opened. -/
structure OpenStatement where
  statement : Statement
  node : Node
  start : Nat

structure Assembly where
  root : Node
  /-- The open statements, the innermost first. -/
  frames : List OpenStatement
  /-- Text of the innermost container that is not read yet. No member is blank. -/
  run : List (List Char)

/-- What a chunk did. -/
inductive Step where
  /-- It was taken, and more may follow. -/
  | continued
  /-- It closed the innermost statement. -/
  | terminated
  | endOfInput
  deriving DecidableEq, Repr

namespace Assembly

def empty : Assembly := ⟨Node.ofTag .root, [], []⟩

def depth (a : Assembly) : Nat := a.frames.length

def proofDepth (a : Assembly) : Nat := a.frames.countP (·.statement.kind.isProof)

def mapContainer (a : Assembly) (f : Node → Node) : Assembly :=
  match a.frames with
  | [] => { a with root := f a.root }
  | frame :: frames => { a with frames := { frame with node := f frame.node } :: frames }

/-- Adds text, unless it is blank. -/
def pushText (a : Assembly) (text : List Char) : Assembly :=
  if Text.isAllBlank text then a else { a with run := a.run ++ [text] }

/-- Reads the text that waits into the innermost container. -/
def flush (read : Reader) (a : Assembly) : Assembly :=
  if a.run.isEmpty then a
  else { a.mapContainer (read (['\n', '\n'].intercalate a.run)) with run := [] }

def openStatement (read : Reader) (a : Assembly) (o : Opening) (start : Nat) : Assembly :=
  let a := a.flush read
  let statement := Statement.ofOpening o a.proofDepth
  { a with frames := ⟨statement, statement.opened, start⟩ :: a.frames }

/-- Closes the innermost statement, if one is open. -/
def closeStatement (read : Reader) (a : Assembly) : Assembly :=
  let a := a.flush read
  match a.frames with
  | [] => a
  | frame :: frames =>
    { a with frames := frames }.mapContainer (·.push (frame.statement.closed frame.node))

/-- Adds text that may end in the terminator. -/
def pushBody (read : Reader) (a : Assembly) (text : List Char) : Step × Assembly :=
  match Chunk.stripTerminator text with
  | (body, true) => (.terminated, (a.pushText body).closeStatement read)
  | (body, false) => (.continued, a.pushText body)

def feed (read : Reader) (a : Assembly) (c : Chunk) : Step × Assembly :=
  match Opening.read? c.text with
  | some o => (a.openStatement read o c.start).pushBody read o.rest
  -- outside statements a terminator is text
  | none => if a.frames.isEmpty then (.continued, a.pushText c.text) else a.pushBody read c.text

def feedAll (read : Reader) (a : Assembly) (chunks : List Chunk) : Assembly :=
  chunks.foldl (fun a c => (a.feed read c).2) a

/-- What each of the first `n` steps did and how many statements were open after it. -/
def trace (read : Reader) (a : Assembly) : (n : Nat) → List Chunk → List (Step × Nat)
  | 0, _ => []
  | n + 1, [] => (.endOfInput, a.depth) :: trace read a n []
  | n + 1, c :: chunks =>
    let (step, a) := a.feed read c
    (step, a.depth) :: trace read a n chunks

/-- The warning about a statement that is still open at byte `stop`. -/
def unterminated (fileId stop : Nat) (frame : OpenStatement) : Issue where
  kind := .unterminatedBlock frame.statement.kind.name
  span := some ⟨frame.start, stop⟩
  fileId
  notes := ["end the block with `\x7b\x7d`"]

/-- Closes open statements, the innermost first, into the containers around them. -/
def closeAll (root : Node) : List OpenStatement → Node
  | [] => root
  | [frame] => root.push (frame.statement.closed frame.node)
  | frame :: outer :: frames =>
    closeAll root
      ({ outer with node := outer.node.push (frame.statement.closed frame.node) } :: frames)
termination_by frames => frames.length

/-- The tree, once there are no more chunks, and a warning for every open statement. `stop` is the
byte behind the last chunk. -/
def finish (read : Reader) (a : Assembly) (fileId stop : Nat) : Node × List Issue :=
  let a := a.flush read
  (closeAll a.root a.frames, a.frames.map (unterminated fileId stop))

end Assembly

def Chunk.stopOfAll (chunks : List Chunk) : Nat := (chunks.getLast?.map Chunk.stop).getD 0

/-- The tree of the chunks and the warnings about it. -/
def assemble (read : Reader) (chunks : List Chunk) (fileId : Nat) : Node × List Issue :=
  (Assembly.empty.feedAll read chunks).finish read fileId (Chunk.stopOfAll chunks)

end Treatise
