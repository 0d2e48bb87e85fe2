import Treatise.Text.Blank
import Treatise.Text.Line
import Treatise.Text.Search

/-!
# Chunks

A document body is cut into chunks at its blank lines; a blank line inside a fenced code block does
not cut. A chunk is a slice of the body that begins at the start of a line and ends before the end of
one, with the place of its first byte.

A chunk that ends in the terminator closes a statement.
-/

namespace Treatise

/-- A slice of the body and the byte at which it starts. -/
structure Chunk where
  text : List Char
  start : Nat
  deriving DecidableEq, Repr

namespace Chunk

def stop (c : Chunk) : Nat := c.start + Text.byteLength c.text

/-! ## Fences -/

structure Fence where
  mark : Char
  size : Nat
  deriving DecidableEq, Repr

/-- The fence on a line: at most three spaces, then three or more backticks or tildes. What follows
them does not matter. -/
def Fence.ofLine? (line : List Char) : Option Fence :=
  let indent := (line.takeWhile (· == ' ')).length
  if indent > 3 then none
  else
    match line.drop indent with
    | [] => none
    | c :: rest =>
      if c = '\x60' ∨ c = '~' then
        let size := ((c :: rest).takeWhile (· == c)).length
        if size ≥ 3 then some ⟨c, size⟩ else none
      else none

/-- The fence that is open behind a line: a line opens one if none is open, and closes one that has
the same mark and is not longer. -/
def Fence.next (isOpen : Option Fence) (line : List Char) : Option Fence :=
  match isOpen, ofLine? line with
  | none, found => found
  | some f, some g => if f.mark = g.mark ∧ f.size ≤ g.size then none else some f
  | some f, none => some f

/-! ## Cutting -/

/-- A line without the line feeds and carriage returns at its end. -/
def content (line : List Char) : List Char :=
  (line.reverse.dropWhile fun c => c == '\n' || c == '\r').reverse

/-- A chunk that more lines may belong to: the lines before the last one as they are, and the last
one without its end. -/
structure Partial where
  start : Nat
  lines : List Char
  last : List Char
  lastEnd : List Char

/-- The chunk, if it gets no more lines. -/
def Partial.toChunk (p : Partial) (base : Nat) : Chunk := ⟨p.lines ++ p.last, base + p.start⟩

/-- A chunk with one more line, or a new one that starts with the line. -/
def Partial.extend (p : Option Partial) (offset : Nat) (line : List Char) : Partial :=
  let last := content line
  let lastEnd := line.drop last.length
  match p with
  | some p => ⟨p.start, p.lines ++ p.last ++ p.lastEnd, last, lastEnd⟩
  | none => ⟨offset, [], last, lastEnd⟩

/-- Cuts lines into chunks. `offset` is the byte at which the lines start, counted from the start of
the body, which itself starts at byte `base`. -/
def cut (base : Nat) : (offset : Nat) → (fence : Option Fence) → (current : Option Partial) →
    List (List Char) → List Chunk
  | _, _, none, [] => []
  | _, _, some p, [] => [p.toChunk base]
  | offset, fence, current, line :: lines =>
    let next := offset + Text.byteLength line
    if fence.isNone ∧ Text.isAllBlank (content line) then
      match current with
      | some p => p.toChunk base :: cut base next none none lines
      | none => cut base next none none lines
    else
      cut base next (Fence.next fence (content line)) (some (Partial.extend current offset line))
        lines

/-- The chunks of a body whose first byte is byte `base`. -/
def split (source : List Char) (base : Nat) : List Chunk :=
  cut base 0 none none (Text.splitLines source)

/-! ## The terminator -/

/-- The text before a terminator at the end, where blanks behind it do not count. -/
def beforeTerminator? (text : List Char) : Option (List Char) :=
  Text.stripEnd? ['{', '}'] (Text.trimEnd text)

/-- The text without a terminator at its end, and whether there was one. -/
def stripTerminator (text : List Char) : List Char × Bool :=
  match beforeTerminator? text with
  | some body => (body, true)
  | none => (text, false)

end Chunk

end Treatise
