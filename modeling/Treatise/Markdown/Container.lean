import Treatise.Markdown.Leaf
import Treatise.Markdown.RawHtml

/-!
# Containers

Block quotes, lists and list items hold other blocks. A container is open from the line that begins
it; a later line belongs to it if it continues the container, which each kind shows in its own way.

* `Container.follow` — the containers that a line continues, from the outermost on;
* `FollowingLine.interrupts` — a line begins something that no paragraph goes on with;
* `Passage` — text with inline markup, as it stands among the marks of its containers.
-/

namespace Treatise.Markdown

inductive Container where
  | quote
  /-- A list with its mark and the number of its first item. -/
  | list (mark : Char) (start : Nat) (tight : Bool)
  /-- An item whose content is indented by a number of columns. -/
  | item (indent : Nat)
  deriving DecidableEq, Repr

namespace Container

/-- Reads the mark of a block quote and a space behind it. -/
def readQuoteMark? (c : Cursor) : Option Cursor :=
  (c.skipChar? '>').map fun c => (c.skip 1).2

/-- The place behind what continues the container, if a line does: the mark of a quote, the
indentation of an item or a blank rest; a list asks for nothing. -/
def continue? (k : Container) (c : Cursor) : Option Cursor :=
  match k with
  | quote => readQuoteMark? (c.skip 3).2
  | list _ _ _ => some c
  | item indent =>
    let (n, c') := c.skip indent
    if n = indent ∨ c'.atLineEnd then some c' else none

/-- Follows containers, the outermost first, as far as a line continues them: how many it does not
continue, and the place that is reached. -/
def follow : List Container → Cursor → Nat × Cursor
  | [], c => (0, c)
  | k :: ks, c =>
    match k.continue? c with
    | some c => follow ks c
    | none => (ks.length + 1, c)

/-- The place behind the marks of all containers, if the first line of a text continues all of
them. -/
def followAll? (ks : List Container) (s : List Char) : Option Cursor :=
  match follow ks (Cursor.ofLine s) with
  | (0, c) => some c
  | _ => none

end Container

/-! ## Beginning an item -/

/-- The start of a list item, behind an indentation of `indent` columns: its marker, the columns by
which its content is indented, and the place behind the marker. A rule is no item. -/
def readItemMarker? (indent : Nat) (c : Cursor) : Option (ListMarker × Nat × Cursor) :=
  if isRule c.rest then none
  else
    match ListMarker.read? c.rest with
    | none => none
    | some (m, size, rest) =>
      let c := { c with rest, column := c.column + size, size := c.size + size }
      let (n, c') := c.skip 1
      if n = 1 ∨ c'.atLineEnd then
        let indent := indent + size + 1
        if isBlankLine c'.rest then some (m, indent, c')
        else
          -- up to three more columns belong to the marker, but of four or more none does
          let (n, c'') := c'.skip 4
          if n < 4 then some (m, indent + n, c'') else some (m, indent, c')
      else none

/-! ## Interrupting a paragraph -/

/-- A list item interrupts a paragraph only if it is not empty and its number is one, unless the
paragraph is a table row or the line leaves a container. -/
def itemInterrupts (inAll inTable : Bool) (s : List Char) : Bool :=
  match itemStart? s with
  | some (m, rest) =>
    !inAll || inTable || ((m.isBullet || m.number == 1) && !isBlankLine rest)
  | none => false

/-- A line, from behind the marks of the containers that it continues, begins something that is
neither a paragraph nor a table. -/
def interruptsText (inAll inTable : Bool) (s : List Char) : Bool :=
  atLineEnd s || isRule s || (headingLevel? s).isSome || (fence? s).isSome ||
    s.head? == some '>' || itemInterrupts inAll inTable s ||
    match s with
    | '<' :: s => (htmlBlock? true s).isSome
    | _ => false

/-- A line that begins with a pipe is the head of a table, as the next line shows. -/
def beginsTable (containers : List Container) (s : List Char) : Bool :=
  s.head? == some '|' &&
    match Container.followAll? containers (takeLine s).2 with
    | some c => (tableHead? (lineText s) c.rest).isSome
    | none => false

/-- A line begins something that no paragraph goes on with. -/
def interrupts (containers : List Container) (inAll : Bool) (s : List Char) : Bool :=
  interruptsText inAll false s || beginsTable containers s

/-- A line behind one that belongs to a paragraph. -/
structure FollowingLine where
  /-- The line continues all containers. -/
  inAll : Bool
  /-- The line is indented by four columns or more, so that it begins nothing else. -/
  isIndented : Bool
  /-- The place behind the marks of the containers and up to four columns. -/
  place : Cursor

namespace FollowingLine

/-- The first line of a text. -/
def read (containers : List Container) (s : List Char) : FollowingLine :=
  let (missing, c) := Container.follow containers (Cursor.ofLine s)
  let (n, c) := c.skip 4
  ⟨missing == 0, n == 4, c⟩

def interrupts (l : FollowingLine) (containers : List Container) : Bool :=
  !l.isIndented && Markdown.interrupts containers l.inAll l.place.rest

/-- The level of the heading of which the line is the underline. -/
def underlineLevel? (l : FollowingLine) : Option Nat :=
  if l.isIndented then none else Markdown.underlineLevel? l.place.rest

end FollowingLine

/-! ## Passages -/

/-- Text with inline markup as it stands in the document: behind each line end follow the marks of
the containers around, as far as there are any. -/
structure Passage where
  containers : List Container
  text : List Char
  /-- How many characters at the end show only if the piece before them is text. -/
  tail : Nat
  /-- The text is a table cell, where a pipe stands behind a backslash. -/
  isCell : Bool

namespace Passage

/-- The place behind the marks at the start of a line. -/
def lineStart (p : Passage) (s : List Char) : Cursor :=
  (Container.follow p.containers (Cursor.ofLine s)).2

/-- A piece of the text, without the marks at the start of its lines. The first argument bounds its
length. -/
def withoutMarks (p : Passage) : (bound : Nat) → List Char → List Char
  | 0, _ => []
  | _ + 1, [] => []
  | bound + 1, c :: s =>
    if isLineEnd c then c :: p.withoutMarks bound (p.lineStart s).rest
    else c :: p.withoutMarks bound s

/-- A piece of the text, without the backslash before a pipe. -/
def withoutEscapes : List Char → List Char
  | [] => []
  | '\\' :: '|' :: s => '|' :: withoutEscapes s
  | c :: s => c :: withoutEscapes s

/-- A piece of the text as it would stand by itself: without the marks of the containers and, in a
table cell, without the backslash before a pipe. -/
def plain (p : Passage) (s : List Char) : List Char :=
  let s := p.withoutMarks s.length s
  if p.isCell then withoutEscapes s else s

end Passage

end Treatise.Markdown
