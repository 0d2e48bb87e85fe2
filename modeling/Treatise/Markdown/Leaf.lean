import Treatise.Markdown.Line
import Treatise.Text.Digit
import Treatise.Text.Search

/-!
# What a line begins

Recognisers for the constructs that a line announces. Each looks at the text from a place in a line
on, behind the markers of the containers and behind the indentation, and reads no further than that
line.
-/

namespace Treatise.Markdown

/-- Three or more `*`, `-` or `_`, all of one kind, with nothing but spaces and tabs between. -/
def isRule (s : List Char) : Bool :=
  match s with
  | [] => false
  | c :: _ => (c == '*' || c == '-' || c == '_') && isRuleOf c (lineText s)
where
  /-- A line of at least three marks. -/
  isRuleOf (mark : Char) (line : List Char) : Bool :=
    line.all (fun d => d == mark || d == ' ' || d == '\t') && 3 ≤ line.count mark

/-! ## Headings -/

/-- The level of a heading that begins with one to six `#` and a blank. -/
def headingLevel? (s : List Char) : Option Nat :=
  let level := (s.takeWhile (· == '#')).length
  if 1 ≤ level ∧ level ≤ 6 then
    match s.drop level with
    | [] => some level
    | c :: _ => if isAnyBlank c then some level else none
  else none

/-- The text without the spaces at its end. -/
def trimSpacesEnd (s : List Char) : List Char := (s.reverse.dropWhile (· == ' ')).reverse

/-- The text of a heading line behind its opening marks: without the blanks before it, the spaces
after it and closing marks, which a space must separate from the text. -/
def headingText (line : List Char) : List Char :=
  let text := trimSpacesEnd (lineText (dropBlanks line))
  let front := (text.reverse.dropWhile (· == '#')).reverse
  match front.getLast? with
  | none => []
  | some c => if c = ' ' then trimSpacesEnd front else text

/-- A text ends in a backslash that no other one escapes. -/
def endsInBackslash (s : List Char) : Bool := (s.reverse.takeWhile (· == '\\')).length % 2 == 1

/-- How many blanks at the end of a heading's text show only if the piece before them is text. -/
def headingTail (line text : List Char) : Nat :=
  if endsInBackslash line then 0 else (text.reverse.takeWhile isInlineBlank).length

/-- The level of the heading that an underline of `=` or `-` makes of the lines before it. -/
def underlineLevel? (s : List Char) : Option Nat :=
  match s with
  | [] => none
  | c :: _ =>
    if (c = '=' ∨ c = '-') ∧ isBlankLine (s.dropWhile (· == c)) then
      some (if c = '=' then 1 else 2)
    else none

/-! ## Code fences -/

/-- The mark and length of an opening code fence, and what follows it: three or more backticks, with
no further backtick on the line, or three or more tildes. -/
def fence? (s : List Char) : Option (Char × Nat × List Char) :=
  match s with
  | [] => none
  | c :: _ =>
    if c = '\x60' ∨ c = '~' then
      let size := (s.takeWhile (· == c)).length
      let info := s.drop size
      if 3 ≤ size ∧ ¬(c = '\x60' ∧ (takeLiteral info).1.contains '\x60') then some (c, size, info)
      else none
    else none

/-- What follows a fence that closes one of the given mark and length; nothing but spaces may stand
between. The end of the text closes every fence. -/
def closingFence? (mark : Char) (size : Nat) (s : List Char) : Option (List Char) :=
  let rest := (s.dropWhile (· == mark)).dropWhile (· == ' ')
  if s.isEmpty ∨ (size ≤ (s.takeWhile (· == mark)).length ∧ atLineEnd rest) then some rest else none

/-! ## List markers -/

structure ListMarker where
  /-- The bullet, or the delimiter behind a number. -/
  mark : Char
  /-- The number; zero for a bullet. -/
  number : Nat
  deriving DecidableEq, Repr

/-- The marker at the start of a text, its length and what follows it: a bullet, or up to nine
digits with a point or parenthesis. -/
def ListMarker.read? (s : List Char) : Option (ListMarker × Nat × List Char) :=
  match s with
  | [] => none
  | c :: rest =>
    if c = '-' ∨ c = '+' ∨ c = '*' then some (⟨c, 0⟩, 1, rest)
    else
      let digits := s.takeWhile Char.isDigit
      match s.drop digits.length with
      | [] => none
      | d :: rest =>
        if 1 ≤ digits.length ∧ digits.length ≤ 9 ∧ (d = '.' ∨ d = ')') then
          some (⟨d, Text.decimalValue digits⟩, digits.length + 1, rest)
        else none

def ListMarker.isBullet (m : ListMarker) : Bool := m.mark == '-' || m.mark == '+' || m.mark == '*'

/-- The marker of a list item, where a blank or the end of the line must follow. -/
def itemStart? (s : List Char) : Option (ListMarker × List Char) :=
  match ListMarker.read? s with
  | none => none
  | some (m, _, rest) =>
    match rest with
    | [] => some (m, rest)
    | c :: _ => if c = ' ' ∨ c = '\t' ∨ isLineEnd c then some (m, rest) else none

/-! ## Tables -/

/-- The number of columns that a delimiter row announces, and what follows it. Its cells are of
hyphens, spaces and colons, each with a hyphen but for the last one, which may be blank; there must
be a pipe. -/
def delimiterRow? (s : List Char) : Option (Nat × List Char) :=
  let (line, rest) := takeLine s
  let indent := (line.takeWhile (· == ' ')).length
  let cells := Text.splitAll '|' (lineText (line.drop indent))
  let cells := match cells with
    | [] :: cell :: cells => cell :: cells
    | cells => cells
  let last := cells.getLastD []
  let isCell (cell : List Char) : Bool := cell.all fun c => c == ' ' || c == ':' || c == '-'
  if indent ≤ 3 ∧ line.contains '|' ∧ line.contains '-' ∧ cells.all isCell ∧
      cells.dropLast.all (·.contains '-') then
    some (if last.all (· == ' ') then cells.length - 1 else cells.length, rest)
  else none

/-- The pipes in a text that do not follow a backslash directly, each with what follows it. -/
def pipes (afterBackslash : Bool) : List Char → List (List Char)
  | [] => []
  | c :: s =>
    if c = '|' ∧ !afterBackslash then s :: pipes false s else pipes (c == '\\') s

/-- The number of columns of a head row; zero if it has no pipe. -/
def headColumns (line : List Char) : Nat :=
  let ps := pipes false line
  match ps.getLast? with
  | none => 0
  | some last =>
    let leading := (dropBlanks line).head? == some '|'
    let inner := if leading then ps.length - 1 else ps.length
    if isBlankLine last then inner else inner + 1

/-- What follows the head of a table: a line with a pipe and a delimiter row of as many columns. -/
def tableHead? (head delimiters : List Char) : Option (List Char) :=
  if (pipes false head).isEmpty then none
  else
    match delimiterRow? delimiters with
    | some (columns, rest) => if columns = headColumns head then some rest else none
    | none => none

/-- Reads the text of a cell up to the pipe that ends it, which does not follow a backslash. -/
def readCell : List Char → List Char × List Char
  | [] => ([], [])
  | '\\' :: '|' :: s =>
    let (cell, rest) := readCell s
    ('\\' :: '|' :: cell, rest)
  | c :: s =>
    if c = '|' then ([], c :: s)
    else
      let (cell, rest) := readCell s
      (c :: cell, rest)

/-- The cells of a row, without the blanks before them. The first argument bounds their number. -/
def rowCells : (bound : Nat) → List Char → List (List Char)
  | 0, _ => []
  | bound + 1, s =>
    let s := match s with
      | '|' :: s => s
      | s => s
    let s := dropBlanks s
    if s.isEmpty then []
    else
      let (cell, rest) := readCell s
      cell :: rowCells bound rest

def row (line : List Char) : List (List Char) := rowCells (line.length + 1) (lineText line)

end Treatise.Markdown
