/-!
# Lines of Markdown

A line ends behind a line feed, a carriage return or both; the last line may have no end. Literal
text goes by lines of its own, which end behind a line feed only. Blanks within a line are the
space, the tab, the vertical tab and the form feed.

* `takeLine`, `takeLiteral` — the first line of a text and what follows it;
* `Cursor` — a place in a line, with its column, so that a tab counts up to the next multiple of
  four. A tab may be read in part: its other columns are owed.
-/

namespace Treatise.Markdown

/-- A blank that does not end a line. -/
def isInlineBlank (c : Char) : Bool := c == ' ' || c == '\t' || c == '\x0b' || c == '\x0c'

def isLineEnd (c : Char) : Bool := c == '\n' || c == '\r'

/-- An ASCII blank or the end of a line. -/
def isAnyBlank (c : Char) : Bool := isInlineBlank c || isLineEnd c

/-- The rest of a line is over. -/
def atLineEnd : List Char → Bool
  | [] => true
  | c :: _ => isLineEnd c

def dropBlanks (s : List Char) : List Char := s.dropWhile isInlineBlank

/-- The rest of a line holds blanks only. -/
def isBlankLine (s : List Char) : Bool := atLineEnd (dropBlanks s)

/-- The end of a line at the start of a text, and what follows it. -/
def splitLineEnd (s : List Char) : List Char × List Char :=
  match s with
  | '\r' :: '\n' :: s => (['\r', '\n'], s)
  | c :: s => if isLineEnd c then ([c], s) else ([], c :: s)
  | [] => ([], [])

/-- Skips one line end at most. -/
def skipLineEnd (s : List Char) : List Char := (splitLineEnd s).2

/-- What follows the rest of a line that holds blanks only. -/
def skipBlankLine (s : List Char) : List Char := skipLineEnd (dropBlanks s)

/-- The first line of a text with its end, and what follows it. -/
def takeLine (s : List Char) : List Char × List Char :=
  let (stop, rest) := splitLineEnd (s.dropWhile (!isLineEnd ·))
  (s.takeWhile (!isLineEnd ·) ++ stop, rest)

def lineText (s : List Char) : List Char := s.takeWhile (!isLineEnd ·)

/-- The first line of literal text with its end, and what follows it. -/
def takeLiteral (s : List Char) : List Char × List Char :=
  match s.dropWhile (· != '\n') with
  | [] => (s, [])
  | _ :: rest => (s.takeWhile (· != '\n') ++ ['\n'], rest)

/-- A line of literal text as it shows: without the carriage return in front of its last byte. -/
def literalText (line : List Char) : List Char :=
  match line.reverse with
  | c :: '\r' :: r => if c.toNat < 0x80 then (c :: r).reverse else line
  | _ => line

theorem splitLineEnd_append (s : List Char) : (splitLineEnd s).1 ++ (splitLineEnd s).2 = s := by
  unfold splitLineEnd
  split
  · rfl
  · split <;> simp
  · rfl

/-- Cutting off a line loses nothing. -/
theorem takeLine_append (s : List Char) : (takeLine s).1 ++ (takeLine s).2 = s := by
  simp only [takeLine, List.append_assoc, splitLineEnd_append, List.takeWhile_append_dropWhile]

/-- A place in a text, reached from the start of a line. -/
structure Cursor where
  /-- What is not read yet, to the end of the text. -/
  rest : List Char
  /-- The column of the next character. -/
  column : Nat
  /-- Columns of the last tab that are not read yet. -/
  owed : Nat
  /-- The number of characters read. -/
  size : Nat
  deriving DecidableEq, Repr

namespace Cursor

def ofLine (line : List Char) : Cursor := ⟨line, 0, 0, 0⟩

def atLineEnd (c : Cursor) : Bool := Markdown.atLineEnd c.rest

/-- Reads up to `n` columns of spaces and tabs: how many there were, and the place behind them. -/
def skip : (n : Nat) → Cursor → Nat × Cursor
  | 0, c => (0, c)
  | n + 1, c =>
    let next : Option Cursor :=
      if 0 < c.owed then some { c with owed := c.owed - 1 }
      else match c.rest with
        | ' ' :: s => some ⟨s, c.column + 1, 0, c.size + 1⟩
        | '\t' :: s =>
          let width := 4 - c.column % 4
          some ⟨s, c.column + width, width - 1, c.size + 1⟩
        | _ => none
    match next with
    | none => (0, c)
    | some c =>
      let (k, c) := skip n c
      (k + 1, c)

def skipAll (c : Cursor) : Cursor :=
  let isSpace (d : Char) : Bool := d == ' ' || d == '\t'
  { c with
    rest := c.rest.dropWhile isSpace
    owed := 0
    size := c.size + (c.rest.takeWhile isSpace).length }

/-- Reads one character, if it is the next. -/
def skipChar? (d : Char) (c : Cursor) : Option Cursor :=
  match c.rest with
  | [] => none
  | e :: s =>
    if e = d then some { c with rest := s, column := c.column + 1, size := c.size + 1 } else none

/-- Skips what comes before the text of a line. A line that holds blanks only is nothing but the
blanks before its end, wherever the place is. The argument is the line from its start. -/
def skipToText (line : List Char) (c : Cursor) : Cursor :=
  let c := c.skipAll
  if isBlankLine c.rest then
    let size := (lineText line).length - ((lineText line).reverse.takeWhile isInlineBlank).length
    { c with rest := line.drop size, size }
  else c

/-- The columns that are owed, as spaces. -/
def owedSpaces (c : Cursor) : List Char := List.replicate c.owed ' '

end Cursor

/-- How a construct goes on behind a line end: the place from which the next line belongs to it, or
nothing where the construct must end with its line. -/
abbrev LineStep := List Char → Option Cursor

end Treatise.Markdown
