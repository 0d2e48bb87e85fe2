import Treatise.Markdown.Reference
import Treatise.Text.Blank
import Treatise.Text.Case
import Treatise.Text.Punctuation

/-!
# Link targets

The destination and title of a link, written behind the link's text in parentheses
(`LinkTarget.read?`), or in a definition that links mention by its label (`LinkDefinition.read?`).
Labels are read by `readLabel?` and compared by `normalizeLabel`.

All of these may go on in the next line. How they do is an argument of the readers, because it depends
on the containers around and on what the line begins.
-/

namespace Treatise.Markdown

structure LinkTarget where
  destination : List Char
  /-- Empty if there is no title. -/
  title : List Char
  deriving DecidableEq, Repr

/-- A text with its backslash escapes and character references replaced, and without carriage
returns. -/
def unescape (s : List Char) : List Char := go s.length s
where
  /-- `unescape`, for a text of at most the given length. -/
  go : Nat → List Char → List Char
    | 0, _ => []
    | _ + 1, [] => []
    | n + 1, c :: s =>
      match c, s with
      | '\\', d :: rest => if Text.isAsciiPunctuation d then d :: go n rest else c :: go n s
      | '&', _ =>
        match readReference? s with
        | some (value, size) => value ++ go n (s.drop size)
        | none => c :: go n s
      | '\r', _ => go n s
      | _, _ => c :: go n s

/-! ## Labels -/

/-- A label without blanks around it, with one space for every run of blanks, and case folded. -/
def normalizeLabel (s : List Char) : List Char :=
  Text.foldCase ([' '].intercalate (words s))
where
  /-- The words of a text between its ASCII blanks. -/
  words : List Char → List (List Char)
    | [] => []
    | c :: s =>
      if isAnyBlank c then words s
      else
        match s with
        | [] => [[c]]
        | d :: _ =>
          if isAnyBlank d then [c] :: words s
          else match words s with
            | [] => [[c]]
            | l :: ls => (c :: l) :: ls

/-- A limit on the weight of a label. A space weighs one, an escape two, and a character outside ASCII
as much as it has bytes; other characters weigh nothing. -/
def maxLabelWeight : Nat := 1000

/-- Skips the blanks within a label, with one line end at most: their weight and what follows. -/
def skipLabelBlanks? (next : LineStep) (s : List Char) : Option (Nat × List Char) :=
  let blanks := s.takeWhile isInlineBlank
  let (stop, rest) := splitLineEnd (s.dropWhile isInlineBlank)
  if stop.isEmpty then some (blanks.length, rest)
  else
    match next rest with
    | none => none
    | some place =>
      let more := place.rest.takeWhile isInlineBlank
      let rest := place.rest.dropWhile isInlineBlank
      if atLineEnd rest then none
      else some (blanks.length + stop.length + place.size + more.length, rest)

/-- The text up to the bracket that closes a label, and what follows it. A bracket behind a backslash
does not count; an opening bracket is not allowed. The first number bounds the length, and the second
one is the weight so far. -/
def readLabelText? (next : LineStep) : (bound weight : Nat) → List Char →
    Option (List Char × List Char)
  | 0, _, _ => none
  | bound + 1, weight, s =>
    if maxLabelWeight ≤ weight then none
    else
      match s with
      | [] => none
      | '\\' :: c :: s =>
        (readLabelText? next bound (weight + c.utf8Size + 1) s).map fun p => ('\\' :: c :: p.1, p.2)
      | c :: s =>
        if c = ']' then some ([], s)
        else if c = '[' then none
        else if isAnyBlank c then
          match skipLabelBlanks? next (c :: s) with
          | none => none
          | some (blanks, s) =>
            (readLabelText? next bound (weight + blanks) s).map fun p => (' ' :: p.1, p.2)
        else
          let bytes := if c.toNat < 0x80 then 0 else c.utf8Size
          (readLabelText? next bound (weight + bytes) s).map fun p => (c :: p.1, p.2)

/-- Reads a label behind its opening bracket. Not all of it is blank. -/
def readLabel? (next : LineStep) (bound : Nat) (s : List Char) : Option (List Char × List Char) :=
  (readLabelText? next (bound + 1) 0 s).filter fun p => !p.1.all (· == ' ')

/-! ## Destinations -/

/-- Reads a destination up to the closing angle bracket. -/
def readPointed? : List Char → Option (List Char × List Char)
  | [] => none
  | '\\' :: c :: s =>
    if Text.isAsciiPunctuation c then (readPointed? s).map fun p => ('\\' :: c :: p.1, p.2)
    else (readPointed? (c :: s)).map fun p => ('\\' :: p.1, p.2)
  | c :: s =>
    if c = '>' then some ([], s)
    else if c = '<' ∨ isLineEnd c then none
    else (readPointed? s).map fun p => (c :: p.1, p.2)

/-- Reads a destination up to a blank, a control or an unmatched closing parenthesis. `limit` bounds
the depth of parentheses, `depth` of which are open. -/
def readBare? (limit : Nat) : (depth : Nat) → List Char → Option (List Char × List Char)
  | depth, [] => if depth = 0 then some ([], []) else none
  | depth, '\\' :: c :: s =>
    if Text.isAsciiPunctuation c then
      (readBare? limit depth s).map fun p => ('\\' :: c :: p.1, p.2)
    else (readBare? limit depth (c :: s)).map fun p => ('\\' :: p.1, p.2)
  | depth, c :: s =>
    if c.toNat ≤ 0x20 then if depth = 0 then some ([], c :: s) else none
    else if c = '(' then
      if limit < depth then none
      else (readBare? limit (depth + 1) s).map fun p => (c :: p.1, p.2)
    else if c = ')' then
      match depth with
      | 0 => some ([], c :: s)
      | depth + 1 => (readBare? limit depth s).map fun p => (c :: p.1, p.2)
    else (readBare? limit depth s).map fun p => (c :: p.1, p.2)

/-- Reads a destination as it is written. -/
def readDestination? (limit : Nat) (s : List Char) : Option (List Char × List Char) :=
  match s with
  | '<' :: s => readPointed? s
  | s => readBare? limit 0 s

/-! ## Titles -/

/-- The mark that closes a title, by the one that opens it. -/
def closingMark? (c : Char) : Option Char :=
  if c = '"' ∨ c = '\'' then some c else if c = '(' then some ')' else none

/-- The text behind a backslash that escapes what follows it. -/
def dropEscape (s : List Char) : List Char :=
  match s with
  | '\\' :: c :: s => if Text.isAsciiPunctuation c then c :: s else '\\' :: c :: s
  | s => s

/-- Reads a title within running text up to its closing mark, with escapes and references replaced. A
line begins behind its blanks, and behind a backslash that escapes its first character. The first
number bounds the length. -/
def readTitleText? (lineStart : List Char → Cursor) (closing : Char) : (bound : Nat) → List Char →
    Option (List Char × List Char)
  | 0, _ => none
  | _ + 1, [] => none
  | bound + 1, c :: s =>
    let go (front rest : List Char) : Option (List Char × List Char) :=
      (readTitleText? lineStart closing bound rest).map fun p => (front ++ p.1, p.2)
    if c = closing then some ([], s)
    else if c = '(' ∧ closing = ')' then none
    else if c = '\r' ∧ s.head? = some '\n' then go [c] s
    else if isLineEnd c then go ['\n'] (dropEscape (lineStart s).skipAll.rest)
    else
      match c, s with
      | '&', _ =>
        match readReference? s with
        | some (value, size) => go value (s.drop size)
        | none => go [c] s
      | '\\', d :: rest => if Text.isAsciiPunctuation d then go [d] rest else go [c] s
      | _, _ => go [c] s

/-- Reads a title of a definition up to its closing mark, as it is written. Blanks at the start of a
line are dropped. The first number bounds the length. -/
def readRawTitle? (next : LineStep) (closing : Char) : (bound : Nat) → List Char →
    Option (List Char × List Char)
  | 0, _ => none
  | _ + 1, [] => none
  | bound + 1, c :: s =>
    let go (front rest : List Char) : Option (List Char × List Char) :=
      (readRawTitle? next closing bound rest).map fun p => (front ++ p.1, p.2)
    if c = '(' ∧ closing = ')' then none
    else if isLineEnd c then
      match next (skipLineEnd (c :: s)) with
      | none => none
      | some place =>
        let rest := place.skipAll.rest
        if isBlankLine rest then none else go ['\n'] rest
    else if c = '\\' then
      match s with
      | [] => none
      | d :: rest => if isLineEnd d then go [c] s else go [c, d] rest
    else if c = closing then some ([], s)
    else go [c] s

/-! ## Behind the text of a link -/

/-- Skips blanks with one line end at most. -/
def skipSeparator (lineStart : List Char → Cursor) (s : List Char) : List Char :=
  match splitLineEnd (dropBlanks s) with
  | ([], rest) => rest
  | (_, rest) => dropBlanks (lineStart rest).rest

/-- How deep parentheses may nest in the destination of a link. -/
def maxNesting : Nat := 32

/-- Reads the target of a link behind its opening parenthesis, and what follows the closing one.
`plain` is what a written destination stands for before its escapes are replaced. -/
def LinkTarget.read? (lineStart : List Char → Cursor) (plain : List Char → List Char) (bound : Nat)
    (s : List Char) : Option (LinkTarget × List Char) := do
  let (destination, s) ← readDestination? maxNesting (skipSeparator lineStart s)
  let s := skipSeparator lineStart s
  let title? : Option (List Char × List Char) := do
    let closing ← s.head? >>= closingMark?
    readTitleText? lineStart closing bound (s.drop 1)
  let (title, s) := match title? with
    | some (title, s) => (title, skipSeparator lineStart s)
    | none => ([], s)
  match s with
  | ')' :: s => some (⟨unescape (plain destination), title⟩, s)
  | _ => none

/-! ## Definitions -/

/-- A definition: the label in its normal form and what it stands for. -/
structure LinkDefinition where
  label : List Char
  target : LinkTarget
  deriving DecidableEq, Repr

/-- Skips blanks with one line end at most, in a definition: whether there was a line end, and what
follows. -/
def skipDefinitionSpace? (next : LineStep) (s : List Char) : Option (Bool × List Char) :=
  let s := dropBlanks s
  if atLineEnd s then
    match next (skipLineEnd s) with
    | none => none
    | some place =>
      let s := dropBlanks place.rest
      if atLineEnd s then none else some (true, s)
  else some (false, s)

/-- Reads what follows the destination in a definition: the title as it is written, and the text
behind it. A title on a line of its own is optional, and a blank must stand before one. -/
def readDefinitionTitle? (next : LineStep) (bound : Nat) (s : List Char) :
    Option (List Char × List Char) :=
  match skipDefinitionSpace? next s with
  | none => some ([], s)
  | some (onOwnLine, t) =>
    let without : Option (List Char × List Char) := if onOwnLine then some ([], s) else none
    if (s.head?.map isAnyBlank).getD false then
      match t.head? >>= closingMark? with
      | none => without
      | some closing =>
        match readRawTitle? next closing bound (t.drop 1) with
        | some (title, rest) => if isBlankLine rest then some (title, rest) else without
        | none => without
    else none

/-- Reads a definition `[label]: destination "title"` at the start of a text, and what follows the
line on which it ends. Lines within the label and lines behind it go on in ways of their own. -/
def LinkDefinition.read? (nextInLabel next : LineStep) (bound : Nat) (s : List Char) :
    Option (LinkDefinition × List Char) := do
  let s ← Text.stripStart? ['['] s
  let (label, s) ← readLabel? nextInLabel bound s
  let s ← Text.stripStart? [':'] s
  let (_, s) ← skipDefinitionSpace? next s
  let (destination, rest) ← readDestination? 1 s
  if destination.isEmpty ∧ s.head? ≠ some '<' then none
  else
    let (title, rest) ← readDefinitionTitle? next bound rest
    pure (⟨normalizeLabel label, ⟨unescape destination, unescape title⟩⟩, skipBlankLine rest)

end Treatise.Markdown
