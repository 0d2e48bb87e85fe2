import Treatise.Markdown.Container
import Treatise.Markdown.LinkTarget

/-!
# Blocks

The block structure of a Markdown text. Text that still holds inline markup is kept as it stands, a
`Passage` of the document.

* `Block` — what a text consists of;
* `Outline` — a text read in part: the containers that are open and what they hold so far;
* `readBlocks` — the blocks of a text and its link definitions.
-/

namespace Treatise.Markdown

inductive Block where
  | paragraph (text : Passage)
  | heading (level : Nat) (text : Passage)
  | quote (content : List Block)
  | code (language : List Char) (text : List Char)
  /-- Raw HTML. -/
  | html (text : List Char)
  /-- A list with the number of its first item, if its items are numbered. The paragraphs of a tight
  list show as plain text. -/
  | list (tight : Bool) (number : Option Nat) (items : List (List Block))
  | rule
  | table (head : List Passage) (rows : List (List Passage))

/-- What an open container holds so far. An item is held by its list as soon as it is complete. -/
structure OpenContainer where
  container : Container
  blocks : List Block
  items : List (List Block)

/-- A text read in part. -/
structure Outline where
  /-- The blocks outside the open containers. -/
  blocks : List Block
  /-- The open containers, the innermost first. -/
  spine : List OpenContainer
  /-- The last line was blank, where that makes the list around loose. -/
  afterBlank : Bool
  /-- The last thing begun was an item with nothing on its first line. -/
  freshItem : Bool
  /-- The definitions, in the order of the text. -/
  definitions : List LinkDefinition

namespace Outline

def empty : Outline := ⟨[], [], false, false, []⟩

/-- The open containers, the outermost first. -/
def containers (o : Outline) : List Container := (o.spine.map (·.container)).reverse

def add (o : Outline) (b : Block) : Outline :=
  match o.spine with
  | [] => { o with blocks := o.blocks ++ [b] }
  | top :: spine => { o with spine := { top with blocks := top.blocks ++ [b] } :: spine }

/-- Adds an item to the innermost container, which is a list. -/
def addItem (o : Outline) (item : List Block) : Outline :=
  match o.spine with
  | [] => o
  | top :: spine => { o with spine := { top with items := top.items ++ [item] } :: spine }

def push (o : Outline) (k : Container) : Outline := { o with spine := ⟨k, [], []⟩ :: o.spine }

/-- The number that a list of this mark shows. -/
def listNumber? (mark : Char) (start : Nat) : Option Nat :=
  if mark = '.' ∨ mark = ')' then some start else none

def close (o : Outline) : Outline :=
  match o.spine with
  | [] => o
  | top :: spine =>
    let o := { o with spine }
    match top.container with
    | .quote => o.add (.quote top.blocks)
    | .item _ => o.addItem top.blocks
    | .list mark start tight =>
      let o := o.add (.list tight (listNumber? mark start) top.items)
      if tight then { o with freshItem := false } else o

def closeMany : (n : Nat) → Outline → Outline
  | 0, o => o
  | n + 1, o => closeMany n o.close

def top? (o : Outline) : Option Container := o.spine.head?.map (·.container)

def inItem (o : Outline) : Bool :=
  match o.top? with
  | some (.item _) => true
  | _ => false

/-- Makes a list loose; another container stays as it is. -/
def loosen (c : OpenContainer) : OpenContainer :=
  match c.container with
  | .list mark start _ => { c with container := .list mark start false }
  | _ => c

/-- An item that began with a blank line ends before what follows a second one. -/
def finishFreshItem (o : Outline) : Outline :=
  let o' := if o.freshItem && o.afterBlank && o.inItem then o.close else o
  { o' with freshItem := false }

/-- Prepares for a block that is no list item: closes the list whose item is complete, and makes the
list around loose if a blank line came before. -/
def finishList (o : Outline) : Outline :=
  let o := o.finishFreshItem
  let o := match o.top? with
    | some (.list _ _ _) => o.close
    | _ => o
  if o.afterBlank then
    let spine := match o.spine with
      | top :: around :: spine => top :: loosen around :: spine
      | spine => spine
    { o with spine, afterBlank := false }
  else o

/-- Prepares for an item with a marker: goes on with the list whose item is complete if the mark is
the same, and begins a new list otherwise. -/
def continueList (o : Outline) (m : ListMarker) : Outline :=
  let o := o.finishFreshItem
  let begin (o : Outline) : Outline :=
    { o.push (.list m.mark m.number true) with afterBlank := false }
  match o.spine with
  | [] => begin o
  | top :: spine =>
    match top.container with
    | .list mark _ _ =>
      if mark = m.mark then
        if o.afterBlank then { o with spine := loosen top :: spine, afterBlank := false } else o
      else begin o.finishList
    | _ => begin o.finishList

/-- Takes a blank line. A fresh item that holds nothing accepts no more lines. -/
def blankLine (o : Outline) : Outline :=
  match o.spine with
  | [] => { o with afterBlank := true }
  | top :: spine =>
    match top.container with
    | .quote => o
    | .item _ =>
      if o.freshItem then
        { o with spine := { top with container := .item 0 } :: spine, afterBlank := true }
      else { o with afterBlank := true }
    | .list _ _ _ => { o with afterBlank := true }

/-! ## Containers that a line begins -/

/-- Opens the containers that begin at a place: the place behind their marks, and whether an item
begins there with nothing on its line. The first argument bounds their number. -/
def openContainers : (bound : Nat) → Outline → Cursor → Outline × Cursor × Bool
  | 0, o, c => (o, c, false)
  | bound + 1, o, c =>
    let (indent, c') := c.skip 4
    if 4 ≤ indent then (o, c, false)
    else
      match readItemMarker? indent c' with
      | some (m, itemIndent, c) =>
        let o := (o.continueList m).push (.item itemIndent)
        if isBlankLine c.rest then ({ o with freshItem := true }, c, true)
        else openContainers bound o c
      | none =>
        match Container.readQuoteMark? c' with
        | some c => openContainers bound (o.finishList.push .quote) c
        | none => (o, c, false)

/-! ## Code -/

/-- The text of a line in a code block, from a place on, and what follows the line. -/
def codeLine (c : Cursor) : List Char × List Char :=
  let (line, rest) := takeLiteral c.rest
  (c.owedSpaces ++ literalText line, rest)

/-- The lines of a fenced code block behind its first line, and what follows the closing fence. The
first argument bounds the number of lines. -/
def fencedLines (containers : List Container) (indent : Nat) (mark : Char) (size : Nat) :
    (bound : Nat) → List Char → List (List Char) × List Char
  | 0, s => ([], s)
  | bound + 1, s =>
    match Container.followAll? containers s with
    | none => ([], s)
    | some c =>
      let c := (c.skip indent).2
      let (n, inner) := c.skip (4 - indent)
      match if n < 4 - indent then closingFence? mark size inner.rest else none with
      | some rest => ([], skipBlankLine rest)
      | none =>
        let (line, rest) := codeLine c
        let (lines, after) := fencedLines containers indent mark size bound rest
        (line :: lines, after)

/-- The lines of an indented code block from a place on, each with whether it is blank, and what
follows them. The first argument bounds their number. -/
def indentedLines (containers : List Container) :
    (bound : Nat) → Cursor → List (List Char × Bool) × List Char
  | 0, c => ([], c.rest)
  | bound + 1, c =>
    let (line, rest) := codeLine c
    let isBlank := isBlankLine c.rest
    let next : Option Cursor := do
      let (n, c) := (← Container.followAll? containers rest).skip 4
      if (n = 4 ∨ c.atLineEnd) ∧ !c.rest.isEmpty then some c else none
    match next with
    | none => ([(line, isBlank)], rest)
    | some c =>
      let (lines, after) := indentedLines containers bound c
      ((line, isBlank) :: lines, after)

/-- The code without the blank lines at its end. -/
def dropBlankCode (code : List (List Char × Bool)) : List Char :=
  ((code.reverse.dropWhile (·.2)).reverse.map (·.1)).flatten

/-! ## Raw HTML -/

/-- The lines of raw HTML from a place on, and what follows them. The first argument bounds their
number. -/
def htmlLines (containers : List Container) (stop : HtmlBlockEnd) :
    (bound : Nat) → Cursor → List (List Char) × List Char
  | 0, c => ([], c.rest)
  | bound + 1, c =>
    let (line, rest) := codeLine c
    let isMarked : Bool := match stop with
      | .mark text => Text.occursIn text.toList (takeLiteral c.rest).1
      | .blankLine => false
    match Container.followAll? containers rest with
    | none => ([line], rest)
    | some next =>
      if isMarked ∨ (stop = .blankLine ∧ isBlankLine next.rest) ∨ next.rest.isEmpty then
        ([line], rest)
      else
        let (lines, after) := htmlLines containers stop bound next
        (line :: lines, after)

/-! ## Tables -/

/-- A row as passages, with as many cells as the head: missing ones are empty, and too many are
dropped. -/
def fitRow (columns : Nat) (cells : List (List Char)) : List Passage :=
  ((cells ++ List.replicate (columns - cells.length) []).take columns).map (⟨[], ·, 0, true⟩)

/-- The rows of a table from the given line on, and what follows them. A row that has no cell ends the
table, and so does everything that interrupts a paragraph. The first argument bounds their number. -/
def tableRows (containers : List Container) (columns : Nat) :
    (bound : Nat) → List Char → List (List Passage) × List Char
  | 0, s => ([], s)
  | bound + 1, s =>
    match Container.followAll? containers s with
    | none => ([], s)
    | some c =>
      let c := c.skipAll
      let (line, rest) := takeLine c.rest
      let cells := row line
      if interruptsText true true c.rest ∨ cells.isEmpty then ([], s)
      else
        let (rows, after) := tableRows containers columns bound rest
        (fitRow columns cells :: rows, after)

/-- Reads a table whose head begins the given text, and what follows it. -/
def readTable? (containers : List Container) (bound : Nat) (s : List Char) :
    Option (Block × List Char) :=
  let (line, rest) := takeLine s
  let head := lineText line
  -- a backslash breaks the line, and so the lines are a paragraph
  if endsInBackslash head then none
  else
    match Container.followAll? containers rest with
    | none => none
    | some c =>
      match tableHead? head c.rest with
      | none => none
      | some rest =>
        let columns := headColumns head
        let (rows, after) := tableRows containers columns bound rest
        some (.table (fitRow columns (row line)) rows, after)

/-! ## Paragraphs -/

/-- The lines by which a paragraph goes on, the level of the heading that an underline makes of it,
and what follows. The first argument bounds the number of lines. -/
def paragraphLines (containers : List Container) :
    (bound : Nat) → List Char → List (List Char) × Option Nat × List Char
  | 0, s => ([], none, s)
  | bound + 1, s =>
    let next := FollowingLine.read containers s
    let (line, rest) := takeLine s
    match if next.inAll then next.underlineLevel? else none with
    | some level => ([], some level, (takeLine next.place.rest).2)
    | none =>
      if next.interrupts containers ∨ next.place.skipAll.atLineEnd then ([], none, s)
      else
        let (lines, level, after) := paragraphLines containers bound rest
        (line :: lines, level, after)

/-- Reads a paragraph or an underlined heading that begins the given text, and what follows it. -/
def readParagraph (containers : List Container) (bound : Nat) (s : List Char) :
    Block × List Char :=
  let (line, rest) := takeLine s
  let (lines, level, after) := paragraphLines containers bound rest
  let passage : Passage := ⟨containers, (line :: lines).flatten, 0, false⟩
  match level with
  | some level => (.heading level passage, after)
  | none => (.paragraph passage, after)

/-- Reads a link definition at the start of a text, and what follows the line on which it ends. It
goes on as a paragraph does, and no underline may follow. -/
def readDefinition? (containers : List Container) (bound : Nat) (s : List Char) :
    Option (LinkDefinition × List Char) :=
  let step (mayUnderline : FollowingLine → Bool) (s : List Char) : Option Cursor :=
    let next := FollowingLine.read containers s
    if next.interrupts containers ∨ (mayUnderline next ∧ next.underlineLevel?.isSome) then none
    else some next.place
  LinkDefinition.read? (step (·.inAll)) (step fun _ => true) bound s

/-- Takes link definitions and the paragraph or table behind them. The first argument bounds the
number of definitions. -/
def takeParagraph : (bound : Nat) → Outline → List Char → Outline × List Char
  | 0, o, s => (o, s)
  | bound + 1, o, s =>
    let containers := o.containers
    match readDefinition? containers bound s with
    | some (definition, rest) =>
      let o := { o with definitions := o.definitions ++ [definition] }
      let next := FollowingLine.read containers rest
      -- a line goes on with a definition if it would go on with a paragraph
      if next.interrupts containers ∨ next.place.skipAll.atLineEnd then (o, rest)
      else takeParagraph bound o (next.place.skipToText rest).rest
    | none =>
      let (block, rest) :=
        (readTable? containers bound s).getD (readParagraph containers bound s)
      (o.add block, rest)

/-! ## One block -/

/-- Takes the leaf block that begins at a place, and gives what follows it. The first argument bounds
the number of its lines. -/
def takeLeaf (bound : Nat) (o : Outline) (c : Cursor) : Outline × List Char :=
  let containers := o.containers
  let (indent, c') := c.skip 4
  if 4 ≤ indent then
    let (code, after) := indentedLines containers bound c'
    let afterBlank := (code.getLast?.map (·.2)).getD false
    ({ o.add (.code [] (dropBlankCode code)) with afterBlank }, after)
  else
    let s := c'.rest
    let html := match s with
      | '<' :: s => htmlBlock? false s
      | _ => none
    match html with
    | some stop =>
      let (html, after) := htmlLines containers stop bound { c' with owed := max c.owed indent }
      (o.add (.html html.flatten), after)
    | none =>
      let (line, rest) := takeLine s
      if isRule s then (o.add .rule, rest)
      else
        match headingLevel? s with
        | some level =>
          let text := headingText (line.drop level)
          let tail := headingTail (lineText line) text
          (o.add (.heading level ⟨containers, text, tail, false⟩), rest)
        | none =>
          match fence? s with
          | some (mark, size, info) =>
            let (info, rest) := takeLiteral info
            let (code, after) := fencedLines containers indent mark size bound rest
            let language := unescape (trimEnd (dropBlanks info))
            (o.add (.code language code.flatten), after)
          | none => takeParagraph bound o s
where
  /-- The text without the blanks and line ends at its end. -/
  trimEnd (s : List Char) : List Char := (s.reverse.dropWhile isAnyBlank).reverse

/-- Takes what the first line of a text begins, and gives what follows it. The first argument bounds
the number of lines. -/
def take (bound : Nat) (o : Outline) (s : List Char) : Outline × List Char :=
  let (missing, c) := Container.follow o.containers (Cursor.ofLine s)
  let (o, c, isEmptyItem) := openContainers bound (closeMany missing o) c
  if isEmptyItem then (o, skipBlankLine c.rest)
  else if isBlankLine c.rest then (o.blankLine, skipBlankLine c.rest)
  else o.finishList.takeLeaf bound c

/-- Takes a whole text. The first argument bounds the number of blocks and blank lines. -/
def takeAll : (bound : Nat) → Outline → List Char → Outline
  | 0, o, _ => o
  | bound + 1, o, s =>
    if s.isEmpty then closeMany o.spine.length o
    else
      let (o, rest) := o.take bound s
      takeAll bound o rest

end Outline

/-- The blocks of a text and its link definitions. -/
def readBlocks (s : List Char) : List Block × List LinkDefinition :=
  let o := Outline.empty.takeAll (s.length + 1) s
  (o.blocks, o.definitions)

end Treatise.Markdown
