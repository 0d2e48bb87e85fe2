import Treatise.Markdown.Block
import Treatise.Markdown.Running

/-!
# Events

A Markdown document as a sequence of events: elements are entered and left, and between there is
text. The text of code blocks and of raw HTML stands as it is; in all other text, brace groups may
be marks, so a run of text is to be looked at as a whole. The end of an element says of what kind the
element is.

* `blocksEvents` — the events of blocks;
* `readEvents` — the events of a text.
-/

namespace Treatise.Markdown

/-- What is entered and left. -/
inductive Element where
  | paragraph
  | heading (level : Nat)
  | quote
  | codeBlock (language : List Char)
  | htmlBlock
  | list (number : Option Nat)
  | item
  | table
  | tableHead
  | tableRow
  | tableCell
  | emphasis
  | strong
  | strikethrough
  | link (target : LinkTarget)
  | image (target : LinkTarget)
  deriving DecidableEq, Repr

/-- What the end of an element says about it. -/
inductive Ending where
  | paragraph
  | heading (level : Nat)
  | quote
  | codeBlock
  | htmlBlock
  | list (numbered : Bool)
  | item
  | table
  | tableHead
  | tableRow
  | tableCell
  | emphasis
  | strong
  | strikethrough
  | link
  | image
  deriving DecidableEq, Repr

def Element.ending : Element → Ending
  | paragraph => .paragraph
  | heading level => .heading level
  | quote => .quote
  | codeBlock _ => .codeBlock
  | htmlBlock => .htmlBlock
  | list number => .list number.isSome
  | item => .item
  | table => .table
  | tableHead => .tableHead
  | tableRow => .tableRow
  | tableCell => .tableCell
  | emphasis => .emphasis
  | strong => .strong
  | strikethrough => .strikethrough
  | link _ => .link
  | image _ => .image

inductive Event where
  | enter (e : Element)
  | leave (e : Ending)
  | text (s : List Char)
  | softBreak
  | hardBreak
  | code (s : List Char)
  | math (display : Bool) (s : List Char)
  /-- A piece of a block of raw HTML. -/
  | html (s : List Char)
  /-- Raw HTML in running text. -/
  | inlineHtml (s : List Char)
  | rule
  deriving DecidableEq, Repr

/-- The events of an element with the given events inside. -/
def Element.around (e : Element) (inside : List Event) : List Event :=
  .enter e :: inside ++ [.leave e.ending]

mutual

def inlineEvents : Inline → List Event
  | .text s => [.text s]
  | .softBreak => [.softBreak]
  | .hardBreak => [.hardBreak]
  | .code s => [.code s]
  | .math display s => [.math display s]
  | .html s => [.inlineHtml s]
  | .emphasis content => Element.emphasis.around (inlinesEvents content)
  | .strong content => Element.strong.around (inlinesEvents content)
  | .strikethrough content => Element.strikethrough.around (inlinesEvents content)
  | .link target content => (Element.link target).around (inlinesEvents content)
  | .image target content => (Element.image target).around (inlinesEvents content)

def inlinesEvents : List Inline → List Event
  | [] => []
  | i :: is => inlineEvents i ++ inlinesEvents is

end

def passageEvents (definitions : List LinkDefinition) (p : Passage) : List Event :=
  inlinesEvents (readInlines definitions p)

def cellsEvents (definitions : List LinkDefinition) (cells : List Passage) : List Event :=
  cells.flatMap fun cell => Element.tableCell.around (passageEvents definitions cell)

mutual

/-- The events of a block. In a tight item, a paragraph is plain text. -/
def blockEvents (definitions : List LinkDefinition) (tight : Bool) : Block → List Event
  | .paragraph p =>
    let inside := passageEvents definitions p
    if tight then inside else Element.paragraph.around inside
  | .heading level p => (Element.heading level).around (passageEvents definitions p)
  | .quote content => Element.quote.around (blocksEvents definitions false content)
  | .code language s => (Element.codeBlock language).around [.text s]
  | .html s => Element.htmlBlock.around [.html s]
  | .list tight number items =>
    (Element.list number).around (itemsEvents definitions tight items)
  | .rule => [.rule]
  | .table head rows =>
    Element.table.around
      (Element.tableHead.around (cellsEvents definitions head) ++
        rows.flatMap fun cells => Element.tableRow.around (cellsEvents definitions cells))

def blocksEvents (definitions : List LinkDefinition) (tight : Bool) : List Block → List Event
  | [] => []
  | b :: bs => blockEvents definitions tight b ++ blocksEvents definitions tight bs

def itemsEvents (definitions : List LinkDefinition) (tight : Bool) :
    List (List Block) → List Event
  | [] => []
  | item :: items =>
    Element.item.around (blocksEvents definitions tight item) ++
      itemsEvents definitions tight items

end

def readEvents (s : List Char) : List Event :=
  let (blocks, definitions) := readBlocks s
  blocksEvents definitions false blocks

end Treatise.Markdown
