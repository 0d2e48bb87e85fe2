import Treatise.Mark
import Treatise.Markdown.Event

/-!
# Growing the tree from events

The events of a Markdown text are put at the end of a node. Text waits until something else comes, so
that a mark is recognised when its text came in several events; then the marks in it become nodes.

* `Node.grow` — puts events at the end of a node;
* `readInto` — puts a Markdown text at the end of a node.
-/

namespace Treatise

open Markdown (Element Ending Event)

/-- The node of an element without its content. -/
def Node.ofElement : Element → Node
  | .paragraph => Node.ofTag .paragraph
  | .heading level => Node.ofTag (.heading level)
  | .quote => Node.ofTag .blockQuote
  | .codeBlock language =>
    Node.ofTag (.codeBlock (if language.isEmpty then none else some (String.ofList language)))
  | .htmlBlock => Node.ofTag .html
  | .list number => Node.ofTag (.list number.isSome (number.getD 1))
  | .item => Node.ofTag .item
  | .table => Node.ofTag .table
  | .tableHead => Node.ofTag .tableHead
  | .tableRow => Node.ofTag .tableRow
  | .tableCell => Node.ofTag .tableCell
  | .emphasis => Node.ofTag .emphasis
  | .strong => Node.ofTag .strong
  | .strikethrough => Node.ofTag .strikethrough
  | .link target => withTitle ((Node.ofTag .link).setAttr "href" (String.ofList target.destination))
      target.title
  | .image target => withTitle ((Node.ofTag .image).setAttr "src" (String.ofList target.destination))
      target.title
where
  withTitle (n : Node) (title : List Char) : Node :=
    if title.isEmpty then n else n.setAttr "title" (String.ofList title)

/-- Whether the text of an element is taken as it stands. -/
def isVerbatim (n : Node) : Bool :=
  match n.tag with
  | .codeBlock _ => true
  | .html => true
  | _ => false

/-- The end is that of an element with this tag. Only the kind of the element counts, not the level of
a heading and not whether a list is numbered. -/
def Markdown.Ending.closes : Ending → Tag → Bool
  | .paragraph, .paragraph => true
  | .heading _, .heading _ => true
  | .quote, .blockQuote => true
  | .codeBlock, .codeBlock _ => true
  | .htmlBlock, .html => true
  | .list _, .list _ _ => true
  | .item, .item => true
  | .table, .table => true
  | .tableHead, .tableHead => true
  | .tableRow, .tableRow => true
  | .tableCell, .tableCell => true
  | .emphasis, .emphasis => true
  | .strong, .strong => true
  | .strikethrough, .strikethrough => true
  | .link, .link => true
  | .image, .image => true
  | _, _ => false

/-- Puts a piece of text at the end of a node. -/
def Node.addSegment (n : Node) : Segment → Node
  | .text s => n.appendText (String.ofList s)
  | .mark m _ => n.push m.node

/-- Puts text at the end of a node, its marks as nodes. -/
def Node.addText (n : Node) (s : List Char) : Node := (Segment.scan s).foldl Node.addSegment n

/-- A tree that grows at its end. -/
structure Growth where
  base : Node
  /-- The nodes that are not complete, the innermost first. -/
  nodes : List Node
  /-- The text that waits. -/
  waiting : String

namespace Growth

def start (base : Node) : Growth := ⟨base, [], ""⟩

/-- Changes the innermost node. -/
def mapTop (g : Growth) (f : Node → Node) : Growth :=
  match g.nodes with
  | [] => { g with base := f g.base }
  | n :: nodes => { g with nodes := f n :: nodes }

/-- Puts the text that waits into the innermost node. -/
def flush (g : Growth) : Growth :=
  { g.mapTop (·.addText g.waiting.toList) with waiting := "" }

/-- Puts a complete node at the end. -/
def add (g : Growth) (n : Node) : Growth := g.flush.mapTop (·.push n)

/-- Adds text, which waits. -/
def wait (g : Growth) (s : List Char) : Growth :=
  { g with waiting := g.waiting ++ String.ofList s }

/-- Adds text to the innermost node as it stands. -/
def addVerbatim (g : Growth) (s : List Char) : Growth :=
  g.mapTop fun n => n.setText (n.text ++ String.ofList s)

/-- Begins an element. -/
def enter (g : Growth) (e : Element) : Growth :=
  { g.flush with nodes := Node.ofElement e :: g.flush.nodes }

/-- Puts the innermost node, which is complete, into the one around it. -/
def close (g : Growth) : Growth :=
  let g := g.flush
  match g.nodes with
  | [] => g
  | n :: nodes => { g with nodes }.mapTop (·.push n)

/-- Ends the innermost element, if the end is one of its kind; any other end is passed over. -/
def leave (g : Growth) (e : Ending) : Growth :=
  if g.nodes.head?.any (e.closes ·.tag) then g.close else g

/-- The innermost node takes text as it stands. -/
def inVerbatim (g : Growth) : Bool := g.nodes.head?.any isVerbatim

/-- An event in a verbatim element: only text and raw HTML count, up to the end. -/
def stepVerbatim (g : Growth) : Event → Growth
  | .leave e => g.leave e
  | .text s | .html s => g.addVerbatim s
  | _ => g

/-- An event in any other element. -/
def stepContent (g : Growth) : Event → Growth
  | .enter e => g.enter e
  | .leave e => g.leave e
  | .text s => g.wait s
  | .softBreak => g.wait ['\n']
  | .hardBreak => g.add (Node.ofTag .hardBreak)
  | .code s => g.add ((Node.ofTag .code).setText (String.ofList s))
  | .math display s => g.add ((Node.ofTag (.math display)).setText (String.ofList s))
  | .html s | .inlineHtml s => g.add ((Node.ofTag .html).setText (String.ofList s))
  | .rule => g.add (Node.ofTag .rule)

def step (g : Growth) (e : Event) : Growth :=
  if g.inVerbatim then g.stepVerbatim e else g.stepContent e

/-- The tree when there are no more events: nodes that are not complete are put in place. -/
def closeAll (base : Node) : List Node → Node
  | [] => base
  | [n] => base.push n
  | n :: m :: nodes => closeAll base (m.push n :: nodes)
termination_by nodes => nodes.length

def finish (g : Growth) : Node :=
  let g := g.flush
  closeAll g.base g.nodes

end Growth

/-- Puts events at the end of a node. -/
def Node.grow (base : Node) (events : List Event) : Node :=
  (events.foldl Growth.step (Growth.start base)).finish

/-- Puts a Markdown text at the end of a node. -/
def readInto (s : List Char) (base : Node) : Node := base.grow (Markdown.readEvents s)

end Treatise
