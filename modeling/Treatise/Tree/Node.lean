import Treatise.Dict
import Treatise.Statement.Basic

/-!
# The document tree

A document is a tree of nodes. A node's `text` is what its content says before the first child, and
a node's `tail` is what its parent says between this node and the next one. So the content of a node
reads: its text, then every child followed by the child's tail.
-/

namespace Treatise

/-- What a generated inline element is for. -/
inductive Role where
  /-- The inline heading of a statement. -/
  | blockHeading
  /-- The empty place of the kind's name, ahead of the number. -/
  | blockLabel
  /-- The place of the statement's number. -/
  | blockNumber
  | blockName
  | blockReferences
  /-- The words after the word for a proof. -/
  | proofSubject
  /-- The mark at the end of a proof. -/
  | qed
  /-- The number in front of a heading. -/
  | sectionNumber
  /-- The number that a reference resolves to. -/
  | referenceNumber
  /-- The title in an entry of the table of contents. -/
  | tocTitle
  deriving DecidableEq, Repr

namespace Role

def all : List Role :=
  [blockHeading, blockLabel, blockNumber, blockName, blockReferences, proofSubject, qed,
    sectionNumber, referenceNumber, tocTitle]

def className : Role → String
  | blockHeading => "block_heading"
  | blockLabel => "block_label"
  | blockNumber => "block_number"
  | blockName => "block_name"
  | blockReferences => "block_references"
  | proofSubject => "proof_subject"
  | qed => "qed"
  | sectionNumber => "section_number"
  | referenceNumber => "reference_number"
  | tocTitle => "toc_title"

def ofClassName? (s : String) : Option Role := all.find? (·.className == s)

theorem mem_all (r : Role) : r ∈ all := by cases r <;> decide

theorem ofClassName?_eq_some_iff {s : String} {r : Role} :
    ofClassName? s = some r ↔ s = r.className := by
  constructor
  · intro h
    have h : (r.className == s) = true := List.find?_some (p := fun r : Role => r.className == s) h
    exact (beq_iff_eq.1 h).symm
  · rintro rfl
    cases r <;> decide

end Role

/-- The kind of a node. -/
inductive Tag where
  /-- The whole document. -/
  | root
  /-- A heading and what stands under it. -/
  | section
  /-- A table of contents. -/
  | toc
  | heading (level : Nat)
  | paragraph
  | blockQuote
  | codeBlock (language : Option String)
  | list (ordered : Bool) (start : Nat)
  | item
  | table
  | tableHead
  | tableRow
  | tableCell
  | rule
  /-- Raw markup, passed through. -/
  | html
  /-- A theorem, definition, proof or the like. -/
  | block (statement : Statement)
  /-- A generated inline element. -/
  | span (role : Role)
  | emphasis
  | strong
  | strikethrough
  | code
  | link
  | image
  | math (display : Bool)
  | hardBreak
  /-- A place that references can point to. -/
  | label
  /-- A mention of a label. -/
  | reference
  /-- A mention of a bibliography entry. -/
  | citation
  /-- A bibliography entry. -/
  | bibEntry
  deriving DecidableEq, Repr

/-- How a node is presented beyond its kind. -/
structure Flags where
  /-- Something may link to the node, which carries an `id`. -/
  anchor : Bool := false
  /-- The mark ends a proof inside another proof. -/
  nested : Bool := false
  deriving DecidableEq, Repr

abbrev Attributes := Dict String

structure Node where
  tag : Tag
  attrs : Attributes
  flags : Flags
  text : String
  tail : String
  children : List Node

namespace Node

/-- A node with nothing but a tag. -/
def ofTag (tag : Tag) : Node := ⟨tag, ∅, {}, "", "", []⟩

instance : Inhabited Node := ⟨ofTag .root⟩

/-- An empty inline element of a role. -/
def span (role : Role) : Node := ofTag (.span role)

/-- The node with an attribute, in place of what that attribute was. -/
def setAttr (n : Node) (key value : String) : Node :=
  { n with attrs := n.attrs.insert key value }

def setText (n : Node) (text : String) : Node := { n with text := text }

/-- The node with one more child at the end. -/
def push (n : Node) (child : Node) : Node := { n with children := n.children ++ [child] }

def attr? (n : Node) (key : String) : Option String := n.attrs.get? key

/-- The nodes with words added to the tail of the last one. -/
def extendLastTail (s : String) : List Node → List Node
  | [] => []
  | [n] => [{ n with tail := n.tail ++ s }]
  | n :: m :: ns => n :: extendLastTail s (m :: ns)

/-- The node with words added to the end of its content: to the tail of the last child, or to the
text when there is no child. -/
def appendText (n : Node) (s : String) : Node :=
  match n.children with
  | [] => { n with text := n.text ++ s }
  | _ :: _ => { n with children := extendLastTail s n.children }

def headingLevel? (n : Node) : Option Nat :=
  match n.tag with
  | .heading level => some level
  | _ => none

def role? (n : Node) : Option Role :=
  match n.tag with
  | .span role => some role
  | _ => none

def statement? (n : Node) : Option Statement :=
  match n.tag with
  | .block statement => some statement
  | _ => none

/-- Whether the node is an inline element of the role. -/
def hasRole (n : Node) (role : Role) : Bool := n.tag == .span role

/-- The node with its statement marked as numbered or not; other nodes stay as they are. -/
def setNumbered (n : Node) (numbered : Bool) : Node :=
  match n.tag with
  | .block statement => { n with tag := .block { statement with numbered := numbered } }
  | _ => n

/-! ## Reading the whole tree -/

mutual

/-- All nodes below a node, each before the nodes below it. -/
def descendants : Node → List Node
  | ⟨_, _, _, _, _, children⟩ => descendantsOf children

/-- The nodes themselves and all nodes below them, in document order. -/
def descendantsOf : List Node → List Node
  | [] => []
  | n :: ns => n :: (n.descendants ++ descendantsOf ns)

end

/-- The first node below that satisfies `p`, in document order. -/
def find? (n : Node) (p : Node → Bool) : Option Node := n.descendants.find? p

/-- The nodes below that satisfy `p`, in document order. -/
def findAll (n : Node) (p : Node → Bool) : List Node := n.descendants.filter p

/-- The statements below, in document order. -/
def statements (n : Node) : List Statement := n.descendants.filterMap (·.statement?)

mutual

/-- The words of a node's content, without its own tail. -/
def textContent : Node → String
  | ⟨_, _, _, text, _, children⟩ => text ++ textContentOf children

/-- The words of nodes that follow each other, with their tails. -/
def textContentOf : List Node → String
  | [] => ""
  | n :: ns => n.textContent ++ n.tail ++ textContentOf ns

end

end Node

end Treatise
