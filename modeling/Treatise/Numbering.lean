import Treatise.Contents
import Treatise.Options
import Treatise.Section

/-!
# Numbering

One walk over the document numbers its headings and statements, collects the table of contents and
records what each label points to.

* The section number is a list of counters. A heading of level `l` counts at place `l - 1` and drops
  what is behind it; where the list is too short it is made longer by one.
* A statement's number is made of the first components of the section number and a counter, which a
  heading resets that changes one of these components.
* A label points to the innermost statement around it that took a number, or else to the section.
-/

namespace Treatise

/-- What a label points to. -/
structure Target where
  /-- The number that a reference shows. -/
  number : String
  /-- The `id` of the node that a reference links to. -/
  anchor : String
  deriving DecidableEq, Repr

/-- A section number as text. -/
def dotted (components : List Nat) : String := ".".intercalate (components.map Nat.repr)

/-- The `id` of a section. -/
def sectionAnchor (number : String) : String := "sec" ++ number

/-- The state of the walk. -/
structure Numbering where
  /-- The components of the section number. -/
  components : List Nat
  /-- The kinds of the statements that took a number since the last reset. -/
  counted : List Kind
  labels : Dict Target
  contents : Contents

namespace Numbering

def initial (o : NumberingOptions) : Numbering := ⟨List.replicate o.depthLimit 0, [], ∅, []⟩

/-- The first `depth` components of the section number as text. -/
def sectionPrefix (s : Numbering) (depth : Nat) : String := dotted (s.components.take depth)

def sectionNumber (s : Numbering) : String := dotted s.components

/-- The components of the section that a heading opens. -/
def nextComponents (components : List Nat) (level : Nat) : List Nat :=
  match components[level - 1]? with
  | some count => components.take (level - 1) ++ [count + 1]
  | none => components ++ [1]

/-- Enters the section of a heading. -/
def enterSection (o : NumberingOptions) (level : Nat) (s : Numbering) : Numbering :=
  { s with
    components := nextComponents s.components level
    counted := if level - 1 < o.depthLimit then [] else s.counted }

/-- How many statements have counted so far, with one of this kind. -/
def count (o : NumberingOptions) (kind : Kind) (s : Numbering) : Nat :=
  1 + (if o.byKind then s.counted.count kind else s.counted.length)

/-- The number of the next statement, if it takes one. -/
def statementNumber (o : NumberingOptions) (kind : Kind) (s : Numbering) : String :=
  let above := s.sectionPrefix o.depthLimit
  let count := Nat.repr (s.count o kind)
  if above.isEmpty then count else above ++ "." ++ count

/-- What a label points to inside these statements, the innermost first, of which some took no
number. -/
def labelTarget (enclosing : List (Option Target)) (s : Numbering) : Target :=
  match enclosing.findSome? id with
  | some target => target
  | none => ⟨s.sectionNumber, sectionAnchor s.sectionNumber⟩

/-- Records a label; one without a key cannot be referred to. -/
def recordLabel (enclosing : List (Option Target)) (n : Node) (s : Numbering) : Numbering :=
  match n.attr? "key" with
  | some key => { s with labels := s.labels.insert key (s.labelTarget enclosing) }
  | none => s

end Numbering

namespace Node

/-- A span that shows a section number and is the target of links to the section. -/
def markSection (number : String) (n : Node) : Node :=
  let n := (n.setText number).setAttr "id" (sectionAnchor number)
  { n with flags := { n.flags with anchor := true } }

/-- Changes the first node that satisfies `p`. -/
def modifyFirst (p : Node → Bool) (f : Node → Node) : List Node → List Node
  | [] => []
  | n :: ns => if p n then f n :: ns else n :: modifyFirst p f ns

/-- The heading with a section number: in the span that it has, or in a new one in front. -/
def setSectionNumber (number : String) (heading : Node) : Node :=
  if heading.children.any (·.hasRole .sectionNumber) then
    { heading with
      children :=
        modifyFirst (·.hasRole .sectionNumber) (markSection number) heading.children }
  else
    { heading with
      text := ""
      children :=
        { markSection number (Node.span .sectionNumber) with tail := heading.text } ::
          heading.children }

/-- The statement with a number, which makes it a target. -/
def setStatementNumber (number : String) (n : Node) : Node :=
  let n := n.setAttr "id" number
  { n with flags := { n.flags with anchor := true } }

def clearAnchor (n : Node) : Node := { n with flags := { n.flags with anchor := false } }

/-- The section with the description of the heading that it holds. -/
def refreshSection (n : Node) : Node :=
  match n.children.find? (·.headingLevel?.isSome) with
  | some heading => n.describeSection heading
  | none => n

/-- A label is somewhere among the nodes. -/
def holdLabel (ns : List Node) : Bool := (descendantsOf ns).any (·.tag == .label)

end Node

/-- The statement as the options have it: without a number, if it has no label and needs one. -/
def Statement.restrict (o : NumberingOptions) (labeled : Bool) (s : Statement) : Statement :=
  if o.onlyReferenced && !labeled then { s with numbered := false } else s

/-- The number that an empty place shows: that of the innermost statement around it. -/
def shownNumber (enclosing : List (Option Target)) : String :=
  ((enclosing.head?.bind id).map Target.number).getD ""

mutual

/-- Numbers a node and what is below it. `enclosing` has the statements around it, the innermost
first, with the number of each that took one. -/
def numberNode (o : NumberingOptions) (enclosing : List (Option Target)) :
    Node → Numbering → Node × Numbering
  | ⟨.heading level, attrs, flags, text, tail, children⟩, s =>
    let s := s.enterSection o level
    let number := s.sectionNumber
    -- the title is read before references in the heading are resolved
    let title := Node.headingTitle ⟨.heading level, attrs, flags, text, tail, children⟩
    let s := { s with contents := s.contents.insert number title }
    let (children, s) := numberNodes o enclosing children s
    (Node.setSectionNumber number ⟨.heading level, attrs, flags, text, tail, children⟩, s)
  | ⟨.block st, attrs, flags, text, tail, children⟩, s =>
    let st := st.restrict o (Node.holdLabel children)
    if st.numbered then
      -- the number is taken before the statements inside take theirs
      let number := s.statementNumber o st.kind
      let s := { s with counted := st.kind :: s.counted }
      let (children, s) := numberNodes o (some ⟨number, number⟩ :: enclosing) children s
      (Node.setStatementNumber number ⟨.block st, attrs, flags, text, tail, children⟩, s)
    else
      let (children, s) := numberNodes o (none :: enclosing) children s
      (Node.clearAnchor ⟨.block st, attrs, flags, text, tail, children⟩, s)
  | ⟨.span .blockNumber, attrs, flags, _, tail, children⟩, s =>
    (⟨.span .blockNumber, attrs, flags, shownNumber enclosing, tail, children⟩, s)
  | ⟨.label, attrs, flags, text, tail, children⟩, s =>
    let n : Node := ⟨.label, attrs, flags, text, tail, children⟩
    (n, s.recordLabel enclosing n)
  | ⟨.section, attrs, flags, text, tail, children⟩, s =>
    let (children, s) := numberNodes o enclosing children s
    -- by now the heading of the section has its number
    (Node.refreshSection ⟨.section, attrs, flags, text, tail, children⟩, s)
  | ⟨tag, attrs, flags, text, tail, children⟩, s =>
    let (children, s) := numberNodes o enclosing children s
    (⟨tag, attrs, flags, text, tail, children⟩, s)

def numberNodes (o : NumberingOptions) (enclosing : List (Option Target)) :
    List Node → Numbering → List Node × Numbering
  | [], s => ([], s)
  | n :: ns, s =>
    let (n, s) := numberNode o enclosing n s
    let (ns, s) := numberNodes o enclosing ns s
    (n :: ns, s)

end

/-- Numbers a document. The root itself is no part of what is numbered. -/
def numberDocument (o : NumberingOptions) (root : Node) : Node × Numbering :=
  let (children, s) := numberNodes o [] root.children (.initial o)
  ({ root with children := children }, s)

end Treatise
