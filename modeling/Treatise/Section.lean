import Treatise.Text.Blank
import Treatise.Tree.Node

/-!
# Sections

A section is a heading and everything up to the next heading that is at most as deep. Only the
children of the document are looked at: a heading inside a statement or a list opens no section.

* `Node.headingTitle` — the words of a heading without its number;
* `Node.describeSection` — what a section says about its heading;
* `buildSections` — the document with its children put into sections.
-/

namespace Treatise

namespace Node

/-- The number in front of a heading. -/
def headingNumber? (heading : Node) : Option String :=
  (heading.children.find? (·.hasRole .sectionNumber)).map (·.text)

/-- The words of the children of a heading, without those of a number. -/
def titleWords : List Node → String
  | [] => ""
  | n :: ns => (if n.hasRole .sectionNumber then "" else n.textContent) ++ n.tail ++ titleWords ns

/-- The words of a heading without its number. -/
def headingTitle (heading : Node) : String :=
  Text.trimString (heading.text ++ titleWords heading.children)

/-- The section with the level, the number and the title of its heading. Without a level or a number
the section keeps what it had. -/
def describeSection (n heading : Node) : Node :=
  let n :=
    match heading.headingLevel? with
    | some level => n.setAttr "level" (Nat.repr level)
    | none => n
  let n :=
    match heading.headingNumber? with
    | some number => n.setAttr "number" number
    | none => n
  n.setAttr "title" heading.headingTitle

end Node

/-- An open part of a document: the document itself, at level 0, or a section that may still take
nodes. -/
structure OpenPart where
  level : Nat
  node : Node

/-- The innermost open part, and the parts around it from the inside to the document. -/
structure OpenParts where
  top : OpenPart
  around : List OpenPart

namespace OpenParts

/-- Puts a node at the end of the innermost part. -/
def push (s : OpenParts) (n : Node) : OpenParts :=
  { s with top := { s.top with node := s.top.node.push n } }

/-- Closes the sections that are at least as deep as a level: each is put into the part around it. The
document stays open. -/
def close (level : Nat) (top : OpenPart) : List OpenPart → OpenParts
  | [] => ⟨top, []⟩
  | p :: around =>
    if level ≤ top.level then close level { p with node := p.node.push top.node } around
    else ⟨top, p :: around⟩

/-- Opens the section of a heading. -/
def openSection (s : OpenParts) (level : Nat) (heading : Node) : OpenParts :=
  ⟨⟨level, ((Node.ofTag .section).describeSection heading).push heading⟩, s.top :: s.around⟩

/-- Puts the next child of the document where it belongs. A heading ends the sections that are at
least as deep, and opens one. -/
def step (s : OpenParts) (n : Node) : OpenParts :=
  match n.headingLevel? with
  | none => s.push n
  | some level => (close level s.top s.around).openSection level n

/-- The document when all its sections are closed. -/
def finish (s : OpenParts) : Node := (close 0 s.top s.around).top.node

end OpenParts

/-- The document with its children put into sections. -/
def buildSections (root : Node) : Node :=
  (root.children.foldl OpenParts.step ⟨⟨0, { root with children := [] }⟩, []⟩).finish

end Treatise
