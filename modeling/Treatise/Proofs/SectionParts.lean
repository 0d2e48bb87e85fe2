import Mathlib.Data.List.TakeDrop
import Treatise.Proofs.Tree.Fresh
import Treatise.Section

/-!
# Sections from the end

Putting a document into sections goes through its children from the first to the last, with the
sections that are open. The same comes of going through them from the last to the first: a heading
takes what is behind it, up to the first section that is not deeper.

* **`SectionPart.cons`** — puts one more child in front of parts.
* `OpenParts.settle` — what open sections become, given the parts that are still to come: each takes
  those that fit under it, and then goes into what is around it.
* **`buildSections_eq`** — both ways make the same document.
-/

namespace Treatise

/-- A child of a document or of a section: a section, which has the level of its heading, or a node
that is none. -/
structure SectionPart where
  level : Option Nat
  node : Node

namespace SectionPart

/-- The part may stand inside a section of this level. -/
def fitsUnder (level : Nat) (p : SectionPart) : Bool :=
  match p.level with
  | some l => level < l
  | none => true

/-- The section of a heading with its content. -/
def ofHeading (level : Nat) (heading : Node) (content : List SectionPart) : SectionPart where
  level := some level
  node :=
    { (Node.ofTag .section).describeSection heading with
      children := heading :: content.map (·.node) }

/-- Puts a node in front of parts. A heading takes the parts up to the first that is not deeper. -/
def cons (n : Node) (parts : List SectionPart) : List SectionPart :=
  match n.headingLevel? with
  | none => ⟨none, n⟩ :: parts
  | some level =>
    let (content, rest) := parts.span (fitsUnder level)
    ofHeading level n content :: rest

end SectionPart

/-- The node with more children at the end. -/
def Node.pushAll (n : Node) (ns : List Node) : Node := { n with children := n.children ++ ns }

theorem Node.pushAll_nil (n : Node) : n.pushAll [] = n := by
  rw [pushAll, List.append_nil, eta]

theorem Node.pushAll_cons (n c : Node) (ns : List Node) :
    n.pushAll (c :: ns) = (n.push c).pushAll ns := by
  rw [pushAll, pushAll, push, List.append_assoc]
  rfl

/-- The section of a heading, which was opened and then took its content. -/
theorem SectionPart.node_ofHeading (level : Nat) (heading : Node) (content : List SectionPart) :
    (ofHeading level heading content).node =
      (((Node.ofTag .section).describeSection heading).push heading).pushAll
        (content.map (·.node)) := by
  rw [Node.pushAll, Node.push, Node.children_describeSection]
  rfl

namespace OpenParts

open SectionPart (fitsUnder)

/-- The document when the parts that are still to come are put in place and all sections are closed. -/
def settle (top : OpenPart) (parts : List SectionPart) : List OpenPart → Node
  | [] => top.node.pushAll (parts.map (·.node))
  | p :: around =>
    let (content, rest) := parts.span (fitsUnder top.level)
    settle { p with node := p.node.push (top.node.pushAll (content.map (·.node))) } rest around

variable {top : OpenPart} {around : List OpenPart} {parts : List SectionPart} {part : SectionPart}

/-- The innermost section takes the parts that fit under it. -/
theorem settle_cons (p : OpenPart) :
    settle top parts (p :: around) =
      settle { p with node := p.node.push (top.node.pushAll
        ((parts.takeWhile (fitsUnder top.level)).map (·.node))) }
        (parts.dropWhile (fitsUnder top.level)) around := by
  rw [settle, List.span_eq_takeWhile_dropWhile]

/-- A part that fits under the innermost section is put into it. -/
theorem settle_cons_of_fits (h : around = [] ∨ part.fitsUnder top.level = true) :
    settle top (part :: parts) around =
      settle { top with node := top.node.push part.node } parts around := by
  cases around with
  | nil => rw [settle, settle, List.map_cons, Node.pushAll_cons]
  | cons p around =>
    have hfits : part.fitsUnder top.level = true := h.resolve_left (List.cons_ne_nil p around)
    rw [settle_cons, settle_cons, List.takeWhile_cons_of_pos hfits, List.dropWhile_cons_of_pos hfits,
      List.map_cons, Node.pushAll_cons]

/-- A part that does not fit closes the innermost section. -/
theorem settle_cons_of_not_fits {p : OpenPart} (h : part.fitsUnder top.level = false) :
    settle top (part :: parts) (p :: around) =
      settle { p with node := p.node.push top.node } (part :: parts) around := by
  have hstop : ¬part.fitsUnder top.level = true := by rw [h]; exact Bool.false_ne_true
  rw [settle_cons, List.takeWhile_cons_of_neg hstop, List.dropWhile_cons_of_neg hstop, List.map_nil,
    Node.pushAll_nil]

/-- A section that is complete is put behind those that its heading ends. -/
theorem settle_close {level : Nat} (hlevel : part.level = some level) :
    settle top (part :: parts) around =
      settle { (close level top around).top with
        node := (close level top around).top.node.push part.node } parts
        (close level top around).around := by
  induction around generalizing top with
  | nil => exact settle_cons_of_fits (.inl rfl)
  | cons p around ih =>
    rw [close]
    split
    · next hle =>
      have hstop : part.fitsUnder top.level = false := by
        rw [fitsUnder, hlevel]
        exact decide_eq_false (Nat.not_lt.2 hle)
      rw [settle_cons_of_not_fits hstop, ih]
    · next hle =>
      have hfits : part.fitsUnder top.level = true := by
        rw [fitsUnder, hlevel]
        exact decide_eq_true (Nat.lt_of_not_le hle)
      exact settle_cons_of_fits (.inr hfits)

/-- What a child does to the open parts, seen from behind: it stands in front of the parts that are
still to come. -/
theorem settle_step (s : OpenParts) (n : Node) (parts : List SectionPart) :
    settle (s.step n).top parts (s.step n).around =
      settle s.top (SectionPart.cons n parts) s.around := by
  cases hlevel : n.headingLevel? with
  | none =>
    rw [step, SectionPart.cons, hlevel]
    have hfits : SectionPart.fitsUnder s.top.level ⟨none, n⟩ = true := rfl
    exact (settle_cons_of_fits (.inr hfits)).symm
  | some level =>
    have hsection (content : List SectionPart) :
        (SectionPart.ofHeading level n content).level = some level := rfl
    rw [step, SectionPart.cons, hlevel]
    dsimp only
    rw [List.span_eq_takeWhile_dropWhile, settle_close (hsection _), SectionPart.node_ofHeading]
    exact settle_cons _

/-- When no parts are to come, all sections are closed. -/
theorem settle_nil (top : OpenPart) (around : List OpenPart) :
    settle top [] around = (close 0 top around).top.node := by
  induction around generalizing top with
  | nil => exact Node.pushAll_nil top.node
  | cons p around ih =>
    rw [close, if_pos (Nat.zero_le _), ← ih, settle_cons]
    exact congrArg (fun n => settle { p with node := p.node.push n } [] around)
      (Node.pushAll_nil top.node)

/-- Both ways through the children. Induction on these, from the front: the open parts take a child
that stands in front of the parts of the others. -/
theorem finish_foldl_step (ns : List Node) (s : OpenParts) :
    (ns.foldl step s).finish = settle s.top (ns.foldr SectionPart.cons []) s.around := by
  induction ns generalizing s with
  | nil => exact (settle_nil s.top s.around).symm
  | cons n ns ih => rw [List.foldl_cons, List.foldr_cons, ih, settle_step]

end OpenParts

/-- The document with its children put into sections, from the last to the first. -/
theorem buildSections_eq (root : Node) :
    buildSections root =
      { root with children := (root.children.foldr SectionPart.cons []).map (·.node) } := by
  rw [buildSections, OpenParts.finish_foldl_step]
  rfl

/-- Only the children of the document change. -/
theorem buildSections_with_children (root : Node) (ns : List Node) :
    { buildSections root with children := ns } = { root with children := ns } := by
  rw [buildSections_eq]

theorem tag_buildSections (root : Node) : (buildSections root).tag = root.tag := by
  rw [buildSections_eq]

theorem children_buildSections (root : Node) :
    (buildSections root).children = (root.children.foldr SectionPart.cons []).map (·.node) := by
  rw [buildSections_eq]

end Treatise
