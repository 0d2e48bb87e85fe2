import Treatise.Statement.Opening
import Treatise.Tree.Node

/-!
# The frame of a statement in the tree

A statement's node begins with its heading, and the node of a proof ends in a mark.

The heading holds, in this order: the label, an empty place for the word of the kind, an empty place
for the number (not for a proof), the subject of a proof, the name and the references.
-/

namespace Treatise

/-- The mark at the end of a proof: hollow, or solid when another proof encloses the proof. -/
def qedMark (proofDepth : Nat) : Node :=
  let nested := 0 < proofDepth
  { (Node.span .qed).setText (if nested then "■" else "□") with flags := { nested } }

/-- The part of a heading that says what the proof is a proof of. -/
def Subject.node : Subject → Node
  | reference key =>
    ((Node.span .proofSubject).setText "of ").push ((Node.ofTag .reference).setAttr "key" key)
  | text words => (Node.span .proofSubject).setText ("of " ++ words)

namespace Statement

/-- What was announced, as a statement that `proofDepth` proofs enclose. Only a proof keeps that
number, and only another kind keeps a name and references. -/
def ofOpening (o : Opening) (proofDepth : Nat) : Statement where
  kind := o.kind
  numbered := !o.kind.isProof && !o.starred
  name := if o.kind.isProof then none else o.name.map String.ofList
  references := if o.kind.isProof then none else o.references.map String.ofList
  label := o.label.map String.ofList
  subject := o.subject
  proofDepth := if o.kind.isProof then proofDepth else 0

/-- The parts of the heading. -/
def headingParts (s : Statement) : List Node :=
  (s.label.map fun key => (Node.ofTag .label).setAttr "key" key).toList ++
  [(Node.span .blockLabel).setAttr "type" s.kind.name] ++
  (if s.kind.isProof then [] else [Node.span .blockNumber]) ++
  (s.subject.map Subject.node).toList ++
  (s.name.map fun name => (Node.span .blockName).setText name).toList ++
  (s.references.map fun refs => (Node.span .blockReferences).setText refs).toList

def heading (s : Statement) : Node :=
  { (Node.span .blockHeading).setAttr "type" s.kind.name with children := s.headingParts }

/-- The node of a statement that has no content yet. -/
def opened (s : Statement) : Node := (Node.ofTag (.block s)).push s.heading

/-- The node of a statement whose content is complete. -/
def closed (s : Statement) (n : Node) : Node :=
  if s.kind.isProof then n.push (qedMark s.proofDepth) else n

end Statement

end Treatise
