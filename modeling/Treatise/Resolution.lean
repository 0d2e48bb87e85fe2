import Treatise.Issue
import Treatise.Numbering

/-!
# References

Once the document is numbered every label is known, so a reference may stand before its label. A
second walk puts into every reference the number that its label points to.

* `resolveReference` — one reference;
* `resolve` — numbers a document and resolves its references.
-/

namespace Treatise

/-- What a reference to an unknown label shows. -/
def unresolvedMark : String := "??"

/-- The key of a reference; one without a key refers to the empty key. -/
def Node.key (n : Node) : String := (n.attr? "key").getD ""

/-- What a reference shows, given what its label points to. -/
def numberSpan : Option Target → Node
  | some target =>
    ((Node.span .referenceNumber).setAttr "href" ("#" ++ target.anchor)).setText target.number
  | none => (Node.span .referenceNumber).setText unresolvedMark

/-- The reference with its number, in place of what it showed before, and a warning if its label is
unknown. -/
def resolveReference (labels : Dict Target) (fileId : Nat) (n : Node) : Node × List Issue :=
  let target := labels.get? n.key
  ({ n with
      children := n.children.filter (!·.hasRole .referenceNumber) ++ [numberSpan target] },
    if target.isSome then [] else [⟨.unresolvedReference n.key, none, fileId, []⟩])

mutual

/-- Resolves the references at and below a node; what is inside a reference is not looked at. -/
def resolveNode (labels : Dict Target) (fileId : Nat) : Node → Node × List Issue
  | ⟨.reference, attrs, flags, text, tail, children⟩ =>
    resolveReference labels fileId ⟨.reference, attrs, flags, text, tail, children⟩
  | ⟨tag, attrs, flags, text, tail, children⟩ =>
    let (children, issues) := resolveNodes labels fileId children
    (⟨tag, attrs, flags, text, tail, children⟩, issues)

def resolveNodes (labels : Dict Target) (fileId : Nat) : List Node → List Node × List Issue
  | [] => ([], [])
  | n :: ns =>
    let (n, issues) := resolveNode labels fileId n
    let (ns, more) := resolveNodes labels fileId ns
    (n :: ns, issues ++ more)

end

/-- A document with its numbers and references in place. -/
structure Resolution where
  root : Node
  labels : Dict Target
  contents : Contents
  /-- A warning for every reference to an unknown label, in document order. -/
  issues : List Issue

/-- Numbers a document and resolves its references. -/
def resolve (o : NumberingOptions) (fileId : Nat) (root : Node) : Resolution :=
  let (root, s) := numberDocument o root
  let (children, issues) := resolveNodes s.labels fileId root.children
  ⟨{ root with children := children }, s.labels, s.contents, issues⟩

end Treatise
