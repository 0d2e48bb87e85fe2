import Treatise.Statement.Kind
import Treatise.Statement.Subject

/-!
# Statements

The description that a statement carries in the document tree.
-/

namespace Treatise

/-- A theorem, definition, proof or the like, as it was announced. -/
structure Statement where
  kind : Kind
  /-- Whether it takes a number: not if starred, not if a proof. -/
  numbered : Bool
  /-- The name in parentheses. -/
  name : Option String := none
  /-- The authors in brackets. -/
  references : Option String := none
  /-- The label in front. -/
  label : Option String := none
  /-- What a proof is a proof of. -/
  subject : Option Subject := none
  /-- How many proofs enclose a proof. -/
  proofDepth : Nat := 0
  deriving DecidableEq, Repr

/-- A statement of which nothing but the kind is known: proofs take no number. -/
def Statement.ofKind (kind : Kind) : Statement := { kind, numbered := !kind.isProof }

end Treatise
