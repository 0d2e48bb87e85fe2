import Treatise.Text.Search

/-!
# Bodies of abbreviations

A body is cut into literal text and slots for the parameters once, when the abbreviation is defined.
Filling the slots is then a simultaneous substitution: what is put into a slot is never looked at
again.

* `Body.compile` — the cut: at every place the longest parameter name that stands there is a slot;
* `Body.instantiate` — the body with values in its slots.
-/

namespace Treatise.Abbreviation

inductive Part where
  | literal (text : List Char)
  /-- The place of the parameter with this index. -/
  | slot (index : Nat)
  deriving DecidableEq, Repr

/-- A body, cut into pieces. -/
abbrev Body := List Part

namespace Body

/-- Whether `name` is not empty and stands at the start of the text. -/
def standsAt (s name : List Char) : Bool := !name.isEmpty && name.isPrefixOf s

/-- Of two candidates the one with the longer name, and of equally long ones the second. -/
def longer (s : List Char) (best : Option (Nat × Nat)) (p : List Char × Nat) :
    Option (Nat × Nat) :=
  if standsAt s p.1 then
    match best with
    | some (i, size) =>
      if size ≤ Text.byteLength p.1 then some (p.2, Text.byteLength p.1) else some (i, size)
    | none => some (p.2, Text.byteLength p.1)
  else best

/-- The index of the longest name among `names` that stands at the start of the text; of several
equally long ones the last. -/
def slotAt? (names : List (List Char)) (s : List Char) : Option Nat :=
  (names.zipIdx.foldl (longer s) none).map (·.1)

/-- A literal in front of a body, joined to a literal that the body begins with. -/
def consLiteral (c : Char) : Body → Body
  | .literal text :: parts => .literal (c :: text) :: parts
  | parts => .literal [c] :: parts

/-- Cuts a text at every occurrence of a name. The first argument counts the characters that belong
to the name just passed. -/
def cut (names : List (List Char)) : Nat → List Char → Body
  | _, [] => []
  | n + 1, _ :: s => cut names n s
  | 0, c :: s =>
    match slotAt? names (c :: s) with
    | some i => .slot i :: cut names ((names.getD i []).length - 1) s
    | none => consLiteral c (cut names 0 s)

/-- The body of an abbreviation with these parameter names. -/
def compile (body : List Char) (names : List (List Char)) : Body := cut names 0 body

def ofLiteral (text : List Char) : Body := [.literal text]

/-- The text of one piece: a slot without a value is empty. -/
def fill (values : List (List Char)) : Part → List Char
  | .literal text => text
  | .slot i => values.getD i []

/-- The body with values in its slots. -/
def instantiate (body : Body) (values : List (List Char)) : List Char :=
  body.flatMap (fill values)

end Body

end Treatise.Abbreviation
