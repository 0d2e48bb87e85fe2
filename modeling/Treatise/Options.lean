import Treatise.Dict

/-!
# Options of a conversion
-/

namespace Treatise

inductive Format where
  | html
  | latex
  deriving DecidableEq, Repr

namespace Format

def name : Format → String
  | html => "html"
  | latex => "latex"

/-- The extension of a file in the format. -/
def fileExtension : Format → String
  | html => "html"
  | latex => "tex"

/-- The format of a name; the file extension of LaTeX is a name of it, too. -/
def ofName? (s : String) : Option Format :=
  if s = "html" then some html
  else if s = "latex" ∨ s = "tex" then some latex
  else none

end Format

/-- Where the word for a kind of statement goes: before or after its number. -/
inductive HeadingPosition where
  | before
  | after
  deriving DecidableEq, Repr

def HeadingPosition.name : HeadingPosition → String
  | before => "before"
  | after => "after"

structure NumberingOptions where
  /-- How many components of the section number are part of a statement's number. -/
  depthLimit : Nat := 1
  /-- Each kind of statement is counted on its own. -/
  byKind : Bool := false
  /-- Only statements with a label take a number. -/
  onlyReferenced : Bool := false
  deriving DecidableEq, Repr

structure Options where
  format : Format := .html
  /-- Headings open sections. -/
  sections : Bool := true
  numbering : NumberingOptions := {}
  headingPosition : HeadingPosition := .after
  /-- The options of the output format, as text. -/
  render : Dict String := ∅
  deriving DecidableEq

end Treatise
