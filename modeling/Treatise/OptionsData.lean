import Treatise.Data
import Treatise.Options

/-!
# Options from data

Fields that are missing have their default, and fields with unknown names mean nothing. A field with
a value of the wrong form spoils the whole.
-/

namespace Treatise

/-- The words for the formats. The file extension of LaTeX is none of them. -/
def Format.ofData? (l : Leniency) : Data → Option Format :=
  Data.word? l [("html", .html), ("latex", .latex)]

def HeadingPosition.ofData? (l : Leniency) : Data → Option HeadingPosition :=
  Data.word? l [("before", .before), ("after", .after)]

def NumberingOptions.fieldNames : List String :=
  ["depth_limit", "number_by_type", "number_referenced_only"]

def NumberingOptions.ofData? (l : Leniency) (d : Data) : Option NumberingOptions := do
  let fields ← d.fields? l fieldNames
  let depthLimit ← Data.field? fields "depth_limit" Data.count? 1
  let byKind ← Data.field? fields "number_by_type" Data.boolean? false
  let onlyReferenced ← Data.field? fields "number_referenced_only" Data.boolean? false
  pure { depthLimit, byKind, onlyReferenced }

def Options.fieldNames : List String :=
  ["format", "sections", "numbering", "heading_position", "render"]

/-- Options from the fields of a record. -/
def Options.ofFields? (l : Leniency) (fields : List (String × Data)) : Option Options := do
  let format ← Data.field? fields "format" (Format.ofData? l) .html
  let sections ← Data.field? fields "sections" Data.boolean? true
  let numbering ← Data.field? fields "numbering" (NumberingOptions.ofData? l) {}
  let headingPosition ← Data.field? fields "heading_position" (HeadingPosition.ofData? l) .after
  let render ← Data.field? fields "render" Data.textMap? ∅
  pure { format, sections, numbering, headingPosition, render }

def Options.ofData? (l : Leniency) (d : Data) : Option Options := do
  ofFields? l (← d.fields? l fieldNames)

end Treatise
