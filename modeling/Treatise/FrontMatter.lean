import Treatise.Dict
import Treatise.Issue
import Treatise.Text.Blank
import Treatise.Text.Line
import Treatise.Text.Search
import Treatise.Toml.Document

/-!
# Front matter

A document may begin with a TOML table between two lines `---`. The line behind the first of them must
not be blank; else that line is a rule. A table that is not well formed stays in the body.
-/

namespace Treatise

/-- Reads the text of a table: its entries, or the reason why it is refused. -/
abbrev TableReader := List Char → Except String (List (String × Toml.Value))

structure FrontMatter where
  /-- The values, as text. -/
  values : Dict String
  /-- What follows the front matter. -/
  body : List Char
  /-- The byte at which the body starts. -/
  bodyStart : Nat
  /-- What is wrong with the table, if it is there and refused. -/
  error : Option IssueKind

namespace FrontMatter

def absent (source : List Char) : FrontMatter := ⟨∅, source, 0, none⟩

/-- There is a table, but it is refused. -/
def malformed (f : FrontMatter) : Bool := f.error.isSome

/-- A document that begins with front matter, cut at the two delimiter lines. -/
structure Cut where
  first : List Char
  table : List Char
  last : List Char
  body : List Char

/-- The line is `---` up to blanks at its end. -/
def isDelimiter (line : List Char) : Bool := Text.trimEnd line == ['-', '-', '-']

/-- Cuts a document at its front matter. -/
def Cut.ofSource? (source : List Char) : Option Cut :=
  match Text.splitLines source with
  | [] => none
  | first :: rest =>
    if isDelimiter first ∧ (rest.head?.map (!Text.isAllBlank ·)).getD false then
      let (table, rest) := rest.span (!isDelimiter ·)
      match rest with
      | [] => none
      | last :: body => some ⟨first, table.flatten, last, body.flatten⟩
    else none

/-- The byte at which the body starts. -/
def Cut.bodyStart (c : Cut) : Nat :=
  Text.byteLength c.first + Text.byteLength c.table + Text.byteLength c.last

mutual

/-- A value as text: strings as they are, arrays with a space between their elements, and all other
values as they are written in TOML. A moment is written as the table that stands for it. -/
def flatten : Toml.Value → String
  | .string s => s
  | .array items => " ".intercalate (flattenAll items)
  | .moment m => Toml.inlineTable ["\"$__toml_private_datetime\" = \"" ++ m.render ++ "\""]
  | v => v.render

def flattenAll : List Toml.Value → List String
  | [] => []
  | v :: vs => flatten v :: flattenAll vs

end

/-- The front matter of a document, given a reader for tables. -/
def split (read : TableReader) (source : List Char) : FrontMatter :=
  match Cut.ofSource? source with
  | none => absent source
  | some cut =>
    match read cut.table with
    | .ok entries =>
      ⟨Dict.ofList (entries.map fun e => (e.1, flatten e.2)), cut.body, cut.bodyStart, none⟩
    | .error reason => { absent source with error := some (.malformedFrontMatter reason) }

end FrontMatter

end Treatise
