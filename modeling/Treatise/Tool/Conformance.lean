import Treatise.Conversion
import Treatise.OptionsData
import Treatise.Text.Line
import Treatise.Toml.Document

/-!
# Conformance tests

A test file is a TOML table between two lines `---` and, behind it, a document. The table says how the
document is converted and what is expected of its content and its warnings.

* `Conformance.parse` — reads a test file;
* `Conformance.check` — what is wrong with an output.
-/

namespace Treatise

structure ExpectedWarning where
  /-- A part of the message. -/
  contains : String
  /-- The line on which the warning's place starts, from 1. -/
  line : Option Nat := none
  deriving DecidableEq, Repr

structure Conformance where
  description : Option String := none
  format : Format := .html
  numbering : NumberingOptions := {}
  sections : Bool := true
  render : Dict String := ∅
  /-- The content, without blanks around it. -/
  output : Option String := none
  /-- Parts of the content. -/
  contained : List String := []
  /-- What is no part of the content. -/
  absent : List String := []
  /-- All warnings, in their order. -/
  warnings : Option (List ExpectedWarning) := none

namespace Conformance

def options (c : Conformance) : Options :=
  { format := c.format, sections := c.sections, numbering := c.numbering, render := c.render }

/-! ## Reading -/

/-- The table is read as it stands. -/
def leniency : Leniency := { extraItems := true, emptyMap := true, emptyList := true }

def readWarning (d : Data) : Option ExpectedWarning := do
  let fields ← d.fields? leniency ["contains", "line"]
  let contains ← Data.requiredField? fields "contains" Data.text?
  let line ← Data.field? fields "line" (fun d => d.count?.map some) none
  pure { contains, line }

def fieldNames : List String :=
  ["description", "format", "numbering", "sections", "render", "expect_output", "expect_contains",
    "expect_absent", "expect_warnings"]

/-- Reads the fields of the table. Other fields than the known ones are not allowed. -/
def ofFields? (fields : List (String × Data)) : Option Conformance := do
  let text? (d : Data) : Option (Option String) := d.text?.map some
  let description ← Data.field? fields "description" text? none
  let format ← Data.field? fields "format" (Format.ofData? leniency) .html
  let numbering ← Data.field? fields "numbering" (NumberingOptions.ofData? leniency) {}
  let sections ← Data.field? fields "sections" Data.boolean? true
  let render ← Data.field? fields "render" Data.textMap? ∅
  let output ← Data.field? fields "expect_output" text? none
  let contained ← Data.field? fields "expect_contains" (Data.list? Data.text?) []
  let absent ← Data.field? fields "expect_absent" (Data.list? Data.text?) []
  let warnings ← Data.field? fields "expect_warnings"
    (fun d => (d.list? readWarning).map some) none
  if fields.all (fieldNames.contains ·.1) then
    pure { description, format, numbering, sections, render, output, contained, absent, warnings }
  else none

/-- A test file, cut at its delimiter lines: the text of the table and the document. -/
def cut (source : List Char) : Except String (List Char × List Char) :=
  let source := source.dropWhile (· == '\uFEFF')
  match Text.after? "---\n" source <|> Text.after? "---\r\n" source with
  | none => .error "missing opening --- delimiter"
  | some rest =>
    let (table, rest) := (Text.splitLines rest).span (Text.trimEnd · != ['-', '-', '-'])
    match rest with
    | [] => .error "missing closing --- delimiter"
    | _ :: document => .ok (table.flatten, document.flatten)

/-- Reads a test file: what it asks for, and its document. -/
def parse (source : List Char) : Except String (Conformance × List Char) := do
  let (table, document) ← cut source
  match (Toml.table? table).bind fun entries => ofFields? (entriesToData entries) with
  | some c => .ok (c, document)
  | none => .error "TOML parse error:"

/-! ## Checking -/

/-- Whether a text holds another. -/
def holds (text part : String) : Bool := Text.occursIn part.toList text.toList

/-- A text with four blanks in front of every line. -/
def indent (text : String) : String :=
  "\n".intercalate ((Text.stringLines text).map ("    " ++ ·))

/-- What is wrong with the content. -/
def checkContent (c : Conformance) (content : String) : Option String :=
  let actual := Text.trimString content
  let mismatch : Option String := do
    let expected := Text.trimString (← c.output)
    if actual = expected then none
    else some ("output mismatch\n  expected:\n" ++ indent expected ++ "\n  actual:\n" ++ indent actual)
  let missing : Option String :=
    (c.contained.find? (!holds actual ·)).map fun part =>
      "output does not contain \"" ++ part ++ "\"\n  actual:\n" ++ indent actual
  let present : Option String :=
    (c.absent.find? (holds actual ·)).map fun part =>
      "output unexpectedly contains \"" ++ part ++ "\""
  mismatch <|> missing <|> present

/-- The number of the line that holds a byte, from 1. -/
def lineOfByte : (source : List Char) → (offset : Nat) → Nat
  | [], _ => 1
  | c :: source, offset =>
    if offset = 0 then 1
    else (if c = '\n' then 1 else 0) + lineOfByte source (offset - c.utf8Size)

/-- What is wrong with the line of a warning. -/
def checkLine (source : List Char) (line : Nat) (i : Issue) : Option String :=
  let expected := "expected on line " ++ Nat.repr line ++ ", but "
  match i.span with
  | none => some (expected ++ "warning has no span")
  | some span =>
    let actual := lineOfByte source span.start
    if actual = line then none else some (expected ++ "span is on line " ++ Nat.repr actual)

/-- What is wrong with a warning. -/
def checkWarning (source : List Char) (w : ExpectedWarning) (i : Issue) : Option String :=
  if !holds i.message w.contains then
    some ("expected message containing \"" ++ w.contains ++ "\", got: " ++ i.message)
  else w.line.bind fun line => checkLine source line i

/-- The first thing wrong with warnings, whose numbers start at `index`. -/
def checkEach (source : List Char) : (index : Nat) → List ExpectedWarning → List Issue → Option String
  | _, [], _ => none
  | _, _, [] => none
  | index, w :: ws, i :: is =>
    match checkWarning source w i with
    | some reason => some ("warning[" ++ Nat.repr index ++ "]: " ++ reason)
    | none => checkEach source (index + 1) ws is

/-- What is wrong with the warnings. -/
def checkWarnings (c : Conformance) (source : List Char) (issues : List Issue) : Option String := do
  let expected ← c.warnings
  if issues.length ≠ expected.length then
    let listed := issues.map fun i => "    - " ++ i.message
    some ("expected " ++ Nat.repr expected.length ++ " warning(s), got " ++
      Nat.repr issues.length ++ "\n  actual warnings:\n" ++
      (if listed.isEmpty then "    (none)" else "\n".intercalate listed))
  else checkEach source 0 expected issues

/-- The first thing wrong with an output. -/
def check (c : Conformance) (o : Output) : Option String :=
  c.checkContent o.content <|> c.checkWarnings o.source o.issues

end Conformance

end Treatise
