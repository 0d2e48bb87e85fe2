import Treatise.Text.Quoted
import Treatise.Tree.Node

/-!
# Dumps of the tree

A dump shows every part of a node on lines of its own, indented by four blanks per level.

* `Dump` — what is shown, and `Dump.render`, its text;
* `Node.dump` — a node.
-/

namespace Treatise

/-- What a dump shows. -/
inductive Dump where
  /-- A word or a number. -/
  | word (s : String)
  | text (s : String)
  /-- A name with parts in parentheses. -/
  | call (name : String) (parts : List Dump)
  /-- A name with named parts in braces. -/
  | record (name : String) (parts : List (String × Dump))
  | list (parts : List Dump)
  | map (entries : List (String × Dump))

namespace Dump

/-- Lines between an opening and a closing text; without lines these stand together. -/
def lines (indent opening closing : String) (parts : List String) : String :=
  if parts.isEmpty then opening ++ closing
  else
    opening ++ "\n" ++
      String.join (parts.map fun part => indent ++ "    " ++ part ++ ",\n") ++ indent ++ closing

mutual

/-- The text of a dump, whose first line starts behind `indent`. -/
def render (indent : String) : Dump → String
  | word s => s
  | text s => Text.quoteDump s
  | call name parts => lines indent (name ++ "(") ")" (renderAll (indent ++ "    ") parts)
  | record name parts =>
    lines indent (name ++ " \x7b") "\x7d" (renderNamed (indent ++ "    ") parts)
  | list parts => lines indent "[" "]" (renderAll (indent ++ "    ") parts)
  | map entries => lines indent "\x7b" "\x7d" (renderEntries (indent ++ "    ") entries)

def renderAll (indent : String) : List Dump → List String
  | [] => []
  | d :: ds => d.render indent :: renderAll indent ds

def renderNamed (indent : String) : List (String × Dump) → List String
  | [] => []
  | (name, d) :: rest => (name ++ ": " ++ d.render indent) :: renderNamed indent rest

def renderEntries (indent : String) : List (String × Dump) → List String
  | [] => []
  | (key, d) :: rest => (Text.quoteDump key ++ ": " ++ d.render indent) :: renderEntries indent rest

end

def boolean (b : Bool) : Dump := word (if b then "true" else "false")

def number (n : Nat) : Dump := word (Nat.repr n)

/-- A value that may be missing. -/
def option {α : Type} (f : α → Dump) : Option α → Dump
  | none => word "None"
  | some a => call "Some" [f a]

end Dump

/-- The name of a role in a dump. -/
def Role.dumpName : Role → String
  | blockHeading => "BlockHeading"
  | blockLabel => "BlockLabel"
  | blockNumber => "BlockNumber"
  | blockName => "BlockName"
  | blockReferences => "BlockReferences"
  | proofSubject => "ProofSubject"
  | qed => "Qed"
  | sectionNumber => "SectionNumber"
  | referenceNumber => "ReferenceNumber"
  | tocTitle => "TocTitle"

def Subject.dump : Subject → Dump
  | reference key => .call "Reference" [.text key]
  | text words => .call "Text" [.text words]

def Statement.dump (s : Statement) : Dump :=
  .record "BlockInfo" [("kind", .word s.kind.name), ("numbered", .boolean s.numbered),
    ("name", .option .text s.name), ("references", .option .text s.references),
    ("label", .option .text s.label), ("subject", .option Subject.dump s.subject),
    ("proof_depth", .number s.proofDepth)]

def Tag.dump : Tag → Dump
  | root => .word "Root"
  | .section => .word "Section"
  | toc => .word "Toc"
  | heading level => .call "Heading" [.number level]
  | paragraph => .word "Paragraph"
  | blockQuote => .word "BlockQuote"
  | codeBlock language => .record "CodeBlock" [("language", .option .text language)]
  | list ordered start =>
    .record "List" [("ordered", .boolean ordered), ("start", .number start)]
  | item => .word "Item"
  | table => .word "Table"
  | tableHead => .word "TableHead"
  | tableRow => .word "TableRow"
  | tableCell => .word "TableCell"
  | rule => .word "Rule"
  | html => .word "Html"
  | block statement => .call "Block" [statement.dump]
  | span role => .call "Span" [.word role.dumpName]
  | emphasis => .word "Emphasis"
  | strong => .word "Strong"
  | strikethrough => .word "Strikethrough"
  | code => .word "Code"
  | link => .word "Link"
  | image => .word "Image"
  | math display => .record "Math" [("display", .boolean display)]
  | hardBreak => .word "HardBreak"
  | label => .word "Label"
  | reference => .word "Reference"
  | citation => .word "Citation"
  | bibEntry => .word "BibEntry"

mutual

def Node.dump : Node → Dump
  | ⟨tag, attrs, flags, text, tail, children⟩ =>
    .record "Node" [("tag", tag.dump),
      ("attrs", .map (attrs.entries.map fun e => (e.1, .text e.2))),
      ("flags", .record "Flags"
        [("anchor", .boolean flags.anchor), ("nested", .boolean flags.nested)]),
      ("text", .text text), ("tail", .text tail), ("children", .list (dumpNodes children))]

def dumpNodes : List Node → List Dump
  | [] => []
  | n :: ns => n.dump :: dumpNodes ns

end

def Node.dumpText (n : Node) : String := n.dump.render ""

end Treatise
