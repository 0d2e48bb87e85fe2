import Treatise.Render.Markup
import Treatise.Issue
import Treatise.Options
import Treatise.Tree.Node

/-!
# Documents as HTML

Statements become `div` elements and generated inline elements become `span` elements, whose classes
say what they are. A citation links to its bibliography entry.

The renderer walks over the document once. While it is in the head of a table, cells are head cells;
the end of any head ends this.

* `renderHtml` — a node as HTML text, with a warning for every citation that has no entry;
* `headingsCss` — the style rules that put the words for the kinds in front of the numbers.
-/

namespace Treatise

/-! ## The bibliography -/

/-- The keys of the bibliography entries, each once, in the order of the numbers from 1. -/
abbrev Bibliography := List String

/-- The bibliography with one more key at the end, unless it is there. -/
def Bibliography.add (b : Bibliography) (key : String) : Bibliography :=
  if b.contains key then b else b ++ [key]

/-- The bibliography of a document. Entries without a key are not numbered. -/
def Bibliography.ofDocument (root : Node) : Bibliography :=
  ((root.findAll (·.tag == .bibEntry)).filterMap (·.attr? "key")).foldl add []

/-- The number of a key. -/
def Bibliography.number? (b : Bibliography) (key : String) : Option Nat :=
  (b.idxOf? key).map (· + 1)

namespace HtmlRenderer

open Html

/-! ## Attributes -/

/-- An attribute of the node under its own name, if the node has it. -/
def attrOf (n : Node) (key : String) : List (String × String) :=
  ((n.attr? key).map fun value => (key, value)).toList

/-- An attribute that may be missing. -/
def attrIf (key : String) (value : Option String) : List (String × String) :=
  (value.map fun value => (key, value)).toList

def spanClasses (n : Node) (role : Role) : String :=
  role.className ++ (if n.flags.anchor then " anchor" else "") ++
    (if n.flags.nested then " nested" else "")

def statementClasses (n : Node) (st : Statement) : String :=
  "block " ++ st.kind.name ++ (if st.numbered then "" else " do_not_number") ++
    (if n.flags.anchor then " anchor" else "")

/-! ## Nodes whose content is not walked over -/

/-- A citation: a link to the entry, or its key and a warning. -/
def citation (b : Bibliography) (fileId : Nat) (n : Node) : List Html × List Issue :=
  let key := (n.attr? "key").getD ""
  match b.number? key with
  | some number =>
    ([element "a" [("class", "citation"), ("href", "#bib-" ++ key)]
      [text ("[" ++ Nat.repr number ++ "]")]], [])
  | none =>
    ([element "span" [("class", "citation unknown")] [text ("[" ++ key ++ "]")]],
      [⟨.unknownCitation key, none, fileId, []⟩])

/-- A bibliography entry; one without a key has the number 0. -/
def bibEntry (b : Bibliography) (n : Node) : Html :=
  let key := (n.attr? "key").getD ""
  element "span" [("class", "bibitem anchor"), ("id", "bib-" ++ key)]
    [text ("[" ++ Nat.repr ((b.number? key).getD 0) ++ "]")]

/-- A node that is rendered without a walk over its content. -/
def leaf? (b : Bibliography) (fileId : Nat) (n : Node) : Option (List Html × List Issue) :=
  match n.tag with
  | .codeBlock language =>
    let attrs := attrIf "class" (language.map ("language-" ++ ·))
    some ([element "pre" [] [element "code" attrs [text n.text]], text "\n"], [])
  | .code => some ([element "code" [] [text n.text]], [])
  | .math false => some ([text ("\\(" ++ n.text ++ "\\)")], [])
  | .math true => some ([text ("\\[" ++ n.text ++ "\\]")], [])
  | .html => some ([raw n.text], [])
  | .rule => some ([void "hr" [], text "\n"], [])
  | .hardBreak => some ([void "br" [], text "\n"], [])
  | .image => some ([void "img" (attrOf n "src" ++ [("alt", n.textContent)] ++ attrOf n "title")], [])
  | .label => some ([element "span" (("class", "label") :: attrOf n "key") []], [])
  | .citation => some (citation b fileId n)
  | .bibEntry => some ([bibEntry b n], [])
  | _ => none

/-! ## Nodes around their content -/

/-- An element that stands on lines of its own. -/
def blockElement (name : String) (attrs : List (String × String)) (content : List Html) :
    List Html :=
  [element name attrs (text "\n" :: content), text "\n"]

/-- An element that begins and ends on one line. -/
def lineElement (name : String) (content : List Html) : List Html :=
  [element name [] content, text "\n"]

/-- The node around its content. -/
def wrap (inHead : Bool) (n : Node) (content : List Html) : List Html :=
  match n.tag with
  | .section =>
    blockElement "section" (attrOf n "level" ++ attrOf n "number" ++ attrOf n "title") content
  | .toc => blockElement "nav" [("class", "toc")] content
  | .heading level => lineElement ("h" ++ Nat.repr level) content
  | .paragraph => lineElement "p" content
  | .blockQuote => blockElement "blockquote" [] content
  | .list false _ => blockElement "ul" [] content
  | .list true start =>
    blockElement "ol" (if start = 1 then [] else [("start", Nat.repr start)]) content
  | .item => lineElement "li" content
  | .table => blockElement "table" [] content
  | .tableHead => blockElement "thead" [] [element "tr" [] content, text "\n"]
  | .tableRow => lineElement "tr" content
  | .tableCell => [element (if inHead then "th" else "td") [] content]
  | .emphasis => [element "em" [] content]
  | .strong => [element "strong" [] content]
  | .strikethrough => [element "del" [] content]
  | .link => [element "a" (attrOf n "href" ++ attrOf n "title") content]
  | .reference => [element "span" (("class", "reference") :: attrOf n "key") content]
  | .block st =>
    blockElement "div"
      ([("class", statementClasses n st), ("type", st.kind.name)] ++ attrOf n "id" ++
        attrIf "label" st.label ++ attrIf "name" st.name ++ attrIf "references" st.references)
      content
  | .span role =>
    if role = .referenceNumber ∧ (n.attr? "href").isSome then
      [element "a" (("class", "reference_number") :: attrOf n "href") content]
    else
      [element "span" (("class", spanClasses n role) :: (attrOf n "id" ++ attrOf n "type")) content]
  | _ => content

end HtmlRenderer

/-! ## The walk -/

structure HtmlState where
  /-- The walk is in the head of a table. -/
  inHead : Bool := false
  issues : List Issue := []

namespace HtmlState

/-- The state inside a node. -/
def enter (s : HtmlState) (tag : Tag) : HtmlState :=
  if tag = .tableHead then { s with inHead := true } else s

/-- The state behind a node. -/
def leave (s : HtmlState) (tag : Tag) : HtmlState :=
  if tag = .tableHead then { s with inHead := false } else s

end HtmlState

mutual

/-- A node as HTML, and the state behind it. -/
def Node.toHtml (b : Bibliography) (fileId : Nat) : Node → HtmlState → List Html × HtmlState
  | ⟨tag, attrs, flags, text, tail, children⟩, s =>
    let n : Node := ⟨tag, attrs, flags, text, tail, children⟩
    match HtmlRenderer.leaf? b fileId n with
    | some (html, issues) => (html, { s with issues := s.issues ++ issues })
    | none =>
      let (content, s) := nodesToHtml b fileId children (s.enter tag)
      (HtmlRenderer.wrap s.inHead n (.text text :: content), s.leave tag)

/-- Nodes that follow each other as HTML, with their tails. -/
def nodesToHtml (b : Bibliography) (fileId : Nat) : List Node → HtmlState → List Html × HtmlState
  | [], s => ([], s)
  | n :: ns, s =>
    let (html, s) := n.toHtml b fileId s
    let (rest, s) := nodesToHtml b fileId ns s
    (html ++ .text n.tail :: rest, s)

end

/-- A node as HTML text, rendered with the bibliography of a document, and the state behind it. -/
def Node.renderHtml (b : Bibliography) (fileId : Nat) (n : Node) (s : HtmlState) :
    String × HtmlState :=
  let (html, s) := n.toHtml b fileId s
  (Html.printAll html, s)

/-- A document as HTML text, with a warning for every citation without an entry. -/
def renderHtml (root : Node) (fileId : Nat) : String × List Issue :=
  let (html, s) := root.renderHtml (.ofDocument root) fileId {}
  (html, s.issues)

/-! ## Style rules -/

/-- The style rule that puts the word for a kind before or after its empty place. -/
def cssRule (position : HeadingPosition) (kind : Kind) : String :=
  let (pseudo, space) :=
    match position with
    | .before => ("before", "")
    | .after => ("after", " ")
  ".block_label[type=\"" ++ kind.name ++ "\"]:" ++ pseudo ++ " \x7b\n  content:'" ++ kind.name ++
    space ++ "';\n" ++ (if kind.isProof then "  font-style:italic;\n" else "") ++ "\x7d\n"

/-- The style rules for the kinds of the statements below a node, in the order of the kinds. -/
def headingsCss (root : Node) (position : HeadingPosition) : String :=
  let kinds := root.statements.map (·.kind)
  String.join ((Kind.all.filter (kinds.contains ·)).map (cssRule position))

end Treatise
