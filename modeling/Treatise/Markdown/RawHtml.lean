import Treatise.Markdown.Line
import Treatise.Text.Search

/-!
# Raw HTML

What counts as raw HTML, in two places.

* `htmlBlock?` — a line that begins a block of raw HTML, and where such a block ends;
* `RawHtml.read?` — a tag, comment, instruction, declaration or character data within a paragraph.

All readers start behind the opening angle bracket and return what follows the closing one. A tag may
go on in the next line, behind the marks of the containers around; the other kinds take those marks
for their own text.
-/

namespace Treatise.Markdown

namespace RawHtml

/-! ## Tags -/

def isTagNameChar (c : Char) : Bool := c.isAlphanum || c == '-'

def isAttributeStart (c : Char) : Bool := c.isAlpha || c == '_' || c == ':'

def isAttributeChar (c : Char) : Bool :=
  c.isAlphanum || c == '_' || c == '.' || c == ':' || c == '-'

def isBareValueChar (c : Char) : Bool :=
  !(c == '\'' || c == '"' || c == ' ' || c == '=' || c == '>' || c == '<' || c == '\x60' ||
    isLineEnd c)

/-- Skips blanks and line ends. The first argument bounds the number of lines. -/
def skipSpace? (next : LineStep) : (bound : Nat) → List Char → Option (List Char)
  | 0, _ => none
  | bound + 1, s =>
    match dropBlanks s with
    | [] => some []
    | c :: rest =>
      if isLineEnd c then
        match next (skipLineEnd (c :: rest)) with
        | some place => skipSpace? next bound place.rest
        | none => none
      else some (c :: rest)

/-- Reads a value up to its closing mark. The first argument bounds its length. -/
def readQuoted? (next : LineStep) (mark : Char) : (bound : Nat) → List Char → Option (List Char)
  | 0, _ => none
  | _ + 1, [] => none
  | bound + 1, c :: s =>
    if c = mark then some s
    else if isLineEnd c then
      match next (skipLineEnd (c :: s)) with
      | some place => readQuoted? next mark bound place.rest
      | none => none
    else readQuoted? next mark bound s

def readValue? (next : LineStep) (bound : Nat) (s : List Char) : Option (List Char) :=
  match s with
  | [] => none
  | c :: rest =>
    if c = '"' ∨ c = '\'' then readQuoted? next c bound rest
    else if isBareValueChar c then some (rest.dropWhile isBareValueChar)
    else none

/-- Reads an attribute: a name and, behind an equals sign, a value. -/
def readAttribute? (next : LineStep) (bound : Nat) (s : List Char) : Option (List Char) :=
  match s with
  | [] => none
  | c :: rest =>
    if isAttributeStart c then
      let rest := rest.dropWhile isAttributeChar
      match skipSpace? next bound rest with
      | some ('=' :: value) =>
        match skipSpace? next bound value with
        | some value => readValue? next bound value
        | none => none
      | some _ => some rest
      | none => none
    else none

/-- Reads the attributes of an opening tag and its closing bracket. A blank must stand before each
attribute. The first argument bounds their number. -/
def readAttributes? (next : LineStep) : (bound : Nat) → List Char → Option (List Char)
  | 0, _ => none
  | bound + 1, s =>
    match skipSpace? next (bound + 1) s with
    | none => none
    | some [] => none
    | some ('>' :: rest) => some rest
    | some ('/' :: '>' :: rest) => some rest
    | some (c :: rest) =>
      if (s.head?.map isAnyBlank).getD false then
        match readAttribute? next (bound + 1) (c :: rest) with
        | some rest => readAttributes? next bound rest
        | none => none
      else none

/-- Reads an opening or closing tag. -/
def readTag? (next : LineStep) (bound : Nat) (s : List Char) : Option (List Char) :=
  match s with
  | [] => none
  | '/' :: s =>
    match s with
    | [] => none
    | c :: rest =>
      if c.isAlpha then
        match dropBlanks (rest.dropWhile isTagNameChar) with
        | '>' :: rest => some rest
        | _ => none
      else none
  | c :: rest =>
    if c.isAlpha then readAttributes? next bound (rest.dropWhile isTagNameChar) else none

/-! ## Within a paragraph -/

/-- What follows the first occurrence of a text. -/
def behind? (pattern : String) (s : List Char) : Option (List Char) :=
  (Text.splitAt? pattern.toList s).map (·.2)

/-- What follows the end of character data: closing square brackets and an angle bracket. The first
closing square bracket decides. -/
def behindData? (s : List Char) : Option (List Char) :=
  match s.dropWhile (· != ']') with
  | [] => none
  | brackets =>
    match brackets.dropWhile (· == ']') with
    | '>' :: rest => some rest
    | _ => none

/-- Reads a comment, an instruction, a declaration or character data. The closing mark of a comment
may overlap the opening one. -/
def readSpecial? (s : List Char) : Option (List Char) :=
  match s with
  | '!' :: '-' :: '-' :: rest => behind? "-->" ('-' :: '-' :: rest)
  | '!' :: rest =>
    match Text.after? "[CDATA[" rest with
    | some rest => behindData? rest
    | none =>
      match rest with
      | [] => none
      | c :: _ => if c.isAlpha then behind? ">" rest else none
  | '?' :: rest => behind? "?>" rest
  | _ => none

end RawHtml

/-! ## Blocks -/

/-- Where a block of raw HTML ends. -/
inductive HtmlBlockEnd where
  /-- Behind a line that holds the mark. -/
  | mark (text : String)
  /-- Before a blank line. -/
  | blankLine
  deriving DecidableEq, Repr

/-- Elements whose content is not Markdown, each with its closing tag. -/
def verbatimElements : List (String × String) :=
  [("pre", "</pre>"), ("style", "</style>"), ("script", "</script>"), ("textarea", "</textarea>")]

/-- Elements that are blocks of their own. -/
def blockElements : List String :=
  ["address", "article", "aside", "base", "basefont", "blockquote", "body", "caption", "center",
    "col", "colgroup", "dd", "details", "dialog", "dir", "div", "dl", "dt", "fieldset",
    "figcaption", "figure", "footer", "form", "frame", "frameset", "h1", "h2", "h3", "h4", "h5",
    "h6", "head", "header", "hr", "html", "iframe", "legend", "li", "link", "main", "menu",
    "menuitem", "nav", "noframes", "ol", "optgroup", "option", "p", "param", "search", "section",
    "summary", "table", "tbody", "td", "tfoot", "th", "thead", "title", "tr", "track", "ul"]

/-- The closing mark of an element with verbatim content that a line begins. -/
def verbatimEnd? (s : List Char) : Option String :=
  verbatimElements.findSome? fun (name, closing) =>
    let head := s.take name.length
    if String.ofList (head.map Char.toLower) = name then
      match s.drop name.length with
      | [] => some closing
      | c :: _ => if isAnyBlank c ∨ c = '>' then some closing else none
    else none

/-- The closing mark of a block that ends at a mark. -/
def markedEnd? (s : List Char) : Option String :=
  match verbatimEnd? s with
  | some closing => some closing
  | none =>
    match s with
    | '!' :: '-' :: '-' :: _ => some "-->"
    | '?' :: _ => some "?>"
    | '!' :: c :: rest =>
      if c.isAlpha then some ">"
      else if (Text.after? "[CDATA[" (c :: rest)).isSome then some "]]>"
      else none
    | _ => none

/-- A line begins with the tag of a block element. -/
def beginsBlockElement (s : List Char) : Bool :=
  let s := match s with
    | '/' :: s => s
    | s => s
  let name := s.takeWhile Char.isAlphanum
  blockElements.contains (String.ofList (name.map Char.toLower)) &&
    match s.drop name.length with
    | [] => true
    | '/' :: '>' :: _ => true
    | c :: _ => c == ' ' || c == '\t' || c == '>' || isLineEnd c

/-- A line holds one complete tag and nothing else. -/
def isLoneTag (s : List Char) : Bool :=
  let line := lineText s
  match RawHtml.readTag? (fun _ => none) (line.length + 1) line with
  | some rest => isBlankLine rest
  | none => false

/-- How the block of raw HTML ends that a line begins. `s` follows the opening bracket; only some of
these blocks may interrupt a paragraph. -/
def htmlBlock? (interrupting : Bool) (s : List Char) : Option HtmlBlockEnd :=
  match markedEnd? s with
  | some closing => some (.mark closing)
  | none =>
    if beginsBlockElement s ∨ (!interrupting ∧ isLoneTag s) then some .blankLine else none

end Treatise.Markdown
