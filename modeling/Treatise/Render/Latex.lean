import Treatise.Asset
import Treatise.Options
import Treatise.RenderOptions
import Treatise.Text.Blank

/-!
# Documents as LaTeX

Statements become environments, and LaTeX makes all numbers itself. The renderer walks over the
document once. Inside a formula text is taken as it is, everywhere else it is escaped; the end of any
formula ends this.

* `Latex.escape` — text outside a formula;
* `Node.renderLatex` — a node as LaTeX;
* `theoremDeclarations` — the declarations of the environments that a document needs.
-/

namespace Treatise

namespace Latex

/-- The text with a character replaced everywhere. -/
def replaceChar (c : Char) (image : String) (s : List Char) : List Char :=
  s.flatMap fun d => if d = c then image.toList else [d]

/-- Text outside a formula. The backslash comes first, since the others bring backslashes in. -/
def escape (s : String) : String :=
  String.ofList
    (replaceChar '%' "\\%" (replaceChar '&' "\\&" (replaceChar '_' "\\_"
      (replaceChar '\\' "\\textbackslash\x7b\x7d" s.toList))))

/-- The target of a link. -/
def escapeUrl (s : String) : String :=
  String.ofList (replaceChar '#' "\\#" (replaceChar '%' "\\%" s.toList))

/-- A text between braces. -/
def braced (s : String) : String := "\x7b" ++ s ++ "\x7d"

def command (name argument : String) : String := "\\" ++ name ++ braced argument

/-- An environment around a text, which brings its own line ends. -/
def inEnvironment (name argument body : String) : String :=
  command "begin" name ++ argument ++ "\n" ++ body ++ command "end" name ++ "\n\n"

/-- What sets a node up: the options and the files that are there. -/
structure Setting where
  options : RenderOptions
  assets : AssetProbe

/-! ## Nodes whose content is not walked over -/

/-- The argument of a command that mentions a key. -/
def keyOf (n : Node) : String := (n.attr? "key").getD ""

/-- A node that is rendered without a walk over its content. -/
def leaf? (setting : Setting) (n : Node) : Option String :=
  match n.tag with
  | .span role => if setting.options.ignored.contains role then some "" else none
  | .codeBlock _ => some (inEnvironment "verbatim" "" n.text)
  | .code => some (command "texttt" (escape n.text))
  | .html => some ""
  | .rule => some "\\noindent\\rule\x7b\\linewidth\x7d\x7b0.4pt\x7d\n\n"
  | .hardBreak => some "\\\\\n"
  | .image => some (command "includegraphics" (printForm setting.assets n.source))
  | .label => some (command "label" (keyOf n))
  | .reference => some (command "ref" (keyOf n))
  | .citation => some (command "cite" (keyOf n))
  | .bibEntry => some (command "bibitem" (keyOf n))
  | .toc => some "\\tableofcontents\n"
  | _ => none

/-! ## Nodes around their content -/

/-- The name of a statement's environment: with a star if it takes no number. -/
def environment (st : Statement) : String :=
  st.kind.environment ++ (if st.numbered || st.kind.isProof then "" else "*")

/-- What follows the words that begin a proof. -/
def subjectText : Subject → String
  | .reference key => command "ref" key
  | .text words => escape words

/-- The optional argument of a statement's environment: what is proved, or the name and the
references. -/
def environmentArgument (st : Statement) : String :=
  match st.subject with
  | some subject => "[Proof of " ++ subjectText subject ++ "]"
  | none =>
    let parts := st.name.toList ++ st.references.toList
    if parts.isEmpty then "" else "[" ++ ", ".intercalate (parts.map escape) ++ "]"

/-- The command of a heading. -/
def sectioning (level : Nat) : String :=
  if level ≤ 3 then String.join (List.replicate (level - 1) "sub") ++ "section" else "paragraph"

/-- The type of the file that a link leads to, in capital letters and parentheses. -/
def fileType (href : String) : String :=
  match Path.extension? href.toList with
  | some ext => " (" ++ String.ofList (Text.toUpper ext) ++ ")"
  | none => ""

/-- A link around its content. -/
def link (setting : Setting) (n : Node) (content : String) : String :=
  let href := (n.attr? "href").getD ""
  let content := Text.trimString content
  (if content.isEmpty then command "url" (escapeUrl href)
    else command "href" (escapeUrl href) ++ braced content) ++
  (if setting.options.linkFiletypes then fileType href else "")

/-- The node around its content. -/
def wrap (setting : Setting) (n : Node) (content : String) : String :=
  match n.tag with
  | .math true => "\\[" ++ content ++ "\\]"
  | .math false => "$" ++ content ++ "$"
  | .heading level => command (sectioning level) (Text.trimString content) ++ "\n\n"
  | .paragraph => Text.trimString content ++ "\n\n"
  | .block st =>
    inEnvironment (environment st) (environmentArgument st) (Text.trimString content ++ "\n")
  | .list ordered _ => inEnvironment (if ordered then "enumerate" else "itemize") "" content
  | .item => "  \\item " ++ Text.trimString content ++ "\n"
  | .blockQuote => inEnvironment "quote" "" (Text.trimString content ++ "\n")
  | .emphasis => command "emph" content
  | .strong => command "textbf" content
  | .strikethrough => command "sout" content
  | .link => link setting n content
  | _ => content

/-! ## Tables -/

/-- The columns of a table, as many as its first row has cells. -/
def columns (rows : List Node) : String :=
  let count := ((rows.head?.map fun row => row.children.length).getD 0)
  " ".intercalate (List.replicate (max count 1) "l")

/-- A row of a table. A line is drawn below the head. -/
def row (tag : Tag) (cells : List String) : String :=
  " & ".intercalate cells ++ " \\\\\n" ++ (if tag = .tableHead then "\\hline\n" else "")

def table (rows : List Node) (body : String) : String :=
  command "begin" "tabular" ++ braced (columns rows) ++ "\n" ++ body ++ command "end" "tabular" ++
    "\n\n"

/-- Text between nodes. -/
def plainText (inMath : Bool) (s : String) : String := if inMath then s else escape s

/-- The walk is in a formula when it enters the node. -/
def enters (inMath : Bool) : Tag → Bool
  | .math _ => true
  | _ => inMath

/-- The walk is in a formula when it leaves the node. -/
def leaves (inMath : Bool) : Tag → Bool
  | .math _ => false
  | _ => inMath

/-! ## The walk -/

mutual

/-- A node as LaTeX, and whether the walk is in a formula behind it. -/
def node (setting : Setting) : Node → Bool → String × Bool
  | ⟨.table, _, _, _, _, rows⟩, inMath =>
    let (body, inMath) := tableRows setting rows inMath
    (table rows body, inMath)
  | ⟨tag, attrs, flags, text, tail, children⟩, inMath =>
    let n : Node := ⟨tag, attrs, flags, text, tail, children⟩
    match leaf? setting n with
    | some s => (s, inMath)
    | none =>
      let inMath := enters inMath tag
      let text := plainText inMath text
      let (content, inMath) := nodes setting children inMath
      (wrap setting n (text ++ content), leaves inMath tag)

/-- Nodes that follow each other, with their tails. -/
def nodes (setting : Setting) : List Node → Bool → String × Bool
  | [], inMath => ("", inMath)
  | n :: ns, inMath =>
    let (s, inMath) := node setting n inMath
    let tail := plainText inMath n.tail
    let (rest, inMath) := nodes setting ns inMath
    (s ++ tail ++ rest, inMath)

/-- The rows of a table. -/
def tableRows (setting : Setting) : List Node → Bool → String × Bool
  | [], inMath => ("", inMath)
  | ⟨tag, _, _, _, _, cells⟩ :: rows, inMath =>
    let (cells, inMath) := tableCells setting cells inMath
    let (rest, inMath) := tableRows setting rows inMath
    (row tag cells ++ rest, inMath)

/-- The content of each cell of a row. -/
def tableCells (setting : Setting) : List Node → Bool → List String × Bool
  | [], inMath => ([], inMath)
  | ⟨_, _, _, text, _, children⟩ :: cells, inMath =>
    let text := plainText inMath text
    let (content, inMath) := nodes setting children inMath
    let (rest, inMath) := tableCells setting cells inMath
    (Text.trimString (text ++ content) :: rest, inMath)

end

end Latex

def Node.renderLatex (setting : Latex.Setting) (n : Node) : String := (Latex.node setting n false).1

/-! ## Declarations -/

/-- The argument that restarts numbers in every section. -/
def numberedWithin (depthLimit : Nat) : String :=
  match depthLimit with
  | 0 => ""
  | 1 => "[section]"
  | 2 => "[subsection]"
  | _ => "[subsubsection]"

/-- The kinds of statements that are numbered or not, without proofs, in the order of the kinds. -/
def kindsOf (statements : List Statement) (numbered : Bool) : List Kind :=
  Kind.all.filter fun kind =>
    !kind.isProof && statements.any fun st => st.kind == kind && st.numbered == numbered

/-- The declaration of a kind with a counter of its own. -/
def ownCounter (o : NumberingOptions) (kind : Kind) : String :=
  Latex.command "newtheorem" kind.environment ++ Latex.braced kind.name ++
    numberedWithin o.depthLimit ++ "\n"

/-- The declaration of a kind that shares the counter of another. -/
def sharedCounter (first kind : Kind) : String :=
  Latex.command "newtheorem" kind.environment ++ "[" ++ first.environment ++ "]" ++
    Latex.braced kind.name ++ "\n"

/-- The declaration of a kind without numbers. -/
def withoutNumber (kind : Kind) : String :=
  Latex.command "newtheorem*" (kind.environment ++ "*") ++ Latex.braced kind.name ++ "\n"

/-- The declarations of numbered kinds: all share the counter of the first, unless each is counted on
its own. -/
def declareNumbered (o : NumberingOptions) (kinds : List Kind) : List String :=
  match kinds with
  | [] => []
  | first :: rest =>
    ownCounter o first ::
      rest.map (if o.byKind then ownCounter o else sharedCounter first)

/-- The declarations for all statements below a node. -/
def theoremDeclarations (root : Node) (o : NumberingOptions) : String :=
  String.join (declareNumbered o (kindsOf root.statements true) ++
    (kindsOf root.statements false).map withoutNumber)

end Treatise
