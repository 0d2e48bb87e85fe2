import Treatise.Document
import Treatise.Render.Html
import Treatise.Render.Latex
import Treatise.Resolution

/-!
# Conversion

The whole way from a source to its output: read, put into sections, number, resolve, render. A
conversion never fails; what is wrong is in its issues.
-/

namespace Treatise

structure Output where
  format : Format
  /-- The document as text. -/
  content : String
  /-- The table of contents as text. -/
  contents : String
  /-- The style rules of an HTML document, the declarations of a LaTeX document. -/
  headings : String
  /-- The values of the front matter. -/
  values : Dict String
  /-- The document with its numbers and references in place. -/
  root : Node
  /-- The text that the spans of issues refer to. -/
  source : List Char
  issues : List Issue

/-- What a format makes of a document: the content, the table of contents, the headings, and what is
wrong. -/
structure Rendering where
  content : String
  contents : String
  headings : String
  issues : List Issue

def Rendering.html (o : Options) (fileId : Nat) (root contents : Node) : Rendering :=
  let b := Bibliography.ofDocument root
  let (content, s) := root.renderHtml b fileId {}
  let (contents, s) := contents.renderHtml b fileId s
  ⟨content, contents, headingsCss root o.headingPosition, s.issues⟩

def Rendering.latex (o : Options) (setting : Latex.Setting) (root contents : Node) : Rendering :=
  let (content, inMath) := Latex.node setting root false
  ⟨content, (Latex.node setting contents inMath).1, theoremDeclarations root o.numbering, []⟩

def convertDocument (o : Options) (assets : AssetProbe) (document : Document) : Output :=
  let root := if o.sections then buildSections document.root else document.root
  let resolution := resolve o.numbering document.fileId root
  let (renderOptions, errors) := RenderOptions.ofDict o.render
  let contents := resolution.contents.toNode
  let rendering :=
    match o.format with
    | .html => Rendering.html o document.fileId resolution.root contents
    | .latex => Rendering.latex o ⟨renderOptions, assets⟩ resolution.root contents
  { format := o.format
    content := rendering.content
    contents := rendering.contents
    headings := rendering.headings
    values := document.values
    root := resolution.root
    source := document.source
    issues :=
      document.issues ++ resolution.issues ++ errors.map (·.toIssue document.fileId) ++
        rendering.issues }

def convert (o : Options) (assets : AssetProbe) (source : List Char) (fileId : Nat) : Output :=
  convertDocument o assets (Document.parse source fileId)

/-- The name under which a template finds the headings. -/
def Format.headingsKey : Format → String
  | html => "headings_css"
  | latex => "headings"

/-- What a template can use: the values of the front matter and, over these, the parts of the
output. -/
def Output.variables (o : Output) : Dict String :=
  ((o.values.insert "content" o.content).insert "toc" o.contents).insert o.format.headingsKey
    o.headings

end Treatise
