import Treatise.Abbreviation.Expansion
import Treatise.Assembly
import Treatise.FrontMatter
import Treatise.Tree.Growth

/-!
# Documents

A document is read in three steps: its abbreviations are expanded, its front matter is split off, and
the chunks of the body are assembled to a tree. Reading never fails; what is wrong is an issue.
-/

namespace Treatise

structure Document where
  /-- The tree, without sections and numbers. -/
  root : Node
  /-- The values of the front matter. -/
  values : Dict String
  /-- The abbreviations, valid or not. -/
  definitions : List Abbreviation.Definition
  /-- The text with its abbreviations expanded, which the spans of issues refer to. -/
  source : List Char
  fileId : Nat
  issues : List Issue

/-- The warning about front matter that is refused, which points at its first delimiter. -/
def FrontMatter.issues (f : FrontMatter) (fileId : Nat) : List Issue :=
  f.error.toList.map fun kind => ⟨kind, some ⟨0, 3⟩, fileId, []⟩

/-- Reads a document, with a reader for the table of its front matter. -/
def Document.parseWith (readTable : TableReader) (source : List Char) (fileId : Nat) :
    Document :=
  let expansion := Abbreviation.expand source fileId
  let front := FrontMatter.split readTable expansion.text
  let chunks := Chunk.split front.body front.bodyStart
  let (root, issues) := assemble readInto chunks fileId
  { root
    values := front.values
    definitions := expansion.definitions
    source := expansion.text
    fileId
    issues := expansion.issues ++ front.issues fileId ++ issues }

/-- Reads a document whose front matter is TOML. -/
def Document.parse (source : List Char) (fileId : Nat) : Document :=
  Document.parseWith Toml.parse? source fileId

end Treatise
