import Treatise.Path
import Treatise.Text.Case
import Treatise.Tree.Node

/-!
# Print forms of images

On paper a PDF or EPS file is better than a bitmap. So an image that is a bitmap is replaced by such a
file with the same name, where there is one.
-/

namespace Treatise

/-- Whether there is a file at a path. -/
abbrev AssetProbe := String → Bool

/-- There are no files. -/
def noAssets : AssetProbe := fun _ => false

def isBitmap (src : List Char) : Bool :=
  match Path.extension? src with
  | some ext =>
    ["png", "jpg", "jpeg", "gif"].contains (String.ofList (Text.toAsciiLower ext))
  | none => false

/-- The files that are better on paper, the best first. -/
def printCandidates (src : String) : List String :=
  if isBitmap src.toList then
    match Path.splitLast? '.' src.toList with
    | some (stem, _) => ["pdf", "eps"].map fun ext => String.ofList stem ++ "." ++ ext
    | none => []
  else []

/-- The best file for an image on paper. -/
def printForm (exists? : AssetProbe) (src : String) : String :=
  ((printCandidates src).find? exists?).getD src

def Node.source (n : Node) : String := (n.attr? "src").getD ""

/-- All files below a node that may be better on paper than its images. -/
def Node.printCandidates (n : Node) : List String :=
  (n.findAll (·.tag == .image)).flatMap fun image => Treatise.printCandidates image.source

end Treatise
