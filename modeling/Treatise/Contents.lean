import Treatise.Text.Search
import Treatise.Tree.Node

/-!
# Tables of contents

The table of contents is a tree over the dotted section numbers: the entry of `2.1` is below the
entry `2`. Entries keep the order in which they came. An entry that exists only because of an entry
below it has no title.
-/

namespace Treatise

structure ContentsEntry where
  /-- The last component of the number. -/
  segment : String
  title : Option String
  entries : List ContentsEntry

abbrev Contents := List ContentsEntry

namespace Contents

/-- Changes the first entry with a segment, or a new one at the end. -/
def modifyEntry (segment : String) (f : ContentsEntry → ContentsEntry) : Contents → Contents
  | [] => [f ⟨segment, none, []⟩]
  | e :: es => if e.segment = segment then f e :: es else e :: modifyEntry segment f es

/-- Gives the entry at a path of segments a title. -/
def insertAt (title : String) : (path : List String) → Contents → Contents
  | [], es => es
  | [segment], es => modifyEntry segment (fun e => { e with title := some title }) es
  | segment :: path, es =>
    modifyEntry segment (fun e => { e with entries := insertAt title path e.entries }) es

/-- The components of a dotted number. -/
def segments (number : String) : List String :=
  (Text.splitAll '.' number.toList).map String.ofList

/-- Gives the entry of a dotted number a title. -/
def insert (c : Contents) (number title : String) : Contents :=
  insertAt title (segments number) c

/-! ## As a node -/

/-- The number of an entry below the entry of a number, or at the top. -/
def joinNumber (above segment : String) : String :=
  if above.isEmpty then segment else above ++ "." ++ segment

def linkNode (number title : String) : Node :=
  { (Node.ofTag .link).setAttr "href" ("#sec" ++ number) with
    children := [(Node.span .sectionNumber).setText number, (Node.span .tocTitle).setText title] }

/-- Items as a list; there is no list without items. -/
def listNodes (items : List Node) : List Node :=
  if items.isEmpty then [] else [{ Node.ofTag (.list false 1) with children := items }]

mutual

/-- An entry as an item. Only an entry with a title links to a section. -/
def itemNode (number : String) : ContentsEntry → Node
  | ⟨_, title, entries⟩ =>
    { (Node.ofTag .item).setAttr "path" number with
      children := (title.map (linkNode number)).toList ++ listNodes (itemNodes number entries) }

/-- The entries below a number as items. -/
def itemNodes (above : String) : List ContentsEntry → List Node
  | [] => []
  | e :: es => itemNode (joinNumber above e.segment) e :: itemNodes above es

end

def toNode (c : Contents) : Node :=
  { Node.ofTag .toc with children := listNodes (itemNodes "" c) }

end Contents

end Treatise
