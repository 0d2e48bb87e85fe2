/-!
# Issues

What can be wrong with a document. No issue stops a conversion: each is a warning, with the place
it is about where there is one.
-/

namespace Treatise

/-- The cause of an issue. -/
inductive IssueKind where
  /-- A statement was still open at the end. -/
  | unterminatedBlock (block : String)
  /-- A reference to a label that does not exist. -/
  | unresolvedReference (key : String)
  /-- A citation without a bibliography entry. -/
  | unknownCitation (key : String)
  /-- An abbreviation with a faulty parameter list. -/
  | invalidMacro (name reason : String)
  /-- A `key=value` option that could not be understood. -/
  | malformedRenderOption (option reason : String)
  /-- Front matter that could not be read. -/
  | malformedFrontMatter (reason : String)
  deriving DecidableEq, Repr

def IssueKind.message : IssueKind → String
  | unterminatedBlock block => "unterminated " ++ block ++ " block (missing `\x7b\x7d`)"
  | unresolvedReference key => "undefined reference '" ++ key ++ "'"
  | unknownCitation key => "no bibliography entry for citation '" ++ key ++ "'"
  | invalidMacro name reason => "invalid macro '\\" ++ name ++ "': " ++ reason
  | malformedRenderOption option reason =>
    "malformed render option '" ++ option ++ "': " ++ reason
  | malformedFrontMatter reason => "malformed front matter: " ++ reason

/-- A range of bytes of the expanded source: from `start` up to `stop`. -/
structure Span where
  start : Nat
  stop : Nat
  deriving DecidableEq, Repr

structure Issue where
  kind : IssueKind
  span : Option Span
  /-- The number of the file that the issue is about. -/
  fileId : Nat
  notes : List String := []
  deriving DecidableEq, Repr

def Issue.message (i : Issue) : String := i.kind.message

end Treatise
