import Treatise.Markdown.LinkTarget

/-!
# Inline content

What running text consists of when its markup is resolved.
-/

namespace Treatise.Markdown

inductive Inline where
  | text (s : List Char)
  | softBreak
  | hardBreak
  | code (s : List Char)
  | math (display : Bool) (s : List Char)
  /-- Raw HTML. -/
  | html (s : List Char)
  | emphasis (content : List Inline)
  | strong (content : List Inline)
  | strikethrough (content : List Inline)
  | link (target : LinkTarget) (content : List Inline)
  | image (target : LinkTarget) (content : List Inline)

end Treatise.Markdown
