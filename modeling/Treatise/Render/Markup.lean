/-!
# HTML

A fragment of HTML as a tree. It becomes text in one place only, `Html.print`, which escapes texts and
attribute values, so that no text of a document can open or close an element.
-/

namespace Treatise

inductive Html where
  | text (s : String)
  /-- Markup that is passed through as it is. -/
  | raw (s : String)
  | element (name : String) (attrs : List (String × String)) (content : List Html)
  /-- An element without content or end tag. -/
  | void (name : String) (attrs : List (String × String))

namespace Html

/-- A character of a text. -/
def escapeTextChar : Char → List Char
  | '&' => "&amp;".toList
  | '<' => "&lt;".toList
  | '>' => "&gt;".toList
  | c => [c]

/-- A character of an attribute value. -/
def escapeValueChar : Char → List Char
  | '"' => "&quot;".toList
  | c => escapeTextChar c

def escapeText (s : String) : String := String.ofList (s.toList.flatMap escapeTextChar)

def escapeValue (s : String) : String := String.ofList (s.toList.flatMap escapeValueChar)

/-- Attributes, each with a blank in front. -/
def printAttrs : List (String × String) → String
  | [] => ""
  | (name, value) :: attrs =>
    " " ++ name ++ "=\"" ++ escapeValue value ++ "\"" ++ printAttrs attrs

mutual

def print : Html → String
  | text s => escapeText s
  | raw s => s
  | element name attrs content =>
    "<" ++ name ++ printAttrs attrs ++ ">" ++ printAll content ++ "</" ++ name ++ ">"
  | void name attrs => "<" ++ name ++ printAttrs attrs ++ " />"

def printAll : List Html → String
  | [] => ""
  | h :: hs => print h ++ printAll hs

end

end Html

end Treatise
