import Treatise.Text.Blank
import Treatise.Text.Search

/-!
# What a proof is a proof of

A proof may carry a name of the form `of <subject>`. The subject is a label when it is `#` and a key
without blanks, and free text otherwise.
-/

namespace Treatise

inductive Subject where
  /-- The statement that a label stands at. -/
  | reference (key : String)
  /-- A description in words. -/
  | text (words : String)
  deriving DecidableEq, Repr

/-- The text is not empty and holds no blank. -/
def isKey (s : List Char) : Bool := !s.isEmpty && !s.any Text.isBlank

/-- Reads the subject off a name; a name without the form `of <subject>` has none. -/
def Subject.ofName? (name : List Char) : Option Subject :=
  match Text.after? "of" (Text.trim name) with
  | none => none
  | some rest =>
    match rest with
    | [] => none
    | c :: _ =>
      if Text.isBlank c then
        match Text.trim rest with
        | [] => none
        | '#' :: key =>
          if isKey key then some (.reference (String.ofList key))
          else some (.text (String.ofList ('#' :: key)))
        | words => some (.text (String.ofList words))
      else none

end Treatise
