import Treatise.Dict
import Treatise.Text.Blank
import Treatise.Text.Search

/-!
# Templates

A template is text with places `\{\{ key \}\}` for values. It is read once, from left to right: where a
place stands its value is put out, and reading goes on behind the place.
-/

namespace Treatise.Template

/-- The key of a place with all that stands between its braces, without the blanks around it. -/
def keyOf (inner : List Char) : String := String.ofList (Text.trim inner)

/-- The value for a place: unknown keys stand for nothing. -/
def valueOf (values : Dict String) (inner : List Char) : List Char :=
  ((values.get? (keyOf inner)).getD "").toList

/-- Cuts a text at its first place: what is before, what is between the braces, what is behind. -/
def firstPlace? (s : List Char) : Option (List Char × List Char × List Char) := do
  let (before, s) ← Text.splitAt? ['{', '{'] s
  let (inner, s) ← Text.splitAt? ['}', '}'] s
  pure (before, inner, s)

theorem eq_of_firstPlace? {s before inner rest : List Char}
    (h : firstPlace? s = some (before, inner, rest)) :
    s = before ++ ['{', '{'] ++ (inner ++ ['}', '}'] ++ rest) := by
  simp only [firstPlace?, bind, Option.bind_eq_some_iff, Prod.exists, pure, Option.some.injEq,
    Prod.mk.injEq] at h
  obtain ⟨a, t, hopen, i, r, hclose, rfl, rfl, rfl⟩ := h
  rw [(Text.splitAt?_eq_some_iff.1 hopen).1, (Text.splitAt?_eq_some_iff.1 hclose).1]

/-- A text with values in its places. Braces that are not closed are text. -/
def fill (values : Dict String) (s : List Char) : List Char :=
  match _place : firstPlace? s with
  | none => s
  | some (before, inner, rest) => before ++ valueOf values inner ++ fill values rest
termination_by s.length
decreasing_by
  rw [eq_of_firstPlace? _place]
  simp only [List.length_append, List.length_cons, List.length_nil]
  omega

def substitute (template : String) (values : Dict String) : String :=
  String.ofList (fill values template.toList)

/-- The template that is the content of the document and nothing else. -/
def standard : String := "\x7b\x7b content \x7d\x7d"

end Treatise.Template
