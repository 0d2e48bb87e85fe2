import Treatise.Abbreviation.Call
import Treatise.Issue
import Treatise.Text.Case
import Treatise.Text.Line

/-!
# Expansion of abbreviations

A document may hold one region of definitions between two marker lines such as
`=== Abbreviations ===`. The region is replaced by a line end, and every valid abbreviation is applied
to the rest of the document in the order of the definitions. Each gets one pass from left to right
(`Definition.apply`): what a call stands for is not searched for further calls of the same name.
-/

namespace Treatise.Abbreviation

/-! ## One pass -/

/-- The text with every complete call replaced. A name without a complete call stays, and the search
goes on behind it. -/
def Definition.apply (d : Definition) (s : List Char) : List Char :=
  match s with
  | [] => []
  | c :: s =>
    match _name : Text.stripStart? ('\\' :: d.name) (c :: s) with
    | none => c :: d.apply s
    | some after =>
      match _call : d.call? after with
      | some (value, rest) => value ++ d.apply rest
      | none => '\\' :: d.name ++ d.apply after
termination_by s.length
decreasing_by
  · simp
  · have hname := congrArg List.length (Text.stripStart?_eq_some_iff.1 _name)
    have hcall := Definition.length_of_call? _call
    simp at hname ⊢; omega
  · have hname := congrArg List.length (Text.stripStart?_eq_some_iff.1 _name)
    simp at hname ⊢; omega

/-! ## The region -/

/-- A line of three or more `=`, the word for abbreviations in any ASCII case, and three or more
`=`. -/
def isMarkerLine (line : List Char) : Bool :=
  let line := Text.trim line
  let lead := (line.takeWhile (· == '=')).length
  let trail := (line.reverse.takeWhile (· == '=')).length
  let middle := (line.drop lead).take (line.length - lead - trail)
  lead ≥ 3 && trail ≥ 3 && lead + trail < line.length &&
    Text.toAsciiLower (Text.trim middle) == "abbreviations".toList

structure Region where
  before : List Char
  /-- The lines between the two marker lines. -/
  definitions : List (List Char)
  after : List Char

/-- The region between the first two marker lines, if there are two. -/
def Region.find? (source : List Char) : Option Region :=
  let (before, rest) := (Text.splitLines source).span (!isMarkerLine ·)
  match rest with
  | [] => none
  | _ :: rest =>
    let (inner, rest) := rest.span (!isMarkerLine ·)
    match rest with
    | [] => none
    | _ :: rest => some ⟨before.flatten, inner.map Text.chompLine, rest.flatten⟩

/-! ## The whole document -/

structure Expansion where
  text : List Char
  /-- All definitions, valid or not. -/
  definitions : List Definition
  issues : List Issue

/-- The warning about a definition with a fault. -/
def Definition.issue? (fileId : Nat) (d : Definition) : Option Issue :=
  d.fault.map fun fault => ⟨.invalidMacro (String.ofList d.name) fault.message, none, fileId, []⟩

def expand (source : List Char) (fileId : Nat) : Expansion :=
  match Region.find? source with
  | none => ⟨source, [], []⟩
  | some region =>
    let definitions := region.definitions.filterMap Definition.ofLine?
    let text := region.before ++ '\n' :: region.after
    ⟨(definitions.filter (·.isValid)).foldl (fun text d => d.apply text) text, definitions,
      definitions.filterMap (·.issue? fileId)⟩

end Treatise.Abbreviation
