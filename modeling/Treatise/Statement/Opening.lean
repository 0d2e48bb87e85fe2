import Treatise.Statement.Basic

/-!
# How a statement begins

A statement is opened by a text of the form

    [\{#label}] Kind[*] [(name)] [[references]] : body

where only the kind and the colon are required. A proof takes no references, and its name must be of
the form `of <subject>`. Any text of another form opens nothing.
-/

namespace Treatise

structure Opening where
  label : Option (List Char)
  kind : Kind
  /-- A star behind the kind: the statement takes no number. -/
  starred : Bool
  name : Option (List Char)
  references : Option (List Char)
  subject : Option Subject
  /-- What stands behind the colon. -/
  rest : List Char
  deriving DecidableEq, Repr

namespace Opening

/-- A capital ASCII letter followed by small ones only. -/
def isKindShaped : List Char → Bool
  | [] => false
  | c :: s => c.isUpper && s.all Char.isLower

/-- Reads a group of brackets, if there is one: its text without the blanks around it, and what
follows without the blanks in front. An opening bracket must be closed. -/
def readGroup? (opening closing : Char) (s : List Char) :
    Option (Option (List Char) × List Char) :=
  match s with
  | [] => some (none, s)
  | c :: rest =>
    if c = opening then
      (Text.splitOnce? closing rest).map fun p => (some (Text.trim p.1), Text.trimStart p.2)
    else some (none, s)

/-- The key of a label group from the text between its braces. -/
def labelKey? (inner : List Char) : Option (List Char) := do
  let key ← Text.stripStart? ['#'] (Text.trim inner)
  let key := Text.trim key
  if isKey key then some key else none

/-- Reads a label, if the text begins with a brace, and what follows without the blanks in front. -/
def readLabel? (s : List Char) : Option (Option (List Char) × List Char) :=
  match s with
  | '{' :: rest => do
    let (inner, rest) ← Text.splitOnce? '}' rest
    let key ← labelKey? inner
    pure (some key, Text.trimStart rest)
  | _ => some (none, s)

/-- The subject of a statement of this kind: only a proof has one, and a proof with a name must. -/
def subject? (kind : Kind) (name references : Option (List Char)) : Option (Option Subject) :=
  if kind.isProof then
    if references.isSome then none
    else
      match name with
      | none => some none
      | some name => (Subject.ofName? name).map some
  else some none

/-- A text that is there and not empty. -/
def nonEmpty (s : Option (List Char)) : Option (List Char) := s.filter (!·.isEmpty)

def read? (text : List Char) : Option Opening := do
  let (label, s) ← readLabel? (Text.trimStart text)
  let word := s.takeWhile Char.isAlpha
  let s := s.dropWhile Char.isAlpha
  if !isKindShaped word then none
  else
    let starred := s.head? == some '*'
    let s := if starred then s.drop 1 else s
    let (name, s) ← readGroup? '(' ')' (Text.trimStart s)
    let (references, s) ← readGroup? '[' ']' s
    let rest ← Text.stripStart? [':'] s
    let kind ← Kind.ofName? (String.ofList word)
    let subject ← subject? kind name references
    pure ⟨label, kind, starred, nonEmpty name, nonEmpty references, subject, Text.trimStart rest⟩

end Opening

end Treatise
