import Treatise.Abbreviation.Body
import Treatise.Text.Blank

/-!
# Definitions of abbreviations

A definition is one line of the form

    \name = { body };
    \name(x, y=default) = { body };

where the name consists of ASCII letters. Lines of any other form define nothing. A definition whose
parameter list is faulty still counts as one, but is marked as invalid and never expands.
-/

namespace Treatise.Abbreviation

structure Param where
  name : List Char
  default : Option (List Char)
  deriving DecidableEq, Repr

/-- What is wrong with a parameter list. -/
inductive ParamFault where
  | emptyName
  | duplicate (name : List Char)
  /-- A parameter without a default after one that has one. -/
  | requiredAfterDefault (name : List Char)
  deriving DecidableEq, Repr

def ParamFault.message : ParamFault → String
  | emptyName => "empty parameter name"
  | duplicate name => "duplicate parameter '" ++ String.ofList name ++ "'"
  | requiredAfterDefault name =>
    "required parameter '" ++ String.ofList name ++ "' follows a parameter with a default"

structure Definition where
  name : List Char
  params : List Param
  body : Body
  /-- The first thing wrong with the parameter list. -/
  fault : Option ParamFault
  deriving DecidableEq, Repr

/-- Only a definition without fault expands. -/
def Definition.isValid (d : Definition) : Bool := d.fault.isNone

/-- The pieces of a text between the commas that stand outside braces; a closing brace without an
opening one is ignored. -/
def splitTopLevel : (depth : Nat) → List Char → List (List Char)
  | _, [] => [[]]
  | depth, c :: s =>
    if c = ',' ∧ depth = 0 then [] :: splitTopLevel 0 s
    else
      let depth := if c = '{' then depth + 1 else if c = '}' then depth - 1 else depth
      match splitTopLevel depth s with
      | [] => [[c]]
      | l :: ls => (c :: l) :: ls

/-- The text without one pair of braces around it. -/
def stripGroup (s : List Char) : List Char :=
  match s with
  | '{' :: rest => (Text.stripEnd? ['}'] rest).getD s
  | _ => s

/-- One item of a parameter list: a name, and after the first `=` a default. -/
def Param.ofItem (item : List Char) : Param :=
  match Text.splitOnce? '=' item with
  | some (name, default) => ⟨Text.trim name, some (stripGroup (Text.trim default))⟩
  | none => ⟨Text.trim item, none⟩

/-- What is wrong with a parameter that follows others. The later of two faults is reported only if
the earlier does not hold. -/
def Param.fault? (before : List Param) (p : Param) : Option ParamFault :=
  if p.name.isEmpty then some .emptyName
  else if before.any (·.name == p.name) then some (.duplicate p.name)
  else if p.default.isNone && before.any (·.default.isSome) then
    some (.requiredAfterDefault p.name)
  else none

/-- Reads items in turn. Items without a name are left out, all others are kept, and the first fault
is remembered. -/
def readItems : (params : List Param) → (fault : Option ParamFault) → List (List Char) →
    List Param × Option ParamFault
  | params, fault, [] => (params, fault)
  | params, fault, item :: items =>
    let p := Param.ofItem item
    let fault := fault <|> p.fault? params
    if p.name.isEmpty then readItems params fault items
    else readItems (params ++ [p]) fault items

/-- Reads the text between the parentheses; blank text has no parameters. -/
def readParams (list : List Char) : List Param × Option ParamFault :=
  if Text.isAllBlank list then ([], none) else readItems [] none (splitTopLevel 0 list)

/-- The text between the braces of `{ body };`. -/
def readBody? (s : List Char) : Option (List Char) := do
  let s ← Text.stripEnd? [';'] (Text.trim s)
  let s ← Text.stripStart? ['{'] (Text.trimEnd s)
  let s ← Text.stripEnd? ['}'] s
  pure (Text.trim s)

/-- Reads the part of a definition after its name: the text of the parameter list, if there is one,
and the body. -/
def readSignature? (s : List Char) : Option (Option (List Char) × List Char) :=
  match Text.trimStart s with
  | '(' :: s => do
    let (list, s) ← Text.splitOnce? ')' s
    let s ← Text.stripStart? ['='] (Text.trimStart s)
    pure (some list, ← readBody? s)
  | s => do
    let s ← Text.stripStart? ['='] s
    pure (none, ← readBody? s)

def Definition.ofLine? (line : List Char) : Option Definition := do
  let s ← Text.stripStart? ['\\'] (Text.trim line)
  let name := s.takeWhile Char.isAlpha
  if name.isEmpty then none
  else
    let (list, body) ← readSignature? (s.dropWhile Char.isAlpha)
    let (params, fault) := readParams (list.getD [])
    pure ⟨name, params, Body.compile body (params.map (·.name)), fault⟩

end Treatise.Abbreviation
