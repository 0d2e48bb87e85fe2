import Treatise.Dict
import Treatise.Toml.Binary64
import Treatise.Toml.Moment

/-!
# Values

The values that a TOML document holds, and their text.

* `Value` — a value; the entries of a table are in ascending order of their keys;
* `Value.render` — a value in the notation of a TOML document, on one line where it can be.
-/

namespace Treatise.Toml

inductive Value where
  | string (s : String)
  | integer (n : Int)
  | float (x : Binary64)
  | boolean (b : Bool)
  | moment (m : Moment)
  | array (items : List Value)
  | table (entries : List (String × Value))

/-! ## Strings -/

/-- How a string is written. -/
inductive Quoting where
  /-- In double quotes, with escapes. -/
  | basic
  /-- In single quotes, as it is. -/
  | literal
  /-- In three double quotes, with escapes, over several lines. -/
  | longBasic
  /-- In three single quotes, as it is, over several lines. -/
  | longLiteral
  deriving DecidableEq, Repr

/-- The length of the longest run of a character. -/
def longestRun (c : Char) (s : List Char) : Nat :=
  (s.foldl (fun (best, current) d =>
    let current := if d = c then current + 1 else 0
    (max best current, current)) (0, 0)).1

/-- A control character that only an escape can give, where line feeds may stand as they are. -/
def needsEscape (c : Char) : Bool := (c.toNat ≤ 0x1F && c != '\t' && c != '\n') || c.toNat == 0x7F

/-- The first way to write a text, of those that need no escape and, failing these, with escapes. -/
def chooseQuoting (s : List Char) : Quoting :=
  let controls := s.any needsEscape
  let backslash := s.contains '\\'
  let newline := s.contains '\n'
  let doubles := longestRun '"' s
  let singles := longestRun '\'' s
  if !controls ∧ !backslash ∧ doubles = 0 ∧ !newline then .basic
  else if !controls ∧ singles = 0 ∧ !newline then .literal
  else if !controls ∧ !backslash ∧ doubles ≤ 2 then .longBasic
  else if !controls ∧ singles ≤ 2 then .longLiteral
  else if newline then .longBasic
  else .basic

/-- A code point as four hexadecimal digits. -/
def hexCode (n : Nat) : List Char :=
  let digits := (Nat.toDigits 16 n).map Char.toUpper
  List.replicate (4 - digits.length) '0' ++ digits

/-- A character of a text with escapes. `quotes` is the length of the run of double quotes that ends
at the character, and `long` says whether lines may end in the text. -/
def escapeChar (long : Bool) (quotes : Nat) (c : Char) : List Char :=
  match c with
  | '"' => if long && quotes ≤ 2 then ['"'] else ['\\', '"']
  | '\\' => ['\\', '\\']
  | '\x08' => ['\\', 'b']
  | '\t' => ['\\', 't']
  | '\n' => if long then ['\n'] else ['\\', 'n']
  | '\x0c' => ['\\', 'f']
  | '\r' => ['\\', 'r']
  | c => if needsEscape c then '\\' :: 'u' :: hexCode c.toNat else [c]

/-- A text with escapes. An escaped quote ends a run of quotes. -/
def escapeText (long : Bool) : (quotes : Nat) → List Char → List Char
  | _, [] => []
  | quotes, c :: s =>
    let quotes := if c = '"' then quotes + 1 else 0
    escapeChar long quotes c ++ escapeText long (if quotes ≤ 2 then quotes else 0) s

def renderString (s : String) : String :=
  let cs := s.toList
  let lead := if cs.contains '\n' then "\n" else ""
  match chooseQuoting cs with
  | .basic => "\"" ++ String.ofList (escapeText false 0 cs) ++ "\""
  | .literal => "'" ++ s ++ "'"
  | .longBasic => "\"\"\"" ++ lead ++ String.ofList (escapeText true 0 cs) ++ "\"\"\""
  | .longLiteral => "'''" ++ lead ++ s ++ "'''"

def isBareKeyChar (c : Char) : Bool := c.isAlphanum || c == '_' || c == '-'

/-- A key, without quotes where it needs none. No control character stands in it as it is. -/
def renderKey (s : String) : String :=
  let cs := s.toList
  let controls := cs.any fun c => needsEscape c || c == '\n' || c == '\t'
  if !cs.isEmpty ∧ cs.all isBareKeyChar then s
  else if !controls ∧ !cs.contains '\\' ∧ !cs.contains '"' then "\"" ++ s ++ "\""
  else if !controls ∧ !cs.contains '\'' then "'" ++ s ++ "'"
  else "\"" ++ String.ofList (escapeText false 0 cs) ++ "\""

/-! ## Values -/

/-- Pieces between brackets, with a separator. -/
def bracketed (opening closing : String) (pieces : List String) : String :=
  opening ++ ", ".intercalate pieces ++ closing

/-- Entries as an inline table. -/
def inlineTable (pieces : List String) : String :=
  if pieces.isEmpty then "\x7b\x7d" else bracketed "\x7b " " \x7d" pieces

mutual

/-- A value on its own line of a document. -/
def Value.render : Value → String
  | .string s => renderString s
  | .integer n => if n < 0 then "-" ++ Nat.repr n.natAbs else Nat.repr n.natAbs
  | .float x => x.render
  | .boolean b => if b then "true" else "false"
  | .moment m => m.render
  | .array items => bracketed "[" "]" (renderItems items)
  | .table entries => inlineTable (renderEntries entries)

def renderItems : List Value → List String
  | [] => []
  | v :: vs => v.render :: renderItems vs

def renderEntries : List (String × Value) → List String
  | [] => []
  | (key, v) :: entries => (renderKey key ++ " = " ++ v.render) :: renderEntries entries

end

end Treatise.Toml
