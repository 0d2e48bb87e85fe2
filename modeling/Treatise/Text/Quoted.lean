import Treatise.Text.Printed

/-!
# Quoted text

Two notations for a text between double quotes: that of JSON, which keeps all characters but controls,
and that of a dump, which shows only printed characters as they are.
-/

namespace Treatise.Text

def jsonChar (c : Char) : List Char :=
  match c with
  | '"' => ['\\', '"']
  | '\\' => ['\\', '\\']
  | '\x08' => ['\\', 'b']
  | '\x0c' => ['\\', 'f']
  | '\n' => ['\\', 'n']
  | '\r' => ['\\', 'r']
  | '\t' => ['\\', 't']
  | c =>
    if c.toNat < 0x20 then
      "\\u00".toList ++ [Nat.digitChar (c.toNat / 16), Nat.digitChar (c.toNat % 16)]
    else [c]

/-- A text as a JSON string. -/
def quoteJson (s : String) : String := "\"" ++ String.ofList (s.toList.flatMap jsonChar) ++ "\""

def dumpChar (c : Char) : List Char :=
  match c with
  | '\x00' => ['\\', '0']
  | '"' => ['\\', '"']
  | '\\' => ['\\', '\\']
  | '\n' => ['\\', 'n']
  | '\r' => ['\\', 'r']
  | '\t' => ['\\', 't']
  | c => if isPrinted c then [c] else "\\u\x7b".toList ++ Nat.toDigits 16 c.toNat ++ ['}']

/-- A text in a dump. -/
def quoteDump (s : String) : String := "\"" ++ String.ofList (s.toList.flatMap dumpChar) ++ "\""

end Treatise.Text
