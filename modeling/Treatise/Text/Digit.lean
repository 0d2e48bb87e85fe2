/-!
# Digits

The values of decimal and hexadecimal digits.
-/

namespace Treatise.Text

def decimalValue (digits : List Char) : Nat :=
  digits.foldl (fun n d => 10 * n + (d.toNat - '0'.toNat)) 0

/-- The value of a hexadecimal digit. -/
def hexDigit? (c : Char) : Option Nat :=
  if c.isDigit then some (c.toNat - '0'.toNat)
  else if 'a' ≤ c ∧ c ≤ 'f' then some (c.toNat - 'a'.toNat + 10)
  else if 'A' ≤ c ∧ c ≤ 'F' then some (c.toNat - 'A'.toNat + 10)
  else none

/-- The value of digits in a base; other characters count as zero. -/
def digitsValue (base : Nat) (digits : List Char) : Nat :=
  digits.foldl (fun n d => base * n + (hexDigit? d).getD 0) 0

end Treatise.Text
