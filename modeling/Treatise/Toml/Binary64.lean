/-!
# Binary floating point

Numbers with a significand of 53 bits, as text in decimal. Reading rounds to the nearest number, ties
to the even significand. Writing gives the fewest digits that read back as the number and, of those,
the ones nearest to it. All arithmetic is exact, in natural numbers.
-/

namespace Treatise.Toml

/-- A number: `significand * 2 ^ exponent`, with a sign, or no finite one. A significand below
`2 ^ 52` goes with the least exponent only. -/
inductive Binary64 where
  | finite (negative : Bool) (significand : Nat) (exponent : Int)
  | infinite (negative : Bool)
  | nan
  deriving DecidableEq, Repr

namespace Binary64

def minExponent : Int := -1074

def maxExponent : Int := 971

/-- `num / den` times `base` to the power `-k`, as a fraction. -/
def scaleDown (base : Nat) (k : Int) (num den : Nat) : Nat × Nat :=
  if 0 ≤ k then (num, den * base.pow k.toNat) else (num * base.pow (-k).toNat, den)

/-- The quotient rounded to the nearest natural number, ties to the even one. -/
def roundHalfEven (num den : Nat) : Nat :=
  let q := num / den
  let r := num % den
  if 2 * r < den then q
  else if den < 2 * r then q + 1
  else if q % 2 = 0 then q else q + 1

/-- The number nearest to a positive fraction. -/
def ofFraction (negative : Bool) (num den : Nat) : Binary64 :=
  let guess : Int := (num.log2 : Int) - den.log2 - 52
  let (n, d) := scaleDown 2 guess num den
  let exponent := if n < d * Nat.pow 2 52 then guess - 1 else guess
  let exponent := max exponent minExponent
  let (n, d) := scaleDown 2 exponent num den
  let significand := roundHalfEven n d
  let (significand, exponent) :=
    if significand = Nat.pow 2 53 then (Nat.pow 2 52, exponent + 1) else (significand, exponent)
  if maxExponent < exponent then infinite negative else finite negative significand exponent

def digitCount (n : Nat) : Nat := (Nat.toDigits 10 n).length

/-- The number nearest to `digits * 10 ^ exponent`. -/
def ofDecimal (negative : Bool) (digits : Nat) (exponent : Int) : Binary64 :=
  let magnitude := (digitCount digits : Int) + exponent
  if digits = 0 ∨ magnitude < -400 then finite negative 0 minExponent
  else if 400 < magnitude then infinite negative
  else
    let (num, den) := scaleDown 10 (-exponent) digits 1
    ofFraction negative num den

/-- The numbers that read back as a positive number: a range of fractions with one denominator, and
whether its ends belong to it. -/
structure Neighbourhood where
  low : Nat
  value : Nat
  high : Nat
  den : Nat
  closed : Bool

def neighbourhood (significand : Nat) (exponent : Int) : Neighbourhood :=
  let (unit, den) := scaleDown 2 (-exponent) 1 1
  let below := if significand = Nat.pow 2 52 ∧ minExponent < exponent then 1 else 2
  { low := (4 * significand - below) * unit
    value := 4 * significand * unit
    high := (4 * significand + 2) * unit
    den := 4 * den
    closed := significand % 2 = 0 }

/-- Whether `digits * 10 ^ exponent` reads back as the number. -/
def Neighbourhood.contains (n : Neighbourhood) (digits : Nat) (exponent : Int) : Bool :=
  let (x, d) := scaleDown 10 (-exponent) digits 1
  let x := x * n.den
  if n.closed then n.low * d ≤ x && x ≤ n.high * d else n.low * d < x && x < n.high * d

/-- The least exponent of ten whose power is greater than a positive fraction. -/
def decimalMagnitude (num den : Nat) : Int :=
  let guess : Int := (digitCount num : Int) - digitCount den
  let (n, d) := scaleDown 10 guess num den
  if n < d then guess else guess + 1

/-- The digits nearest to the number, of the grid with the given number of digits, if they read
back. -/
def Neighbourhood.onGrid? (n : Neighbourhood) (magnitude : Int) (count : Nat) :
    Option (Nat × Int) :=
  let exponent := magnitude - count
  let (x, d) := scaleDown 10 exponent n.value n.den
  let down := x / d
  let up := down + 1
  let nearer := if 2 * (x % d) ≤ d then down else up
  let farther := if nearer = down then up else down
  if n.contains nearer exponent then some (nearer, exponent)
  else if n.contains farther exponent then some (farther, exponent)
  else none

/-- The fewest digits that read back as a positive number, and the exponent of the last one. -/
def shortest (significand : Nat) (exponent : Int) : Nat × Int :=
  let n := neighbourhood significand exponent
  let magnitude := decimalMagnitude n.value n.den
  (((List.range 17).findSome? fun i => n.onGrid? magnitude (i + 1)).getD (0, 0))

def digitsText (n : Nat) : List Char := Nat.toDigits 10 n

/-- `digits * 10 ^ exponent` in positional notation, with at least one digit on each side of the
point. -/
def positional (digits : Nat) (exponent : Int) : List Char :=
  let ds := digitsText digits
  if 0 ≤ exponent then ds ++ List.replicate exponent.toNat '0' ++ ['.', '0']
  else
    let places := (-exponent).toNat
    let ds := List.replicate (places + 1 - ds.length) '0' ++ ds
    let fraction := (ds.drop (ds.length - places)).reverse.dropWhile (· == '0')
    ds.take (ds.length - places) ++ '.' :: (if fraction.isEmpty then ['0'] else fraction.reverse)

def render : Binary64 → String
  | finite negative significand exponent =>
    let digits := if significand = 0 then ['0', '.', '0'] else
      let (digits, exponent) := shortest significand exponent
      positional digits exponent
    String.ofList (if negative then '-' :: digits else digits)
  | infinite negative => if negative then "-inf" else "inf"
  | nan => "nan"

end Binary64

end Treatise.Toml
