import Treatise.Text.Digit
import Treatise.Text.Search
import Treatise.Toml.Value

/-!
# Scalars

Readers for strings, numbers, dates and times. Each takes a text and gives the value that stands at
its start with what follows it, or nothing if no such value stands there.
-/

namespace Treatise.Toml

/-- A space or tab. -/
def isSpace (c : Char) : Bool := c == ' ' || c == '\t'

def skipSpaces (s : List Char) : List Char := s.dropWhile isSpace

/-- A control character that may not stand in a document, where line ends are looked at apart. -/
def isForbidden (c : Char) : Bool := (c.toNat ≤ 0x1F && c != '\t') || c.toNat == 0x7F

/-- Reads a line feed, alone or behind a carriage return. -/
def readNewline? (s : List Char) : Option (List Char) :=
  match s with
  | '\n' :: s => some s
  | '\r' :: '\n' :: s => some s
  | _ => none

/-! ## Strings -/

/-- Reads the code point of an escape, which has `count` hexadecimal digits. -/
def readCodePoint? (count : Nat) (s : List Char) : Option (Char × List Char) := do
  let digits := s.take count
  if digits.length < count then none
  else
    let n := Text.digitsValue 16 digits
    if digits.all (fun c => (Text.hexDigit? c).isSome) ∧ n.isValidChar then
      some (Char.ofNat n, s.drop count)
    else none

/-- Reads an escape behind its backslash. -/
def readEscape? (s : List Char) : Option (Char × List Char) :=
  match s with
  | 'b' :: s => some ('\x08', s)
  | 't' :: s => some ('\t', s)
  | 'n' :: s => some ('\n', s)
  | 'f' :: s => some ('\x0c', s)
  | 'r' :: s => some ('\r', s)
  | '"' :: s => some ('"', s)
  | '\\' :: s => some ('\\', s)
  | 'u' :: s => readCodePoint? 4 s
  | 'U' :: s => readCodePoint? 8 s
  | _ => none

/-- Reads the rest of a string in double quotes. The first argument bounds its length. -/
def readBasic? : (bound : Nat) → List Char → Option (List Char × List Char)
  | 0, _ => none
  | _ + 1, [] => none
  | bound + 1, c :: s =>
    if c = '"' then some ([], s)
    else if c = '\\' then do
      let (d, s) ← readEscape? s
      let (text, s) ← readBasic? bound s
      pure (d :: text, s)
    else if isForbidden c then none
    else (readBasic? bound s).map fun p => (c :: p.1, p.2)

/-- Reads the rest of a string in single quotes. -/
def readLiteral? : List Char → Option (List Char × List Char)
  | [] => none
  | c :: s =>
    if c = '\'' then some ([], s)
    else if isForbidden c then none
    else (readLiteral? s).map fun p => (c :: p.1, p.2)

/-- What follows a backslash at the end of a line: blanks and line ends are skipped. -/
def skipContinuation? (s : List Char) : Option (List Char) :=
  match readNewline? (skipSpaces s) with
  | none => none
  | some s => some (skip s.length s)
where
  /-- The text behind spaces and line ends, of which there are at most `bound`. -/
  skip : (bound : Nat) → List Char → List Char
    | 0, s => s
    | bound + 1, s =>
      match readNewline? (skipSpaces s) with
      | some s => skip bound s
      | none => skipSpaces s

/-- Reads the rest of a string over several lines, of the given quote. Up to two quotes may stand
directly in front of the closing three. -/
def readLong? (quote : Char) : (bound : Nat) → List Char → Option (List Char × List Char)
  | 0, _ => none
  | _ + 1, [] => none
  | bound + 1, c :: s =>
    if c = quote ∧ s.take 2 = [quote, quote] then
      let extra := min 2 ((s.drop 2).takeWhile (· == quote)).length
      some (List.replicate extra quote, s.drop (2 + extra))
    else if c = '\\' ∧ quote = '"' then
      match skipContinuation? s with
      | some s => readLong? quote bound s
      | none => do
        let (d, s) ← readEscape? s
        let (text, s) ← readLong? quote bound s
        pure (d :: text, s)
    else
      match readNewline? (c :: s) with
      | some s => (readLong? quote bound s).map fun p => ('\n' :: p.1, p.2)
      | none =>
        if isForbidden c then none
        else (readLong? quote bound s).map fun p => (c :: p.1, p.2)

/-- Reads a string of any kind. A line end directly behind three opening quotes does not count. -/
def readString? (s : List Char) : Option (List Char × List Char) :=
  match s with
  | '"' :: '"' :: '"' :: s => readLong? '"' (s.length + 1) ((readNewline? s).getD s)
  | '\'' :: '\'' :: '\'' :: s => readLong? '\'' (s.length + 1) ((readNewline? s).getD s)
  | '"' :: s => readBasic? (s.length + 1) s
  | '\'' :: s => readLiteral? s
  | _ => none

/-! ## Dates and times -/

/-- Reads a number of exactly `count` digits. -/
def readFixed? (count : Nat) (s : List Char) : Option (Nat × List Char) :=
  let digits := s.take count
  if digits.length = count ∧ digits.all Char.isDigit then
    some (Text.decimalValue digits, s.drop count)
  else none

def readDate? (s : List Char) : Option (Date × List Char) := do
  let (year, s) ← readFixed? 4 s
  let s ← Text.stripStart? ['-'] s
  let (month, s) ← readFixed? 2 s
  let s ← Text.stripStart? ['-'] s
  let (day, s) ← readFixed? 2 s
  let date : Date := ⟨year, month, day⟩
  if date.isValid then some (date, s) else none

/-- Reads the fraction of a second, if there is one, in billionths; further digits do not count. -/
def readFraction? (s : List Char) : Option (Nat × List Char) :=
  match s with
  | '.' :: s =>
    let digits := s.takeWhile Char.isDigit
    if digits.isEmpty then none
    else
      let padded := (digits ++ List.replicate 9 '0').take 9
      some (Text.decimalValue padded, s.drop digits.length)
  | s => some (0, s)

def readTime? (s : List Char) : Option (Time × List Char) := do
  let (hour, s) ← readFixed? 2 s
  let s ← Text.stripStart? [':'] s
  let (minute, s) ← readFixed? 2 s
  let s ← Text.stripStart? [':'] s
  let (second, s) ← readFixed? 2 s
  let (nanosecond, s) ← readFraction? s
  let time : Time := ⟨hour, minute, second, nanosecond⟩
  if time.isValid then some (time, s) else none

def readOffset? (s : List Char) : Option (Offset × List Char) :=
  match s with
  | [] => none
  | c :: s =>
    if c = 'Z' ∨ c = 'z' then some (.utc, s)
    else if c = '+' ∨ c = '-' then do
      let (hour, s) ← readFixed? 2 s
      let s ← Text.stripStart? [':'] s
      let (minute, s) ← readFixed? 2 s
      if hour ≤ 23 ∧ minute ≤ 59 then
        let count := 60 * hour + minute
        some (.minutes (c = '-' && count != 0) count, s)
      else none
    else none

/-- Reads a date, a time, or a date with a time behind a `T` or a space and perhaps an offset. -/
def readMoment? (s : List Char) : Option (Moment × List Char) :=
  match readDate? s with
  | none => (readTime? s).map fun (time, s) => (⟨none, some time, none⟩, s)
  | some (date, s) =>
    let time := match s with
      | c :: s => if c = 'T' ∨ c = 't' ∨ c = ' ' then readTime? s else none
      | [] => none
    match time with
    | none => some (⟨some date, none, none⟩, s)
    | some (time, s) =>
      match readOffset? s with
      | some (offset, s) => some (⟨some date, some time, some offset⟩, s)
      | none => some (⟨some date, some time, none⟩, s)

/-! ## Numbers -/

/-- Reads digits of a class; single underscores may stand between them. -/
def readDigits? (isDigit : Char → Bool) : List Char → Option (List Char × List Char)
  | [] => none
  | c :: s =>
    if isDigit c then
      match s with
      | '_' :: s =>
        match readDigits? isDigit s with
        | some (ds, rest) => some (c :: ds, rest)
        | none => some ([c], '_' :: s)
      | s =>
        match readDigits? isDigit s with
        | some (ds, rest) => some (c :: ds, rest)
        | none => some ([c], s)
    else none

/-- Reads decimal digits without a zero in front of others. -/
def readWhole? (s : List Char) : Option (List Char × List Char) :=
  match s with
  | '0' :: s => some (['0'], s)
  | s => readDigits? Char.isDigit s

/-- Reads a sign: whether it is a minus, and what follows. -/
def readSign (s : List Char) : Bool × List Char :=
  match s with
  | '-' :: s => (true, s)
  | '+' :: s => (false, s)
  | s => (false, s)

/-- Reads an exponent behind its letter. -/
def readExponent? (s : List Char) : Option (Int × List Char) := do
  let (negative, s) := readSign s
  let (digits, s) ← readDigits? Char.isDigit s
  let n : Int := Text.decimalValue digits
  pure (if negative then -n else n, s)

def isExponentMark (c : Char) : Bool := c == 'e' || c == 'E'

/-- Reads a float: a whole number with a fraction, an exponent or both, or a word. What is too large
is refused if it is positive. -/
def readFloat? (s : List Char) : Option (Binary64 × List Char) := do
  let (negative, s) := readSign s
  match Text.after? "inf" s, Text.after? "nan" s with
  | some s, _ => pure (.infinite negative, s)
  | _, some s => pure (.nan, s)
  | none, none =>
    let (whole, s) ← readWhole? s
    let (fraction, s) ← match s with
      | '.' :: s => readDigits? Char.isDigit s
      | c :: s => if isExponentMark c then some ([], c :: s) else none
      | [] => none
    let (exponent, s) ← match s with
      | c :: rest => if isExponentMark c then readExponent? rest else some (0, s)
      | [] => some (0, s)
    let x := Binary64.ofDecimal negative (Text.decimalValue (whole ++ fraction)) (exponent - fraction.length)
    if x = .infinite false then none else pure (x, s)

/-- The least and the greatest integer. -/
def isInRange (n : Int) : Bool := -9223372036854775808 ≤ n && n ≤ 9223372036854775807

/-- Reads the digits of an integer in a base. -/
def readBase? (base : Nat) (s : List Char) : Option (Nat × List Char) := do
  let (digits, s) ← readDigits? (fun c => ((Text.hexDigit? c).filter (· < base)).isSome) s
  pure (Text.digitsValue base digits, s)

/-- Reads an integer; one in hexadecimal, octal or binary has no sign. -/
def readInteger? (s : List Char) : Option (Int × List Char) := do
  let (n, s) ← match s with
    | '0' :: 'x' :: s => (readBase? 16 s).map fun p => ((p.1 : Int), p.2)
    | '0' :: 'o' :: s => (readBase? 8 s).map fun p => ((p.1 : Int), p.2)
    | '0' :: 'b' :: s => (readBase? 2 s).map fun p => ((p.1 : Int), p.2)
    | s => do
      let (negative, s) := readSign s
      let (digits, s) ← readWhole? s
      let n : Int := Text.decimalValue digits
      pure (if negative then -n else n, s)
  if isInRange n then some (n, s) else none

/-- Reads a value that holds no other values. -/
def readScalar? (s : List Char) : Option (Value × List Char) :=
  match s with
  | [] => none
  | c :: _ =>
    if c = '"' ∨ c = '\'' then (readString? s).map fun p => (.string (String.ofList p.1), p.2)
    else
      match Text.after? "true" s, Text.after? "false" s with
      | some s, _ => some (.boolean true, s)
      | _, some s => some (.boolean false, s)
      | none, none =>
        match readMoment? s with
        | some (m, s) => some (.moment m, s)
        | none =>
          match readFloat? s with
          | some (x, s) => some (.float x, s)
          | none => (readInteger? s).map fun p => (.integer p.1, p.2)

end Treatise.Toml
