import ShapeTyping.Number.Basic
/-! Decimal numerals: how they are written, and the number each one denotes. This is the binary64
number nearest to it, a tie going to the even significand. The arithmetic is exact throughout. -/
namespace ShapeTyping

namespace Number

/-- The integer nearest to `n / d`, a tie going to the even one. -/
def roundDiv (n d : Nat) : Nat :=
  let q := n / d
  let r := n % d
  if 2 * r < d then q else if d < 2 * r then q + 1 else q + q % 2

/-- The exponent `e` with `2 ^ e ≤ n / d < 2 ^ (e + 1)`, for positive `n` and
`d`. -/
def ratioLog2 (n d : Nat) : Int :=
  let e : Int := n.log2 - d.log2
  if n * Nat.pow 2 (-e).toNat < d * Nat.pow 2 e.toNat then e - 1 else e

/-- The number nearest to `n / d`. The word of a magnitude counts the numbers
below it, so a significand that rounds up to the next power of two needs no
special treatment, and everything from the top of the range on is infinite. -/
def nearest (negative : Bool) (n d : Nat) : Number :=
  if n = 0 then zero negative
  else
    let tight := ratioLog2 n d - 52
    let unit : Int := if tight < -1074 then -1074 else tight
    let q := roundDiv (n * Nat.pow 2 (-unit).toNat) (d * Nat.pow 2 unit.toNat)
    let magnitude := (unit + 1074).toNat * 0x10000000000000 + q
    if 0x7ff0000000000000 ≤ magnitude then infinity negative
    else ⟨(magnitude + if negative then 0x8000000000000000 else 0).toUInt64⟩

end Number

/-- A decimal numeral denotes `coefficient * 10 ^ exponent`, up to its sign. -/
structure Numeral where
  negative : Bool
  coefficient : Nat
  exponent : Int
  /-- Written with neither a fraction nor an exponent. -/
  isPlain : Bool

namespace Numeral

def digitsValue (digits : List Char) : Nat :=
  digits.foldl (fun n c => 10 * n + (c.toNat - '0'.toNat)) 0

/-- The fraction digits after a point. A point alone is refused. -/
def scanFraction : List Char → Option (List Char)
  | '.' :: rest =>
    let digits := rest.takeWhile Char.isDigit
    if digits.isEmpty then none else some digits
  | _ => some []

/-- The exponent after a mark, with the characters that mark, sign and digits
take. A mark without digits is refused. -/
def scanExponent : List Char → Option (Int × Nat)
  | mark :: rest =>
    if mark = 'e' || mark = 'E' then
      let (negative, signed, rest) := match rest with
        | '-' :: rest => (true, 1, rest)
        | '+' :: rest => (false, 1, rest)
        | _ => (false, 0, rest)
      let digits := rest.takeWhile Char.isDigit
      let value : Int := digitsValue digits
      if digits.isEmpty then none
      else some (if negative then -value else value, 1 + signed + digits.length)
    else some (0, 0)
  | [] => some (0, 0)

/-- The numeral at the head of a text and the characters it takes. A whole part
has no leading zero. -/
def scan (text : List Char) : Option (Numeral × Nat) := do
  let (negative, signed, body) := match text with
    | '-' :: rest => (true, 1, rest)
    | _ => (false, 0, text)
  let whole := body.takeWhile Char.isDigit
  if whole.isEmpty || (whole.head? == some '0' && whole.length != 1) then none
  else
    let body := body.drop whole.length
    let fraction ← scanFraction body
    let pointed := if fraction.isEmpty then 0 else 1 + fraction.length
    let (exponent, marked) ← scanExponent (body.drop pointed)
    let numeral : Numeral :=
      { negative
        coefficient := digitsValue (whole ++ fraction)
        exponent := exponent - fraction.length
        isPlain := pointed == 0 && marked == 0 }
    some (numeral, signed + whole.length + pointed + marked)

/-- The nearest number. A value of `10 ^ 310` or more is past the largest
number, and one below `10 ^ (-330)` nearer to zero than to the smallest, so
neither needs its power of ten computed. -/
def toNumber (n : Numeral) : Number :=
  let size : Int := (Nat.toDigits 10 n.coefficient).length + n.exponent
  if n.coefficient = 0 || size < -330 then Number.zero n.negative
  else if 310 < size then Number.infinity n.negative
  else Number.nearest n.negative (n.coefficient * Nat.pow 10 n.exponent.toNat)
    (Nat.pow 10 (-n.exponent).toNat)

/-- The whole number written, if the numeral is plain. -/
def toInt? (n : Numeral) : Option Int :=
  if n.isPlain then some (if n.negative then -n.coefficient else n.coefficient) else none

/-- The sign that a text may begin with, and what follows it. -/
def splitSign : List Char → Bool × List Char
  | '-' :: rest => (true, rest)
  | '+' :: rest => (false, rest)
  | text => (false, text)

/-- The fraction digits after a point, and what follows them. -/
def splitFraction : List Char → List Char × List Char
  | '.' :: rest => (rest.takeWhile Char.isDigit, rest.dropWhile Char.isDigit)
  | text => ([], text)

/-- A numeral that takes a whole text, in the looser form that stands by itself:
zeros may lead, and one side of the point may be empty. -/
def ofText? (negative : Bool) (text : List Char) : Option Numeral := do
  let whole := text.takeWhile Char.isDigit
  let (fraction, rest) := splitFraction (text.dropWhile Char.isDigit)
  let (exponent, taken) ← scanExponent rest
  let numeral : Numeral :=
    { negative
      coefficient := digitsValue (whole ++ fraction)
      exponent := exponent - fraction.length
      isPlain := whole.length == text.length }
  if (whole ++ fraction).isEmpty || taken != rest.length then none else some numeral

end Numeral

/-- Reads a numeral with an optional sign, or one of the names of the numbers
without one. Names are read in either case. -/
def Number.ofText? (text : String) : Option Number :=
  let (negative, body) := Numeral.splitSign text.toList
  match String.ofList (body.map Char.toLower) with
  | "nan" => some nan
  | "inf" | "infinity" => some (infinity negative)
  | _ => (Numeral.ofText? negative body).map Numeral.toNumber

end ShapeTyping
