import ShapeTyping.Number.Basic
/-! The shortest decimal that reads back as a given number. Among the decimals of
one length only the number's two neighbours on that grid need to be tried: if any
point of the grid lies in the interval that rounds to the number, one of them
does. -/
namespace ShapeTyping

/-- The decimal `coefficient * 10 ^ exponent`. -/
structure Decimal where
  coefficient : Nat
  exponent : Int

/-- Which of two decimals at the same distance is taken. -/
inductive Tie where
  | up
  | toEven
deriving DecidableEq

/-- Whether the lower of two neighbours is taken. -/
def Tie.takesLower (tie : Tie) (lower : Nat) : Bool :=
  match tie with
  | .up => false
  | .toEven => lower % 2 == 0

namespace Number

/-- The reals that round to a number are those from `low` to `high` in units of
`unit / per`, where the number itself is `middle`. The ends round to it exactly
when its significand is even. -/
structure Interval where
  low : Nat
  middle : Nat
  high : Nat
  closed : Bool
  unit : Nat
  per : Nat

/-- A quarter of the last place is the unit, because below a power of two the
numbers lie twice as densely. -/
def interval (x : Number) : Interval :=
  let m := x.significand
  { low := if x.fractionField = 0 && 1 < x.exponentField then 4 * m - 1 else 4 * m - 2
    middle := 4 * m
    high := 4 * m + 2
    closed := m % 2 == 0
    unit := Nat.pow 2 (x.scale - 1076)
    per := Nat.pow 2 (1076 - x.scale) }

def digitCount (n : Nat) : Nat := (Nat.toDigits 10 n).length

/-- The least `e` with `n / d < 10 ^ e`, for positive `n` and `d`. -/
def pointOf (n d : Nat) : Int :=
  if d ≤ n then digitCount (n / d) else 1 - digitCount ((d - 1) / n)

/-- The decimal of the given exponent in the interval that is nearest to its
middle. -/
def Interval.decimal? (i : Interval) (tie : Tie) (exponent : Int) : Option Decimal :=
  let num := i.unit * Nat.pow 10 (-exponent).toNat
  let den := i.per * Nat.pow 10 exponent.toNat
  let inside (c : Nat) : Bool :=
    if i.closed then i.low * num ≤ c * den && c * den ≤ i.high * num
    else i.low * num < c * den && c * den < i.high * num
  let below := i.middle * num / den
  let above := below + 1
  let down := i.middle * num - below * den
  let up := above * den - i.middle * num
  let belowFirst : Bool := down < up || (down == up && tie.takesLower below)
  if inside below && (belowFirst || !inside above) then some ⟨below, exponent⟩
  else if inside above then some ⟨above, exponent⟩
  else none

/-- The shortest decimal that reads back as `x`, the nearest of those. Seventeen
digits are always enough. -/
def shortest (x : Number) (tie : Tie) : Decimal :=
  let i := x.interval
  let point := pointOf (i.middle * i.unit) i.per
  let found := (List.range' 1 17).findSome? fun digits : Nat => i.decimal? tie (point - digits)
  found.getD ⟨0, 0⟩

end Number
end ShapeTyping
