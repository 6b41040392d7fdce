import ShapeTyping.Number.Shortest
/-! Writing a number: its shortest digits, placed as a layout says. -/
namespace ShapeTyping

/-- Where the point goes, when an exponent is written instead, and how ties go. The place of
the point is the `p` with `10 ^ (p - 1) ≤ x < 10 ^ p`. -/
structure Layout where
  isPositional : Int → Bool
  /-- Closes a positional text without a fraction. -/
  wholeEnd : String
  /-- Stands before an exponent that is not negative. -/
  exponentSign : String
  tie : Tie

namespace Layout

def zeros (n : Nat) : String := String.ofList (List.replicate n '0')

def positional (layout : Layout) (digits : List Char) (point : Int) : String :=
  if point ≤ 0 then "0." ++ zeros (-point).toNat ++ String.ofList digits
  else if digits.length ≤ point.toNat then
    String.ofList digits ++ zeros (point.toNat - digits.length) ++ layout.wholeEnd
  else
    String.ofList (digits.take point.toNat) ++ "." ++ String.ofList (digits.drop point.toNat)

def scientific (layout : Layout) (digits : List Char) (point : Int) : String :=
  let exponent := point - 1
  let fraction := match digits.drop 1 with
    | [] => ""
    | rest => "." ++ String.ofList rest
  String.ofList (digits.take 1) ++ fraction ++ "e" ++
    (if 0 ≤ exponent then layout.exponentSign else "") ++ toString exponent

/-- The text of a positive decimal. -/
def decimal (layout : Layout) (d : Decimal) : String :=
  let written := Nat.toDigits 10 d.coefficient
  let point : Int := written.length + d.exponent
  let digits := (written.reverse.dropWhile (· == '0')).reverse
  if layout.isPositional point then layout.positional digits point
  else layout.scientific digits point

end Layout

/-- The text of a number. The sign of a zero is kept. -/
def Number.render (x : Number) (layout : Layout) : String :=
  if x.isNaN then "NaN"
  else
    let magnitude :=
      if x.isInfinite then "inf"
      else if x.isZero then "0" ++ layout.wholeEnd
      else layout.decimal (x.shortest layout.tie)
    if x.isNegative then "-" ++ magnitude else magnitude

end ShapeTyping
