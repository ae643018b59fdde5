import Redline.Decimal.Shortest

/-! Decimals as text: with a point, or with an exponent where that is shorter to read. -/

namespace Redline.Decimal

def leastPlain : Int := -5

def plainEnd : Int := 16

def zeros (count : Nat) : List Char :=
  List.replicate count '0'

def withPoint (digits : List Char) (whole : Nat) : List Char :=
  let fraction := digits.drop whole
  digits.take whole ++ '.' :: (if fraction.isEmpty then ['0'] else fraction)

/-- A decimal without its sign. One digit before the exponent needs no point, and the exponent
always has a sign. -/
def magnitudeText (decimal : Decimal) : List Char :=
  let digits := Nat.toDigits 10 decimal.digits
  let first : Int := decimal.exponent + digits.length - 1
  if leastPlain ≤ first ∧ first < plainEnd then
    if 0 ≤ first then withPoint (digits ++ zeros decimal.exponent.toNat) (first.toNat + 1)
    else withPoint ('0' :: zeros (-first - 1).toNat ++ digits) 1
  else
    let mantissa := if digits.length = 1 then digits else withPoint digits 1
    let sign := if first < 0 then '-' else '+'
    mantissa ++ 'e' :: sign :: Nat.toDigits 10 first.natAbs

def text (decimal : Decimal) : String :=
  String.ofList ((if decimal.negative then ['-'] else []) ++ decimal.magnitudeText)

end Redline.Decimal
