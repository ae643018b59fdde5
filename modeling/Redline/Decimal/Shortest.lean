/-! The shortest decimal that reads back as a given double.

A finite double is a whole number times a power of two. The reals that round to it form an
interval, whose ends belong to it when that whole number is even. For a number of digits, the two
decimals next to the double are tried; the first number of digits with one of them in the interval
is the fewest there is, and of two the nearer is taken. All of it is exact arithmetic on naturals. -/

namespace Redline

structure Decimal where
  negative : Bool
  digits : Nat
  exponent : Int
  deriving DecidableEq, Repr

namespace Decimal

/-- The whole number and the power of two of a finite double without its sign, and whether the
doubles below it lie twice as close as those above. -/
structure Binary where
  whole : Nat
  power : Int
  closerBelow : Bool
  deriving DecidableEq, Repr

def Binary.ofBits (bits : Nat) : Binary :=
  let fraction : Nat := bits % Nat.pow 2 52
  let exponent : Nat := bits / Nat.pow 2 52 % Nat.pow 2 11
  if exponent = 0 then ⟨fraction, -1074, false⟩
  else ⟨fraction + Nat.pow 2 52, (exponent : Int) - 1075, fraction = 0 ∧ 1 < exponent⟩

structure Ratio where
  num : Nat
  den : Nat

def Ratio.ofPower (n : Nat) (power : Int) : Ratio :=
  ⟨n * Nat.pow 2 power.toNat, Nat.pow 2 (-power).toNat⟩

def Ratio.shift (ratio : Ratio) (shift : Int) : Ratio :=
  ⟨ratio.num * Nat.pow 10 shift.toNat, ratio.den * Nat.pow 10 (-shift).toNat⟩

def Ratio.le (first second : Ratio) : Bool :=
  first.num * second.den ≤ second.num * first.den

def Ratio.lt (first second : Ratio) : Bool :=
  first.num * second.den < second.num * first.den

def magnitude (n : Nat) : Nat :=
  (Nat.toDigits 10 n).length - 1

def placesToOne (ratio : Ratio) : Nat → Nat
  | 0 => 0
  | fuel + 1 => if ratio.den ≤ ratio.num then 0 else placesToOne (ratio.shift 1) fuel + 1

/-- The exponent of the first digit of a positive fraction. The smallest double has its first
digit 324 places behind the point. -/
def leading (ratio : Ratio) : Int :=
  if ratio.den ≤ ratio.num then magnitude (ratio.num / ratio.den) else -(placesToOne ratio 324 : Int)

/-- The nearer of the two decimals next to a fraction that a test accepts, on the grid of whole
numbers; of two that are as near, the even one. -/
def pick (ratio : Ratio) (accepts : Nat → Bool) : Option Nat :=
  let below := ratio.num / ratio.den
  match accepts below, accepts (below + 1) with
  | false, false => none
  | true, false => some below
  | false, true => some (below + 1)
  | true, true =>
    let twice := 2 * (ratio.num % ratio.den)
    if twice < ratio.den ∨ (twice = ratio.den ∧ below % 2 = 0) then some below else some (below + 1)

def shortest (binary : Binary) : Nat × Int :=
  let value := Ratio.ofPower (4 * binary.whole) (binary.power - 2)
  let low := Ratio.ofPower (4 * binary.whole - if binary.closerBelow then 1 else 2) (binary.power - 2)
  let high := Ratio.ofPower (4 * binary.whole + 2) (binary.power - 2)
  let even := binary.whole % 2 = 0
  let first := leading value
  let attempt (count : Nat) : Option (Nat × Int) :=
    let grid := first - (count : Int)
    let accepts (digits : Nat) : Bool :=
      let decimal := Ratio.shift ⟨digits, 1⟩ grid
      if even then low.le decimal && decimal.le high else low.lt decimal && decimal.lt high
    (pick (value.shift (-grid)) accepts).map fun digits => (digits, grid)
  ((List.range 17).findSome? attempt).getD (0, 0)

def dropZeros (digits : Nat) (exponent : Int) : Nat × Int :=
  if digits ≠ 0 ∧ digits % 10 = 0 then dropZeros (digits / 10) (exponent + 1) else (digits, exponent)
termination_by digits
decreasing_by omega

def ofBits (bits : Nat) : Decimal :=
  let negative : Bool := bits / Nat.pow 2 63 % 2 = 1
  let binary := Binary.ofBits bits
  if binary.whole = 0 then ⟨negative, 0, 0⟩
  else
    let (digits, exponent) := shortest binary
    let (digits, exponent) := dropZeros digits exponent
    ⟨negative, digits, exponent⟩

def ofFloat (x : Float) : Decimal :=
  ofBits x.toBits.toNat

end Decimal

end Redline
