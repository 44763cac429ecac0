/-
The fewest decimal digits that identify a binary number. The reals that round to a number form an interval that reaches
halfway to each neighbour, ends included when the significand is even. For one digit, two digits and so on the two
neighbours of the number on the decimal grid are tested against that interval in exact arithmetic; the first grid with a
hit gives the digits, the nearer of two hits wins, and the upper one if both are equally near.
-/
import TestInputs.Decimal.Read

namespace TestInputs.Decimal

/-- digits · 10^exponent -/
structure Digits where
  digits : Nat
  exponent : Int
  deriving DecidableEq

/-- compare a · 10^i with n · 2^j -/
def compareScaled (a : Nat) (i : Int) (n : Nat) (j : Int) : Ordering :=
  compare (a * Nat.pow 10 i.toNat * Nat.pow 2 (-j).toNat) (n * Nat.pow 2 j.toNat * Nat.pow 10 (-i).toNat)

variable {f : Format}

/-- is the gap to the number below half the gap to the number above? -/
def narrowBelow (x : Binary f) : Bool :=
  x.fractionField == 0 && 1 < x.exponentField

/-- does the decimal lie among the reals that round to the magnitude of `x`? -/
def readsBack (x : Binary f) (d : Digits) : Bool :=
  let low := 4 * x.significand - (if narrowBelow x then 1 else 2)
  let high := 4 * x.significand + 2
  let ends := x.significand % 2 == 0
  let atLow := compareScaled d.digits d.exponent low (x.exponent - 2)
  let atHigh := compareScaled d.digits d.exponent high (x.exponent - 2)
  (atLow == .gt || (ends && atLow == .eq)) && (atHigh == .lt || (ends && atHigh == .eq))

/-- the integral part of the magnitude divided by 10^g -/
def floorAt (x : Binary f) (g : Int) : Nat :=
  let num := x.significand * Nat.pow 2 x.exponent.toNat * Nat.pow 10 (-g).toNat
  let den := Nat.pow 2 (-x.exponent).toNat * Nat.pow 10 g.toNat
  num / den

/-- the least k with the magnitude below 10^k -/
def scale (x : Binary f) : Int :=
  let shift := (-x.exponent).toNat
  (digitCount (floorAt x (-(shift : Int))) : Int) - shift

/-- the better of the two neighbours of the magnitude on the grid 10^g, if one of them reads back -/
def onGrid? (x : Binary f) (g : Int) : Option Digits :=
  let below : Digits := ⟨floorAt x g, g⟩
  let above : Digits := ⟨floorAt x g + 1, g⟩
  match readsBack x below, readsBack x above with
  | true, true =>
    -- twice the number against the sum of its neighbours
    if compareScaled (2 * below.digits + 1) g (2 * x.significand) x.exponent == .gt then some below else some above
  | true, false => some below
  | false, true => some above
  | false, false => none

/-- the magnitude itself, as a decimal -/
def exactDigits (x : Binary f) : Digits :=
  if 0 ≤ x.exponent then ⟨x.significand * Nat.pow 2 x.exponent.toNat, 0⟩
  else ⟨x.significand * Nat.pow 5 (-x.exponent).toNat, x.exponent⟩

/-- move factors of ten from the digits into the exponent -/
def stripZeros (fuel : Nat) (d : Digits) : Digits :=
  match fuel with
  | 0 => d
  | fuel + 1 => if d.digits % 10 = 0 then stripZeros fuel ⟨d.digits / 10, d.exponent + 1⟩ else d

/-- the shortest decimal of a finite magnitude other than zero -/
def shortest (x : Binary f) : Digits :=
  let k := scale x
  let found := (List.range (f.fractionBits / 3 + 3)).findSome? fun n => onGrid? x (k - (n + 1 : Nat))
  let d := found.getD (exactDigits x)
  stripZeros (digitCount d.digits) d

end TestInputs.Decimal
