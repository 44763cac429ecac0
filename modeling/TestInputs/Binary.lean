/-
Binary floating-point numbers, held as their bits. A format fixes how many bits the exponent and the fraction take; a
finite number is m · 2^q for a natural m and an integer q. `Binary.ofRatio` rounds a quotient of naturals to the nearest
number of a format, halves to the even neighbour, and overflow to an infinity. Equality of numbers is the numeric one:
NaN differs from itself and the two zeros are equal.
-/

namespace TestInputs

/-- an interchange format: one sign bit, then the exponent, then the fraction -/
structure Format where
  exponentBits : Nat
  fractionBits : Nat

namespace Format

/-- thirty-two bits: eight for the exponent, twenty-three for the fraction -/
def single : Format := ⟨8, 23⟩

/-- sixty-four bits: eleven for the exponent, fifty-two for the fraction -/
def double : Format := ⟨11, 52⟩

/-- bits in all -/
def width (f : Format) : Nat := 1 + f.exponentBits + f.fractionBits

/-- what the stored exponent exceeds the exponent of the leading bit by -/
def bias (f : Format) : Nat := Nat.pow 2 (f.exponentBits - 1) - 1

/-- the exponent of the last bit of the smallest numbers -/
def leastExponent (f : Format) : Int := 1 - f.bias - f.fractionBits

/-- the bits of positive infinity; finite magnitudes lie below, NaN above -/
def infinityBits (f : Format) : Nat := (Nat.pow 2 f.exponentBits - 1) * Nat.pow 2 f.fractionBits

end Format

/-- a number of the format `f` -/
structure Binary (f : Format) where
  bits : BitVec f.width
  deriving DecidableEq

/-- a number of thirty-two bits -/
abbrev Single := Binary .single

/-- a number of sixty-four bits -/
abbrev Double := Binary .double

namespace Binary

variable {f : Format}

/-- the number with the given bits, read as a natural -/
def ofBits (n : Nat) : Binary f := ⟨BitVec.ofNat f.width n⟩

/-- the sign bit is set -/
def negative (x : Binary f) : Bool := Nat.pow 2 (f.width - 1) ≤ x.bits.toNat

/-- the bits without the sign -/
def magnitude (x : Binary f) : Nat := x.bits.toNat % Nat.pow 2 (f.width - 1)

def isNaN (x : Binary f) : Bool := f.infinityBits < x.magnitude

def isInfinite (x : Binary f) : Bool := x.magnitude == f.infinityBits

def isZero (x : Binary f) : Bool := x.magnitude == 0

/-- numeric equality -/
def equal (x y : Binary f) : Bool :=
  !x.isNaN && !y.isNaN && (x.bits == y.bits || (x.isZero && y.isZero))

instance : BEq (Binary f) := ⟨equal⟩

/-- put a sign in front of a magnitude -/
def signed (negative : Bool) (magnitude : Nat) : Binary f :=
  ofBits (if negative then Nat.pow 2 (f.width - 1) + magnitude else magnitude)

def nan : Binary f := ofBits (f.infinityBits + Nat.pow 2 (f.fractionBits - 1))

def infinity (negative : Bool) : Binary f := signed negative f.infinityBits

def zero : Binary f := signed false 0

def one : Binary f := signed false (f.bias * Nat.pow 2 f.fractionBits)

def minusOne : Binary f := signed true (f.bias * Nat.pow 2 f.fractionBits)

/-- the stored exponent -/
def exponentField (x : Binary f) : Nat := x.magnitude / Nat.pow 2 f.fractionBits

/-- the stored fraction -/
def fractionField (x : Binary f) : Nat := x.magnitude % Nat.pow 2 f.fractionBits

/-- the natural m of a finite magnitude m · 2^q -/
def significand (x : Binary f) : Nat :=
  if x.exponentField = 0 then x.fractionField else Nat.pow 2 f.fractionBits + x.fractionField

/-- the integer q of a finite magnitude m · 2^q -/
def exponent (x : Binary f) : Int :=
  if x.exponentField = 0 then f.leastExponent else f.leastExponent + (x.exponentField - 1 : Nat)

/-! ## Rounding -/

/-- the quotient rounded to the nearest natural, halves to even -/
def roundQuotient (num den : Nat) : Nat :=
  let q := num / den
  let twice := 2 * (num % den)
  if den < twice || (twice == den && q % 2 == 1) then q + 1 else q

/-- the greatest e with 2^e ≤ num / den, for positive num and den -/
def floorLog2 (num den : Nat) : Int :=
  let e : Int := (Nat.log2 num : Int) - Nat.log2 den
  if den * Nat.pow 2 e.toNat ≤ num * Nat.pow 2 (-e).toNat then e else e - 1

/-- the magnitude nearest to the quotient -/
def roundMagnitude (f : Format) (num den : Nat) : Nat :=
  let q := max (floorLog2 num den - f.fractionBits) f.leastExponent
  let m := roundQuotient (num * Nat.pow 2 (-q).toNat) (den * Nat.pow 2 q.toNat)
  min f.infinityBits ((q - f.leastExponent).toNat * Nat.pow 2 f.fractionBits + m)

/-- the number nearest to num / den under the given sign; `den` is positive -/
def ofRatio (negative : Bool) (num den : Nat) : Binary f :=
  if num = 0 then signed negative 0 else signed negative (roundMagnitude f num den)

/-! ## Fractions -/

/-- greater than zero and at most one -/
def isFraction (x : Binary f) : Bool :=
  0 < x.bits.toNat && x.bits.toNat ≤ (one : Binary f).bits.toNat

/-- the integral part of a finite magnitude times 2^n -/
def scaledFloor (x : Binary f) (n : Nat) : Nat :=
  let e := x.exponent + n
  x.significand * Nat.pow 2 e.toNat / Nat.pow 2 (-e).toNat

end Binary

end TestInputs
