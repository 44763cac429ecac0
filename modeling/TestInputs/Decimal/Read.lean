/-
Reading decimal numbers. A decimal text is an optional sign and then one of the words for infinity and NaN in any case,
or digits with an optional point and an optional exponent, at least one digit standing before or after the point. The
number read is the one nearest to the exact decimal value.
-/
import TestInputs.Binary

namespace TestInputs.Decimal

/-- the value of a list of digits, most significant first -/
def digitsValue (cs : List Char) : Nat :=
  cs.foldl (fun n c => 10 * n + (c.toNat - '0'.toNat)) 0

/-- an optional sign in front of a text: is it a minus, and what follows -/
def splitSign : List Char → Bool × List Char
  | '+' :: rest => (false, rest)
  | '-' :: rest => (true, rest)
  | cs => (false, cs)

/-- one or more digits and nothing else -/
def readDigits? (cs : List Char) : Option Nat :=
  if !cs.isEmpty && cs.all Char.isDigit then some (digitsValue cs) else none

/-- an optional sign and one or more digits -/
def readInteger? (cs : List Char) : Option Int :=
  let (negative, rest) := splitSign cs
  (readDigits? rest).map fun n => if negative then -(n : Int) else n

/-- the exponent part of a decimal: nothing, or a mark followed by an integer -/
def readExponent? : List Char → Option Int
  | [] => some 0
  | c :: rest => if c = 'e' || c = 'E' then readInteger? rest else none

/-- an unsigned decimal: its digits as a natural, and the power of ten that they count -/
def readUnsigned? (cs : List Char) : Option (Nat × Int) :=
  let whole := cs.takeWhile Char.isDigit
  let rest := cs.dropWhile Char.isDigit
  let (places, rest) :=
    match rest with
    | '.' :: tail => (tail.takeWhile Char.isDigit, tail.dropWhile Char.isDigit)
    | _ => ([], rest)
  if whole.isEmpty && places.isEmpty then none
  else (readExponent? rest).map fun e => (digitsValue (whole ++ places), e - places.length)

/-- the number of decimal digits of a natural; zero has none -/
def digitCount (n : Nat) : Nat :=
  if n = 0 then 0 else (Nat.toDigits 10 n).length

/-- the number nearest to digits · 10^exponent; a decimal point far outside the format's range decides at once -/
def nearest {f : Format} (negative : Bool) (digits : Nat) (exponent : Int) : Binary f :=
  let point := digitCount digits + exponent
  let reach : Int := Nat.pow 2 f.exponentBits
  if digits = 0 || point < -reach then .signed negative 0
  else if reach < point then .infinity negative
  else .ofRatio negative (digits * Nat.pow 10 exponent.toNat) (Nat.pow 10 (-exponent).toNat)

/-- an unsigned word for a number that is not finite -/
def readWord? {f : Format} (negative : Bool) (cs : List Char) : Option (Binary f) :=
  let word := String.ofList (cs.map Char.toLower)
  if word = "inf" || word = "infinity" then some (.infinity negative)
  else if word = "nan" then some .nan
  else none

/-- a whole text as a number of the format -/
def read? {f : Format} (cs : List Char) : Option (Binary f) :=
  let (negative, rest) := splitSign cs
  (readWord? negative rest).or ((readUnsigned? rest).map fun d => nearest negative d.1 d.2)

end TestInputs.Decimal
