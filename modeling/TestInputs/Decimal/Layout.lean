/-
Writing a binary number in decimal. The digits are the shortest ones; a layout decides which numbers are written
positionally and which with an exponent, and whether a whole number keeps a zero after the point.
-/
import TestInputs.Decimal.Shortest

namespace TestInputs.Decimal

/-- the decisions of one way to write numbers -/
structure Layout where
  /-- the exponents of the leading digit, from the first up to but not including the second, that are written
  positionally; all of them if absent -/
  positional : Option (Int × Int)
  /-- write whole numbers with a zero after the point -/
  keepPoint : Bool

/-- decimal digits of a natural -/
def digitChars (n : Nat) : List Char :=
  Nat.toDigits 10 n

/-- an integer in decimal -/
def integerChars (n : Int) : List Char :=
  if n < 0 then '-' :: digitChars n.natAbs else digitChars n.natAbs

/-- the text of an integer -/
def integerText (n : Int) : String :=
  String.ofList (integerChars n)

/-- the text of a natural -/
def naturalText (n : Nat) : String :=
  String.ofList (digitChars n)

/-- digits with the point `after` places behind the first one; `after` may be negative or beyond the last digit -/
def positionalChars (layout : Layout) (ds : List Char) (after : Int) : List Char :=
  if after < 0 then ['0', '.'] ++ List.replicate (-after - 1).toNat '0' ++ ds
  else
    let whole := after.toNat + 1
    if whole < ds.length then ds.take whole ++ '.' :: ds.drop whole
    else ds ++ List.replicate (whole - ds.length) '0' ++ (if layout.keepPoint then ['.', '0'] else [])

/-- digits with an exponent, the point behind the first digit if others follow -/
def exponentChars (ds : List Char) (exponent : Int) : List Char :=
  let digits :=
    match ds with
    | d :: e :: rest => d :: '.' :: e :: rest
    | _ => ds
  digits ++ 'e' :: integerChars exponent

/-- a finite magnitude other than zero -/
def magnitudeChars {f : Format} (layout : Layout) (x : Binary f) : List Char :=
  let d := shortest x
  let ds := digitChars d.digits
  let leading := d.exponent + ds.length - 1
  let plain :=
    match layout.positional with
    | none => true
    | some (first, last) => first ≤ leading && leading < last
  if plain then positionalChars layout ds leading else exponentChars ds leading

/-- the text of a number -/
def write {f : Format} (layout : Layout) (x : Binary f) : String :=
  if x.isNaN then "NaN"
  else
    let body :=
      if x.isInfinite then ['i', 'n', 'f']
      else if x.isZero then (if layout.keepPoint then ['0', '.', '0'] else ['0'])
      else magnitudeChars layout x
    String.ofList (if x.negative then '-' :: body else body)

end TestInputs.Decimal
