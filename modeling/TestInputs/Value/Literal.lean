/-
Constants of the value-like kinds: the boundary constants that every kind is tried with, and the reading of literals as
they are spelled in source code (`42`, `42L`, `1.5f`, `'c'`, `"text"`).
-/
import TestInputs.Decimal.Read
import TestInputs.Value.Basic

namespace TestInputs.Value

/-- the constants tried for every type of a kind -/
def boundaries : Kind → List Value
  | .boolean => [boolean false, boolean true]
  | .byte => [byte Int8.minValue, byte 0, byte Int8.maxValue]
  | .short => [short Int16.minValue, short 0, short Int16.maxValue]
  | .char => [char '\x00', char 'a', char '\uffff']
  | .int => [int Int32.minValue, int 0, int Int32.maxValue]
  | .long => [long Int64.minValue, long 0, long Int64.maxValue]
  | .float => [float .minusOne, float .zero, float .one]
  | .double => [double .minusOne, double .zero, double .one]
  | .string => [null, str ""]

/-- an integer of the given inclusive range -/
def readWithin? (low high : Int) (cs : List Char) : Option Int :=
  (Decimal.readInteger? cs).filter fun n => low ≤ n && n ≤ high

/-- take off a pair of quotes around a text; a text without both of them stays as it is -/
def unquote (quote : Char) (cs : List Char) : List Char :=
  match cs with
  | [] => []
  | first :: rest =>
    if first = quote && rest.getLast? = some quote then rest.dropLast else cs

/-- a single character of at most sixteen bits -/
def readChar? : List Char → Option Value
  | [c] => if c.toNat ≤ 0xffff then some (char c) else none
  | _ => none

/-- read a literal of the given kind from its characters, blanks at the ends already removed -/
def readTrimmed? (k : Kind) (cs : List Char) : Option Value :=
  match k with
  | .boolean =>
    if cs = ['t', 'r', 'u', 'e'] then some (boolean true)
    else if cs = ['f', 'a', 'l', 's', 'e'] then some (boolean false)
    else none
  | .byte => (readWithin? (-0x80) 0x7f cs).map fun n => byte (Int8.ofInt n)
  | .short => (readWithin? (-0x8000) 0x7fff cs).map fun n => short (Int16.ofInt n)
  | .int => (readWithin? (-0x80000000) 0x7fffffff cs).map fun n => int (Int32.ofInt n)
  | .long =>
    (readWithin? (-0x8000000000000000) 0x7fffffffffffffff (Text.dropEndWhile (fun c => c = 'l' || c = 'L') cs)).map
      fun n => long (Int64.ofInt n)
  | .float => (Decimal.read? (Text.dropEndWhile (fun c => c = 'f' || c = 'F') cs)).map float
  | .double => (Decimal.read? (Text.dropEndWhile (fun c => c = 'd' || c = 'D') cs)).map double
  | .char => readChar? (unquote '\'' cs)
  | .string => some (str (String.ofList (unquote '"' cs)))

/-- read a literal of the given kind; blanks around it do not count -/
def readLiteral? (k : Kind) (text : String) : Option Value :=
  readTrimmed? k (Text.trim text.toList)

end TestInputs.Value
