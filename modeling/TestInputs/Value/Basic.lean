/-
Candidate values. A value is null, a constant of one of the value-like kinds, an array, a constant of an enumeration, or
an object: a recipe that names a type, one of its constructors by index, and the arguments. Equality compares types
without their generic parts and numbers numerically, so a value that holds NaN differs from itself.
-/
import TestInputs.Binary
import TestInputs.TypeName

namespace TestInputs

/-- one generated candidate -/
inductive Value where
  | null
  | boolean (b : Bool)
  | byte (n : Int8)
  | short (n : Int16)
  | char (c : Char)
  | int (n : Int32)
  | long (n : Int64)
  | float (x : Single)
  | double (x : Double)
  | str (s : String)
  | array (component : TypeName) (elements : List Value)
  | enum (ty : TypeName) (constant : String)
  | object (ty : TypeName) (constructor : Nat) (arguments : List Value)

namespace Value

mutual

/-- equality of values -/
def same : Value → Value → Bool
  | null, null => true
  | boolean a, boolean b => a == b
  | byte a, byte b => a == b
  | short a, short b => a == b
  | char a, char b => a == b
  | int a, int b => a == b
  | long a, long b => a == b
  | float a, float b => a == b
  | double a, double b => a == b
  | str a, str b => a == b
  | array c xs, array d ys => c == d && sameAll xs ys
  | enum t a, enum u b => t == u && a == b
  | object t i xs, object u j ys => t == u && i == j && sameAll xs ys
  | _, _ => false

/-- equality of lists of values, position by position -/
def sameAll : List Value → List Value → Bool
  | [], [] => true
  | x :: xs, y :: ys => same x y && sameAll xs ys
  | _, _ => false

end

instance : BEq Value := ⟨same⟩

def isNull : Value → Bool
  | null => true
  | _ => false

/-- the kind of a constant of a value-like kind -/
def kind? : Value → Option Kind
  | boolean _ => some .boolean
  | byte _ => some .byte
  | short _ => some .short
  | char _ => some .char
  | int _ => some .int
  | long _ => some .long
  | float _ => some .float
  | double _ => some .double
  | str _ => some .string
  | _ => none

/-- the type of a value at run time; null has none -/
def type? : Value → Option TypeName
  | array component _ => some component.arrayOf
  | enum ty _ => some ty
  | object ty _ _ => some ty
  | v => v.kind?.map TypeName.ofKind

end Value

end TestInputs
