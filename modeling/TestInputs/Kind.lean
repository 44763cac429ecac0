/-
The value-like kinds. Their types get boundary constants and literals as candidate values; every other type is an array
or a structured type. The constructors stand in the order of the kinds.
-/

namespace TestInputs

/-- a value-like kind -/
inductive Kind where
  | boolean
  | byte
  | short
  | char
  | int
  | long
  | float
  | double
  | string
  deriving DecidableEq, Ord

namespace Kind

/-- the canonical type name of a kind -/
def name : Kind → String
  | boolean => "boolean"
  | byte => "byte"
  | short => "short"
  | char => "char"
  | int => "int"
  | long => "long"
  | float => "float"
  | double => "double"
  | string => "String"

/-- the kind that a qualified type name stands for; strings have two names -/
def ofName? (name : String) : Option Kind :=
  if name = "boolean" then some boolean
  else if name = "byte" then some byte
  else if name = "short" then some short
  else if name = "char" then some char
  else if name = "int" then some int
  else if name = "long" then some long
  else if name = "float" then some float
  else if name = "double" then some double
  else if name = "String" || name = "java.lang.String" then some string
  else none

/-- only strings may be null -/
def isNullable (k : Kind) : Bool := k == string

/-- all kinds in order -/
def all : List Kind := [boolean, byte, short, char, int, long, float, double, string]

end Kind

end TestInputs
