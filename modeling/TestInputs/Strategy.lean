/-
Strategies: what values are tried for a type. A strategy has four tiers in a fixed order: values for one parameter, values
for the declaring type, values for the namespace, and default values that follow from the shape of the type. A type
without a registered strategy has only its shape.
-/
import TestInputs.Sampling
import TestInputs.UnitInfo
import TestInputs.Value.Literal

namespace TestInputs

/-- how default values are made for a type -/
inductive Shape where
  /-- boundary constants, then literals -/
  | primitive (ty : TypeName) (kind : Kind)
  /-- null, then the values of the boxed kind -/
  | boxed (ty : TypeName) (kind : Kind)
  /-- the declared constants -/
  | enumeration (ty : TypeName) (constants : List String)
  /-- null, the empty array, then arrays up to a length, the configured one if none is given -/
  | array (ty : TypeName) (maxLength : Option Nat)
  /-- null, then instances -/
  | structured (ty : TypeName)

namespace Shape

/-- the shape of a type of the unit -/
def ofType (u : UnitInfo) (ty : TypeName) : Shape :=
  if ty.isArray then array ty none
  else
    match ty.kind?, u.hierarchy.unboxed? ty, u.typeInfo? ty with
    | some k, _, _ => primitive ty k
    | none, some k, _ => boxed ty k
    | none, none, some info => if info.isEnum then enumeration ty info.constants else structured ty
    | none, none, none => structured ty

/-- set the longest array; only arrays have one -/
def withMaxLength (maxLength : Option Nat) : Shape → Shape
  | array ty own => array ty (maxLength.or own)
  | shape => shape

/-- the type whose values are made -/
def target : Shape → TypeName
  | primitive ty _ => ty
  | boxed ty _ => ty
  | enumeration ty _ => ty
  | array ty _ => ty
  | structured ty => ty

/-- boundary constants and then the values of literals, each value once -/
def primitiveValues (k : Kind) (texts : List String) : List Value :=
  (Value.boundaries k ++ texts.filterMap (Value.readLiteral? k)).eraseDups

/-- null and then the values of the boxed kind -/
def boxedValues (k : Kind) (texts : List String) : List Value :=
  .null :: (primitiveValues k texts).filter fun v => !v.isNull

end Shape

/-- a strategy with explicit values -/
structure CustomStrategy where
  target : TypeName
  localValues : List Value := []
  typeValues : List Value := []
  namespaceValues : List Value := []
  sampling : Option Sampling := none
  /-- the longest default array of an array type -/
  maxArrayLength : Option Nat := none
  /-- do the default values of the target's shape follow the explicit ones? -/
  useDefaults : Bool := true

/-- a shape alone, or explicit values in front of one -/
inductive Strategy where
  | builtin (shape : Shape)
  | custom (strategy : CustomStrategy)

namespace Strategy

def target : Strategy → TypeName
  | builtin shape => shape.target
  | custom s => s.target

def localValues : Strategy → List Value
  | builtin _ => []
  | custom s => s.localValues

def typeValues : Strategy → List Value
  | builtin _ => []
  | custom s => s.typeValues

def namespaceValues : Strategy → List Value
  | builtin _ => []
  | custom s => s.namespaceValues

def sampling : Strategy → Option Sampling
  | builtin _ => none
  | custom s => s.sampling

/-- the shape that gives the default values, if there are any -/
def defaultShape? (u : UnitInfo) : Strategy → Option Shape
  | builtin shape => some shape
  | custom s => if s.useDefaults then some ((Shape.ofType u s.target).withMaxLength s.maxArrayLength) else none

end Strategy

end TestInputs
