/-
The unit under test, as an analysis of its source describes it: the declaring type, its operations with their parameter
slots, the types that are known, and the hierarchy of types.
-/
import TestInputs.Decimal.Layout
import TestInputs.Hierarchy

namespace TestInputs

/-- what an operation is -/
inductive OperationKind where
  | constructor
  | method
  | staticMethod
  deriving DecidableEq

/-- only methods are invoked on an instance -/
def OperationKind.needsReceiver (k : OperationKind) : Bool := k == method

/-- one declared parameter of an operation -/
structure Slot where
  operation : String
  ty : TypeName
  ordinal : Nat
  name : String

/-- a testable operation, with the literals found in its code and in its specification -/
structure Operation where
  id : String
  name : String
  kind : OperationKind
  parameters : List Slot
  literals : LiteralTable := .empty
  specLiterals : LiteralTable := .empty

namespace Operation

/-- an operation with parameters of the given types, numbered in order and named `p0`, `p1` and so on; its id is the name
followed by the texts of the types as they were given -/
def ofTexts (name : String) (kind : OperationKind) (types : List String) : Operation :=
  let id := name ++ "(" ++ String.intercalate "," types ++ ")"
  let slot (text : String) (i : Nat) : Slot :=
    { operation := id, ty := TypeName.parse text, ordinal := i, name := "p" ++ Decimal.naturalText i }
  { id, name, kind, parameters := types.mapIdx fun i text => slot text i }

end Operation

/-- all that is known about a unit under test -/
structure UnitInfo where
  declaring : TypeName
  operations : List Operation := []
  types : List TypeInfo := []
  hierarchy : Hierarchy := .empty

namespace UnitInfo

/-- put a type in place of the one that it is equal to, or at the end -/
def replaceType (info : TypeInfo) : List TypeInfo → List TypeInfo
  | [] => [info]
  | t :: ts => if t.ty == info.ty then info :: ts else t :: replaceType info ts

/-- add or replace a type and record its edges -/
def addType (u : UnitInfo) (info : TypeInfo) : UnitInfo :=
  { u with types := replaceType info u.types, hierarchy := u.hierarchy.link info }

def addOperation (u : UnitInfo) (op : Operation) : UnitInfo :=
  { u with operations := u.operations ++ [op] }

def addWrapper (u : UnitInfo) (k : Kind) (wrapper : TypeName) : UnitInfo :=
  { u with hierarchy := u.hierarchy.addWrapper k wrapper }

/-- the same unit with its wrappers visited in another order -/
def visiting (u : UnitInfo) (visits : Visits) : UnitInfo :=
  { u with hierarchy := u.hierarchy.visiting visits }

/-- record the edges of every known type again -/
def linkTypes (u : UnitInfo) : UnitInfo :=
  { u with hierarchy := u.types.foldl Hierarchy.link u.hierarchy }

/-- what is known about a type -/
def typeInfo? (u : UnitInfo) (ty : TypeName) : Option TypeInfo :=
  u.types.find? fun info => info.ty == ty

/-- what is known about the declaring type -/
def declaringInfo? (u : UnitInfo) : Option TypeInfo :=
  u.typeInfo? u.declaring

/-- the first operation with the given id -/
def operation? (u : UnitInfo) (id : String) : Option Operation :=
  u.operations.find? fun op => op.id == id

end UnitInfo

end TestInputs
