/-
What is known about one type of the unit under test: whether it is abstract, its enumeration constants, its accessible
constructors in declaration order, its declared subtypes and supertypes, and the literals found in it.

A constructor may carry a hook, a pure function that performs the call on given arguments or rejects them. Hooks do not
take part in equality.
-/
import TestInputs.LiteralTable
import TestInputs.Value.Basic

namespace TestInputs

/-- the reason why a hook rejected its arguments -/
structure ConstructionFailure where
  reason : String
  deriving DecidableEq

/-- performs a constructor call, or rejects the arguments -/
abbrev Hook := List Value → Except ConstructionFailure Value

/-- a constructor: its parameter types, and a hook if one is attached -/
structure Constructor where
  parameters : List TypeName
  hook : Option Hook := none

namespace Constructor

def arity (c : Constructor) : Nat := c.parameters.length

instance : BEq Constructor := ⟨fun c d => c.parameters == d.parameters⟩

end Constructor

/-- everything known about one type -/
structure TypeInfo where
  ty : TypeName
  isAbstract : Bool := false
  constants : List String := []
  constructors : List Constructor := []
  subtypes : List TypeName := []
  supertypes : List TypeName := []
  literals : LiteralTable := .empty
  specLiterals : LiteralTable := .empty

namespace TypeInfo

/-- an enumeration is a type with constants -/
def isEnum (info : TypeInfo) : Bool := !info.constants.isEmpty

/-- concrete types with a constructor can be instantiated -/
def isInstantiable (info : TypeInfo) : Bool := !info.isAbstract && !info.constructors.isEmpty

/-- equality of all parts, types compared without generic parts and constructors without hooks -/
def same (a b : TypeInfo) : Bool :=
  a.ty == b.ty && a.isAbstract == b.isAbstract && a.constants == b.constants && a.constructors == b.constructors &&
    a.subtypes == b.subtypes && a.supertypes == b.supertypes && a.literals == b.literals &&
    a.specLiterals == b.specLiterals

instance : BEq TypeInfo := ⟨same⟩

end TypeInfo

end TestInputs
