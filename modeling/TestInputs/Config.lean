/-
The settings of one generation session.
-/
import TestInputs.Sampling

namespace TestInputs

/-- what is generated -/
structure Config where
  /-- the longest array that is built from a component type -/
  maxArrayLength : Nat := 1
  /-- may types without a strategy be built by constructors that take arguments? -/
  structuralFallback : Bool := true
  /-- are known subtypes tried for structured types? -/
  useSubtypes : Bool := true
  /-- are literals from code candidate values? -/
  useLiterals : Bool := true
  /-- are literals from specifications candidate values? -/
  useSpecLiterals : Bool := true
  /-- how values are sampled where a strategy does not say -/
  sampling : Option Sampling := none

end TestInputs
