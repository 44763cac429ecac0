/-
Errors and diagnostics. Errors are causes; each type of them has one function that words it. A diagnostic is a condition
found while values are resolved that does not stop the resolution.
-/
import TestInputs.Decimal.Layout
import TestInputs.Sampling
import TestInputs.TypeInfo

namespace TestInputs

open Decimal (naturalText)

/-- the text of a read beyond the end of a sequence -/
def exhaustedMessage : String := "no current element: the sequence is exhausted"

def ConstructionFailure.message (e : ConstructionFailure) : String :=
  "construction failed: " ++ e.reason

/-- why no instances of a type could be made from given arguments -/
inductive InstantiationError where
  /-- several constructors accept the arguments -/
  | ambiguous (ty : TypeName) (count : Nat) (arguments : String)
  /-- no constructor accepts the arguments -/
  | noMatch (ty : TypeName) (arguments : String)
  /-- the matching constructor rejected its first arguments -/
  | failed (ty : TypeName) (constructor : Nat) (failure : ConstructionFailure)
  /-- some argument of the matching constructor has no values -/
  | noArguments (ty : TypeName) (constructor : Nat)

namespace InstantiationError

/-- the type that was to be instantiated -/
def target : InstantiationError → TypeName
  | ambiguous ty _ _ => ty
  | noMatch ty _ => ty
  | failed ty _ _ => ty
  | noArguments ty _ => ty

/-- the failure of a hook behind the error -/
def source? : InstantiationError → Option ConstructionFailure
  | failed _ _ failure => some failure
  | _ => none

def message : InstantiationError → String
  | ambiguous ty count arguments =>
    ty.text ++ ": " ++ naturalText count ++ " constructors accept (" ++ arguments ++ "); refusing to guess"
  | noMatch ty arguments => ty.text ++ ": no constructor accepts (" ++ arguments ++ ")"
  | failed ty constructor failure =>
    ty.text ++ ": constructor #" ++ naturalText constructor ++ " is unusable: " ++ failure.message
  | noArguments ty constructor =>
    ty.text ++ ": constructor #" ++ naturalText constructor ++ " has an argument with no candidate values"

end InstantiationError

/-- what is wrong with the slots of an operation -/
inductive SlotFault where
  /-- a slot does not carry its own position as ordinal -/
  | wrongOrdinal (index ordinal : Nat)
  /-- a slot names another operation as its owner -/
  | wrongOwner (index : Nat) (operation : String)
  /-- a fault in the words of whoever found it -/
  | stated (reason : String)

def SlotFault.message : SlotFault → String
  | wrongOrdinal index ordinal => "slot " ++ naturalText index ++ " has ordinal " ++ naturalText ordinal
  | wrongOwner index operation => "slot " ++ naturalText index ++ " belongs to " ++ operation
  | stated reason => reason

/-- why no tuples can be generated for an operation -/
inductive GenerationError where
  | malformedSlots (operation : String) (fault : SlotFault)
  | unknownOperation (id : String)
  | config (error : InvalidFraction)

def GenerationError.message : GenerationError → String
  | malformedSlots operation fault => "malformed parameter slots for " ++ operation ++ ": " ++ fault.message
  | unknownOperation id => "unknown operation: " ++ id
  | config error => error.message

/-! ## Diagnostics -/

/-- a condition worth reporting that does not stop the resolution -/
inductive Diagnostic where
  /-- a type has no values -/
  | noCoverage (ty : TypeName)
  /-- several constructors accept the arguments generated for one of them -/
  | ambiguousConstructor (ty : TypeName) (count : Nat)
  /-- a constructor cannot be used -/
  | unusableConstructor (ty : TypeName) (reason : String)
  /-- a type occurs inside itself, and null stands for the inner one -/
  | cycleTruncated (ty : TypeName)

namespace Diagnostic

def ty : Diagnostic → TypeName
  | noCoverage ty => ty
  | ambiguousConstructor ty _ => ty
  | unusableConstructor ty _ => ty
  | cycleTruncated ty => ty

def message : Diagnostic → String
  | noCoverage ty => "no coverage: no values for " ++ ty.text
  | ambiguousConstructor ty count => "dropped " ++ ty.text ++ ": " ++ naturalText count ++ " constructors matched"
  | unusableConstructor ty reason => "dropped " ++ ty.text ++ ": " ++ reason
  | cycleTruncated ty => "recursive occurrence of " ++ ty.text ++ " truncated to null"

/-- equality, types compared without generic parts -/
def same : Diagnostic → Diagnostic → Bool
  | noCoverage a, noCoverage b => a == b
  | ambiguousConstructor a m, ambiguousConstructor b n => a == b && m == n
  | unusableConstructor a r, unusableConstructor b s => a == b && r == s
  | cycleTruncated a, cycleTruncated b => a == b
  | _, _ => false

instance : BEq Diagnostic := ⟨same⟩

/-- what is reported for a constructor that was dropped -/
def ofError : InstantiationError → Diagnostic
  | .ambiguous ty count _ => ambiguousConstructor ty count
  | e => unusableConstructor e.target e.message

end Diagnostic

end TestInputs
