/-
Ready-made construct hooks: hooks that always fail, that give a fixed value or their first argument, and hooks that make
the plain object of a constructor provided that its arguments pass a test.
-/
import TestInputs.Value.Shown
import TestInputs.TypeInfo

namespace TestInputs.Hook

/-- reject all arguments -/
def failing (reason : String) : Hook := fun _ => .error ⟨reason⟩

/-- give one value whatever the arguments are -/
def returning (value : Value) : Hook := fun _ => .ok value

/-- give the first argument; without arguments there is none -/
def firstArgument (reason : String) : Hook
  | [] => .error ⟨reason⟩
  | v :: _ => .ok v

/-- make the object of a constructor if the arguments pass -/
def passing (ty : TypeName) (constructor : Nat) (reason : String) (test : List Value → Bool) : Hook := fun arguments =>
  if test arguments then .ok (.object ty constructor arguments) else .error ⟨reason⟩

/-- the texts of arguments as one text -/
def joined (arguments : List Value) : String := commaSeparated (Value.shownAll arguments)

end TestInputs.Hook
