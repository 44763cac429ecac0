/-
Instances of a type from arguments. The constructor is chosen by overload matching: it must be the only one with as many
parameters as there are arguments, each of which accepts its argument. It is tried on the first tuple of arguments, and
then gives one instance for every tuple that it does not reject.
-/
import TestInputs.Failure
import TestInputs.Hierarchy
import TestInputs.Sequence.Odometer
import TestInputs.Value.Shown

namespace TestInputs

/-- one constructor argument: a fixed value, or the values of a declared type -/
inductive Argument where
  | concrete (value : Value)
  | generated (ty : TypeName) (values : Dimension Value)

namespace Argument

/-- the type used for matching; null has none -/
def type? : Argument → Option TypeName
  | concrete value => value.type?
  | generated ty _ => some ty

/-- does a parameter accept the argument? -/
def fits (h : Hierarchy) (parameter : TypeName) (a : Argument) : Bool :=
  match a.type? with
  | some ty => h.isAssignable parameter ty
  | none => parameter.isNullable

/-- the values of the argument -/
def dimension : Argument → Dimension Value
  | concrete value => .ofFactory fun _ => .once value
  | generated _ values => values

/-- the types of arguments, as they are listed in messages -/
def describe (arguments : List Argument) : String :=
  commaSeparated (arguments.map fun a => (a.type?.map TypeName.text).getD "null")

end Argument

namespace Constructor

/-- does the constructor accept the arguments? -/
def accepts (h : Hierarchy) (arguments : List Argument) (c : Constructor) : Bool :=
  c.arity == arguments.length && (c.parameters.zip arguments).all fun p => p.2.fits h p.1

/-- call the constructor with the given index of a type; without a hook the call itself is the value -/
def build (ty : TypeName) (index : Nat) (c : Constructor) (arguments : List Value) :
    Except ConstructionFailure Value :=
  match c.hook with
  | some hook => hook arguments
  | none => .ok (.object ty index arguments)

end Constructor

/-- the index of the chosen constructor, and the instances that it gives -/
structure Instantiation where
  constructor : Nat
  instances : Sequence Value

namespace TypeInfo

/-- the constructors that accept the arguments, with their indices -/
def accepting (info : TypeInfo) (h : Hierarchy) (arguments : List Argument) : List (Constructor × Nat) :=
  info.constructors.zipIdx.filter fun c => c.1.accepts h arguments

/-- the instances that a constructor gives, if it accepts the first tuple -/
def instancesOf (info : TypeInfo) (c : Constructor) (index : Nat) (arguments : List Argument) :
    Except InstantiationError Instantiation :=
  let tuples := Sequence.product (arguments.map Argument.dimension)
  match tuples with
  | .nil => .error (.noArguments info.ty index)
  | .cut => .ok ⟨index, .cut⟩
  | .cons first _ =>
    match c.build info.ty index first with
    | .error failure => .error (.failed info.ty index failure)
    | .ok _ => .ok ⟨index, tuples.filterMap fun tuple => (c.build info.ty index tuple).toOption⟩

/-- choose the constructor for the arguments and make instances -/
def instantiate (info : TypeInfo) (h : Hierarchy) (arguments : List Argument) :
    Except InstantiationError Instantiation :=
  match info.accepting h arguments with
  | [] => .error (.noMatch info.ty (Argument.describe arguments))
  | [(c, index)] => info.instancesOf c index arguments
  | several => .error (.ambiguous info.ty several.length (Argument.describe arguments))

end TypeInfo

end TestInputs
