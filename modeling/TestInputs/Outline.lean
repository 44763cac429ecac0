/-
One-line outlines of values, constructors, arguments, strategies and catalogs, for logs: the name of a thing and its parts
in braces or parentheses.
-/
import TestInputs.Catalog
import TestInputs.Instantiation

namespace TestInputs.Outline

open Decimal (integerText naturalText)

/-- a name and named parts in braces -/
def parts (name : String) (fields : List (String × String)) : String :=
  name ++ " \x7b " ++ commaSeparated (fields.map fun f => f.1 ++ ": " ++ f.2) ++ " \x7d"

/-- a name and a part in parentheses -/
def wrapped (name part : String) : String := name ++ "(" ++ part ++ ")"

def listed (items : List String) : String := "[" ++ commaSeparated items ++ "]"

def optional : Option String → String
  | some part => wrapped "Some" part
  | none => "None"

def truth (b : Bool) : String := if b then "true" else "false"

def ofType (ty : TypeName) : String :=
  parts "TypeDescriptor"
    [("name", Text.quoted ty.name), ("dimensions", naturalText ty.dimensions), ("generic", Text.quoted ty.generic)]

mutual

/-- the outline of a value -/
def ofValue : Value → String
  | .null => "Null"
  | .boolean b => wrapped "Boolean" (truth b)
  | .byte n => wrapped "Byte" (integerText n.toInt)
  | .short n => wrapped "Short" (integerText n.toInt)
  | .char c => wrapped "Char" (Text.quotedChar c)
  | .int n => wrapped "Int" (integerText n.toInt)
  | .long n => wrapped "Long" (integerText n.toInt)
  | .float x => wrapped "Float" (Decimal.write Value.numberLayout x)
  | .double x => wrapped "Double" (Decimal.write Value.numberLayout x)
  | .str s => wrapped "Str" (Text.quoted s)
  | .array component elements =>
    parts "Array" [("component", ofType component), ("elements", listed (ofValues elements))]
  | .enum ty constant => parts "Enum" [("ty", ofType ty), ("constant", Text.quoted constant)]
  | .object ty constructor arguments =>
    wrapped "Object"
      (parts "Instance"
        [("ty", ofType ty), ("constructor", naturalText constructor), ("arguments", listed (ofValues arguments))])

/-- the outlines of several values -/
def ofValues : List Value → List String
  | [] => []
  | v :: vs => ofValue v :: ofValues vs

end

def ofSampling (s : Sampling) : String :=
  parts "SamplingConfig"
    [("fraction", Decimal.write Value.numberLayout s.fraction), ("seed", naturalText s.seed.toNat)]

/-- a strategy with the numbers of its explicit values -/
def ofStrategy (s : CustomStrategy) : String :=
  parts "CustomStrategy"
    [("ty", ofType s.target), ("local", naturalText s.localValues.length),
      ("type_scoped", naturalText s.typeValues.length), ("namespace_scoped", naturalText s.namespaceValues.length),
      ("sampling", optional (s.sampling.map ofSampling)), ("use_defaults", truth s.useDefaults)]

def ofConstructor (c : Constructor) : String :=
  parts "ConstructorSignature"
    [("parameters", listed (c.parameters.map ofType)),
      ("construct", optional (c.hook.map fun _ => Text.quoted "<hook>"))]

/-- a fixed argument by its value, a generated one by its type -/
def ofArgument : Argument → String
  | .concrete v => wrapped "Concrete" (ofValue v)
  | .generated ty _ => "Generated \x7b ty: " ++ ofType ty ++ ", .. \x7d"

def ofCatalog (c : Catalog) : String := parts "StrategyCatalog" [("entries", naturalText c.size)]

end TestInputs.Outline
