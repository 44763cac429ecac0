/-
Type names. A type is a qualified base name, a generic part that is kept for display, and a number of array dimensions.
Reading a text strips blanks and final pairs of brackets, each pair a dimension, and splits the rest at the first angle
bracket. Two type names denote the same type when name and dimensions agree: `==` ignores the generic part.
-/
import TestInputs.Kind
import TestInputs.Text.Blank

namespace TestInputs

/-- the name of a type of the unit under test -/
structure TypeName where
  name : String
  generic : String
  dimensions : Nat

namespace TypeName

/-- the same type, whatever the generic parts are -/
def same (a b : TypeName) : Bool :=
  a.name == b.name && a.dimensions == b.dimensions

instance : BEq TypeName := ⟨same⟩

theorem beq_iff (a b : TypeName) : (a == b) = true ↔ a.name = b.name ∧ a.dimensions = b.dimensions := by
  simp [BEq.beq, same]

instance : EquivBEq TypeName where
  rfl := by simp [beq_iff]
  symm := by simp only [beq_iff]; intro a b h; exact ⟨h.1.symm, h.2.symm⟩
  trans := by simp only [beq_iff]; intro a b c h k; exact ⟨h.1.trans k.1, h.2.trans k.2⟩

/-! ## Reading and writing -/

/-- count and remove final bracket pairs, with the blanks before each; the text is given from its end -/
def unbracket (cs : List Char) : Nat × List Char :=
  match cs with
  | ']' :: '[' :: rest =>
    let (dimensions, base) := unbracket (rest.dropWhile Text.isBlank)
    (dimensions + 1, base)
  | _ => (0, cs)
termination_by cs.length
decreasing_by
  have := (List.dropWhile_sublist Text.isBlank (l := rest)).length_le
  simp only [List.length_cons]
  omega

/-- read a type name from the characters of its text -/
def ofChars (cs : List Char) : TypeName :=
  let (dimensions, base) := unbracket (Text.trim cs).reverse
  { name := String.ofList (base.reverse.takeWhile (· != '<'))
    generic := String.ofList (base.reverse.dropWhile (· != '<'))
    dimensions }

/-- read a type name such as `int`, `pkg.Node`, `String[][]` or `List<String>` -/
def parse (text : String) : TypeName :=
  ofChars text.toList

/-- the characters of a number of bracket pairs -/
def brackets (n : Nat) : List Char :=
  (List.replicate n ['[', ']']).flatten

/-- the text of a type name -/
def text (ty : TypeName) : String :=
  ty.name ++ ty.generic ++ String.ofList (brackets ty.dimensions)

/-! ## Arrays -/

/-- the type with the given number of dimensions over the base that a text names -/
def array (text : String) (dimensions : Nat) : TypeName :=
  { parse text with dimensions }

/-- the array type one dimension deeper -/
def arrayOf (ty : TypeName) : TypeName :=
  { ty with dimensions := ty.dimensions + 1 }

/-- the component type of an array -/
def component? (ty : TypeName) : Option TypeName :=
  match ty.dimensions with
  | 0 => none
  | n + 1 => some { ty with dimensions := n }

/-- the innermost element type of an array; any other type itself -/
def base (ty : TypeName) : TypeName :=
  { ty with dimensions := 0 }

def isArray (ty : TypeName) : Bool :=
  0 < ty.dimensions

/-! ## Parts of the name -/

/-- the characters behind the last dot -/
def short (ty : TypeName) : String :=
  String.ofList (ty.name.toList.reverse.takeWhile (· != '.')).reverse

/-- the characters before the last dot, none without a dot -/
def namespaceName (ty : TypeName) : String :=
  String.ofList ((ty.name.toList.reverse.dropWhile (· != '.')).drop 1).reverse

/-! ## Kinds -/

/-- the kind of a value-like type; arrays have none -/
def kind? (ty : TypeName) : Option Kind :=
  if ty.isArray then none else Kind.ofName? ty.name

/-- value-like as opposed to array or structured -/
def isPrimitive (ty : TypeName) : Bool :=
  ty.kind?.isSome

/-- may a value of the type be null? -/
def isNullable (ty : TypeName) : Bool :=
  ty.kind?.all Kind.isNullable

/-- the canonical type of a kind -/
def ofKind (k : Kind) : TypeName :=
  { name := k.name, generic := "", dimensions := 0 }

end TypeName

end TestInputs
