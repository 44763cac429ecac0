/-
The documents of values. Null is null; every other value is a record whose one field names the constructor. Numbers of
the floating kinds are written by their bit patterns in hexadecimal, so that a zero keeps its sign, and long integers as
decimal texts.
-/
import TestInputs.Document.Text
import TestInputs.Value.Basic

namespace TestInputs

namespace Binary

variable {f : Format}

/-- the bit pattern in hexadecimal; every NaN is written alike -/
def toDocument (x : Binary f) : Document :=
  .text (if x.isNaN then "NaN" else String.ofList (Document.hexChars (f.width / 4) x.bits.toNat))

def ofDocument : Document → Reading (Binary f)
  | .text "NaN" => .ok nan
  | .text s => (Document.required (Document.Token.readHex? s.toList)).map ofBits
  | _ => .error .malformed

end Binary

namespace Document

/-- a field of a record; null if there is none -/
def get (d : Document) (name : String) : Document :=
  match d with
  | record fields => ((fields.find? fun f => f.1 == name).map Prod.snd).getD null
  | _ => null

/-- the items of a list; none if there is no list -/
def items : Document → List Document
  | list ds => ds
  | _ => []

theorem sizeOf_get_le (d : Document) (name : String) : sizeOf (d.get name) ≤ sizeOf d := by
  cases d with
  | record fields =>
    simp only [get]
    cases found : fields.find? fun f => f.1 == name with
    | none => simp
    | some p =>
      have := List.sizeOf_lt_of_mem (List.mem_of_find?_eq_some found)
      obtain ⟨n, d⟩ := p
      simp at this ⊢
      omega
  | _ => simp [get]

theorem sizeOf_lt_of_mem_items {d e : Document} (h : e ∈ d.items) : sizeOf e < sizeOf d := by
  cases d with
  | list ds =>
    have : sizeOf e < sizeOf ds := List.sizeOf_lt_of_mem h
    simp
    omega
  | _ => simp [items] at h

/-- an integer, whatever its size -/
def readInteger : Document → Reading Int
  | integer n => .ok n
  | _ => .error .malformed

/-- an integer written as a text -/
def readIntegerText (d : Document) : Reading Int := do
  required (Decimal.readInteger? (← readText d).toList)

end Document

namespace Value

open Document

/-- a type by its text -/
def readTypeText (d : Document) : Reading TypeName :=
  (readText d).map TypeName.parse

mutual

def toDocument : Value → Document
  | null => .null
  | boolean b => .record [("boolean", .boolean b)]
  | byte n => .record [("byte", .integer n.toInt)]
  | short n => .record [("short", .integer n.toInt)]
  | char c => .record [("char", .integer c.toNat)]
  | int n => .record [("int", .integer n.toInt)]
  | long n => .record [("long", .text (Decimal.integerText n.toInt))]
  | float x => .record [("float", x.toDocument)]
  | double x => .record [("double", x.toDocument)]
  | str s => .record [("str", .text s)]
  | array component elements =>
    .record [("array", .record [("component", .text component.text), ("elements", .list (toDocuments elements))])]
  | enum ty constant => .record [("enum", .record [("ty", .text ty.text), ("constant", .text constant)])]
  | object ty constructor arguments =>
    .record
      [("object",
        .record
          [("ty", .text ty.text), ("constructor", .integer constructor),
            ("arguments", .list (toDocuments arguments))])]

def toDocuments : List Value → List Document
  | [] => []
  | v :: vs => toDocument v :: toDocuments vs

end

/-- a value of one of the kinds without parts -/
def ofSimple (tag : String) (d : Document) : Reading Value :=
  match tag with
  | "boolean" => (readBoolean d).map boolean
  | "byte" => (readInteger d).map fun n => byte (Int8.ofInt n)
  | "short" => (readInteger d).map fun n => short (Int16.ofInt n)
  | "char" => (readNatural d).map fun n => char (Char.ofNat n)
  | "int" => (readInteger d).map fun n => int (Int32.ofInt n)
  | "long" => (readIntegerText d).map fun n => long (Int64.ofInt n)
  | "float" => (Binary.ofDocument d).map float
  | "double" => (Binary.ofDocument d).map double
  | "str" => (readText d).map str
  | _ => .error .malformed

def ofDocument : Document → Reading Value
  | .null => .ok null
  | .record [(tag, d)] =>
    match tag with
    | "array" => do
      let component ← readTypeText (d.get "component")
      let elements ← (d.get "elements").items.attach.mapM fun e => ofDocument e.1
      return array component elements
    | "enum" => do
      return enum (← readTypeText (d.get "ty")) (← readText (d.get "constant"))
    | "object" => do
      let ty ← readTypeText (d.get "ty")
      let constructor ← readNatural (d.get "constructor")
      let arguments ← (d.get "arguments").items.attach.mapM fun e => ofDocument e.1
      return object ty constructor arguments
    | tag => ofSimple tag d
  | _ => .error .malformed
termination_by d => sizeOf d
decreasing_by
  all_goals
    have := sizeOf_lt_of_mem_items e.2
    have := sizeOf_get_le d "elements"
    have := sizeOf_get_le d "arguments"
    simp
    omega

end Value

end TestInputs
