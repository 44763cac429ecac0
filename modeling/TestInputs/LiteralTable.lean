/-
Literals found in code or in specifications. A table records, for the name of each type, the texts of its literals, and
apart from them the types that are themselves named by literals. Tables are merged by union.
-/
import TestInputs.Text.Sorted
import TestInputs.TypeName

namespace TestInputs

open Text (TextSet TextMap)

/-- literal texts by type name, and the texts of referenced types -/
structure LiteralTable where
  values : TextMap TextSet
  references : TextSet
  deriving DecidableEq

namespace LiteralTable

def empty : LiteralTable := ⟨.empty, .empty⟩

def isEmpty (t : LiteralTable) : Bool := t.values.isEmpty && t.references.isEmpty

/-- record a literal under the name of its type -/
def insert (t : LiteralTable) (ty : TypeName) (literal : String) : LiteralTable :=
  { t with values := t.values.alter ty.name fun old => (old.getD .empty).insert literal }

/-- record a literal that names a type -/
def insertReference (t : LiteralTable) (ty : TypeName) : LiteralTable :=
  { t with references := t.references.insert ty.text }

/-- the literals of a type in ascending order; array types have none -/
def literalsFor (t : LiteralTable) (ty : TypeName) : List String :=
  if ty.isArray then [] else ((t.values.get? ty.name).getD .empty).items

/-- the referenced types in the order of their texts -/
def referencedTypes (t : LiteralTable) : List TypeName :=
  t.references.items.map TypeName.parse

/-- the literals of both tables -/
def merge (a b : LiteralTable) : LiteralTable :=
  { values := b.values.entries.foldl (fun m e => m.alter e.1 fun old => (old.getD .empty).union e.2) a.values
    references := a.references.union b.references }

end LiteralTable

end TestInputs
