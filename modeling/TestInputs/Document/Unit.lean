/-
Units under test as documents. Types are written by their texts, kinds by name, sets of texts as ascending lists, maps as
records. Hooks are not written.
-/
import TestInputs.Document.Basic
import TestInputs.UnitInfo

namespace TestInputs

open Document (field readBoolean readNatural readText readList readName readEntries readFields required)
open Text (TextSet TextMap)

/-! ## Kinds and types -/

namespace Kind

/-- the name of a kind in documents -/
def label : Kind → String
  | boolean => "Boolean"
  | byte => "Byte"
  | short => "Short"
  | char => "Char"
  | int => "Int"
  | long => "Long"
  | float => "Float"
  | double => "Double"
  | string => "String"

def ofLabel? (s : String) : Option Kind := all.find? fun k => k.label == s

def toDocument (k : Kind) : Document := .text k.label

def ofDocument : Document → Reading Kind := readName ofLabel?

end Kind

namespace OperationKind

/-- the name of a kind of operation in documents -/
def label : OperationKind → String
  | constructor => "Constructor"
  | method => "Method"
  | staticMethod => "StaticMethod"

def ofLabel? (s : String) : Option OperationKind :=
  [constructor, method, staticMethod].find? fun k => k.label == s

def toDocument (k : OperationKind) : Document := .text k.label

def ofDocument : Document → Reading OperationKind := readName ofLabel?

end OperationKind

namespace TypeName

def toDocument (ty : TypeName) : Document := .text ty.text

def ofDocument (d : Document) : Reading TypeName := (readText d).map parse

def listToDocument (types : List TypeName) : Document := .list (types.map toDocument)

end TypeName

/-! ## Literals -/

namespace Text.TextSet

def toDocument (a : TextSet) : Document := .list (a.items.map .text)

def ofDocument (d : Document) : Reading TextSet := (readList readText d).map ofList

end Text.TextSet

namespace LiteralTable

def toDocument (t : LiteralTable) : Document :=
  .record
    [("type_references", t.references.toDocument),
      ("values", .record (t.values.entries.map fun e => (e.1, e.2.toDocument)))]

/-- literal texts by type name -/
def valuesOfDocument : Document → Reading (TextMap TextSet) :=
  readEntries (fun m key d => (TextSet.ofDocument d).map (m.insert key)) .empty

def ofDocument : Document → Reading LiteralTable :=
  readFields
    [field "values" valuesOfDocument fun t values => { t with values },
      field "type_references" TextSet.ofDocument fun t references => { t with references }]
    .empty

end LiteralTable

/-! ## Operations -/

namespace Slot

def toDocument (s : Slot) : Document :=
  .record
    [("name", .text s.name), ("operation", .text s.operation), ("ordinal", .integer s.ordinal),
      ("ty", s.ty.toDocument)]

/-- the parts of a slot that have been read -/
structure Draft where
  operation : Option String := none
  ty : Option TypeName := none
  ordinal : Option Nat := none
  name : Option String := none

def Draft.finish (d : Draft) : Reading Slot := do
  let operation ← required d.operation
  let ty ← required d.ty
  let ordinal ← required d.ordinal
  let name ← required d.name
  return { operation, ty, ordinal, name }

def ofDocument (d : Document) : Reading Slot :=
  (readFields
    [field "operation" readText fun s (x : String) => { s with operation := x },
      field "ty" TypeName.ofDocument fun s x => { s with ty := x },
      field "ordinal" readNatural fun s x => { s with ordinal := x },
      field "name" readText fun s x => { s with name := x }]
    ({} : Draft) d).bind Draft.finish

end Slot

namespace Operation

def toDocument (op : Operation) : Document :=
  .record
    [("id", .text op.id), ("kind", op.kind.toDocument), ("literals", op.literals.toDocument),
      ("name", .text op.name), ("parameters", .list (op.parameters.map Slot.toDocument)),
      ("spec_literals", op.specLiterals.toDocument)]

/-- the parts of an operation that have been read -/
structure Draft where
  id : Option String := none
  name : Option String := none
  kind : Option OperationKind := none
  parameters : Option (List Slot) := none
  literals : LiteralTable := .empty
  specLiterals : LiteralTable := .empty

def Draft.finish (d : Draft) : Reading Operation := do
  let id ← required d.id
  let name ← required d.name
  let kind ← required d.kind
  let parameters ← required d.parameters
  return { id, name, kind, parameters, literals := d.literals, specLiterals := d.specLiterals }

def ofDocument (d : Document) : Reading Operation :=
  (readFields
    [field "id" readText fun s (x : String) => { s with id := x },
      field "name" readText fun s x => { s with name := x },
      field "kind" OperationKind.ofDocument fun s x => { s with kind := x },
      field "parameters" (readList Slot.ofDocument) fun s x => { s with parameters := x },
      field "literals" LiteralTable.ofDocument fun s x => { s with literals := x },
      field "spec_literals" LiteralTable.ofDocument fun s x => { s with specLiterals := x }]
    ({} : Draft) d).bind Draft.finish

end Operation

/-! ## Types -/

namespace Constructor

def toDocument (c : Constructor) : Document :=
  .record [("parameters", TypeName.listToDocument c.parameters)]

def ofDocument (d : Document) : Reading Constructor :=
  (readFields [field "parameters" (readList TypeName.ofDocument) fun _ parameters => some parameters] none d).bind
    fun parameters? => (required parameters?).map fun parameters => { parameters }

end Constructor

namespace TypeInfo

def toDocument (info : TypeInfo) : Document :=
  .record
    [("constructors", .list (info.constructors.map Constructor.toDocument)),
      ("enum_constants", .list (info.constants.map .text)), ("is_abstract", .boolean info.isAbstract),
      ("literals", info.literals.toDocument), ("spec_literals", info.specLiterals.toDocument),
      ("subtypes", TypeName.listToDocument info.subtypes),
      ("supertypes", TypeName.listToDocument info.supertypes), ("ty", info.ty.toDocument)]

/-- the parts of a type that have been read -/
structure Draft where
  ty : Option TypeName := none
  isAbstract : Bool := false
  constants : List String := []
  constructors : List Constructor := []
  subtypes : List TypeName := []
  supertypes : List TypeName := []
  literals : LiteralTable := .empty
  specLiterals : LiteralTable := .empty

def Draft.finish (d : Draft) : Reading TypeInfo :=
  (required d.ty).map fun ty =>
    { ty
      isAbstract := d.isAbstract
      constants := d.constants
      constructors := d.constructors
      subtypes := d.subtypes
      supertypes := d.supertypes
      literals := d.literals
      specLiterals := d.specLiterals }

def ofDocument (d : Document) : Reading TypeInfo :=
  (readFields
    [field "ty" TypeName.ofDocument fun s (x : TypeName) => { s with ty := x },
      field "is_abstract" readBoolean fun s x => { s with isAbstract := x },
      field "enum_constants" (readList readText) fun s x => { s with constants := x },
      field "constructors" (readList Constructor.ofDocument) fun s x => { s with constructors := x },
      field "subtypes" (readList TypeName.ofDocument) fun s x => { s with subtypes := x },
      field "supertypes" (readList TypeName.ofDocument) fun s x => { s with supertypes := x },
      field "literals" LiteralTable.ofDocument fun s x => { s with literals := x },
      field "spec_literals" LiteralTable.ofDocument fun s x => { s with specLiterals := x }]
    ({} : Draft) d).bind Draft.finish

end TypeInfo

/-! ## The hierarchy -/

namespace Hierarchy

def toDocument (h : Hierarchy) : Document :=
  .record
    [("supertypes", .record (h.edges.map fun e => (e.1.text, TypeName.listToDocument e.2))),
      ("wrappers",
        .record (Kind.all.filterMap fun k => (h.wrappers k).map fun ty => (k.label, ty.toDocument)))]

/-- supertypes by type; of two names of one type the first is kept, with the supertypes of the last -/
def edgesOfDocument : Document → Reading Edges :=
  readEntries (fun edges key d =>
    (readList TypeName.ofDocument d).map fun sups => edges.alter (TypeName.parse key) fun _ => sups) []

/-- wrapper types by kind -/
def wrappersOfDocument : Document → Reading (Kind → Option TypeName) :=
  readEntries (fun wrappers key d => do
    let k ← Kind.ofDocument (.text key)
    let ty ← TypeName.ofDocument d
    return fun j => if j = k then some ty else wrappers j) fun _ => none

def ofDocument : Document → Reading Hierarchy :=
  readFields
    [field "supertypes" edgesOfDocument fun h edges => { h with edges },
      field "wrappers" wrappersOfDocument fun h wrappers => { h with wrappers }]
    .empty

end Hierarchy

/-! ## Units -/

namespace UnitInfo

def toDocument (u : UnitInfo) : Document :=
  .record
    [("declaring", u.declaring.toDocument), ("hierarchy", u.hierarchy.toDocument),
      ("operations", .list (u.operations.map Operation.toDocument)),
      ("types", .list (u.types.map TypeInfo.toDocument))]

/-- the parts of a unit that have been read -/
structure Draft where
  declaring : Option TypeName := none
  operations : List Operation := []
  types : List TypeInfo := []
  hierarchy : Hierarchy := .empty

def Draft.finish (d : Draft) : Reading UnitInfo :=
  (required d.declaring).map fun declaring =>
    { declaring, operations := d.operations, types := d.types, hierarchy := d.hierarchy }

def ofDocument (d : Document) : Reading UnitInfo :=
  (readFields
    [field "declaring" TypeName.ofDocument fun s (x : TypeName) => { s with declaring := x },
      field "operations" (readList Operation.ofDocument) fun s x => { s with operations := x },
      field "types" (readList TypeInfo.ofDocument) fun s x => { s with types := x },
      field "hierarchy" Hierarchy.ofDocument fun s x => { s with hierarchy := x }]
    ({} : Draft) d).bind Draft.finish

end UnitInfo

end TestInputs
