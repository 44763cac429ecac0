/-
Structured documents: nulls, truth values, numbers, texts, lists, and records of named fields. Units under test and
settings are written as documents and read back from them.

A record type is read field by field. Its document is a record, whose fields are visited in the order of their names and
of which unknown ones are passed over, or a list of the fields in declaration order, from which fields at the end may be
missing. The first field that cannot be read decides the error; what a record type requires is checked at the end.
-/
import TestInputs.Sampling
import TestInputs.Text.Sorted

namespace TestInputs

/-- a structured document; integers and other numbers are kept apart -/
inductive Document where
  | null
  | boolean (b : Bool)
  | integer (n : Int)
  | real (x : Double)
  | text (s : String)
  | list (items : List Document)
  | record (fields : List (String × Document))

/-- why a document was refused -/
inductive ReadError where
  /-- it does not have the expected form -/
  | malformed
  /-- it has, but holds a sampling fraction out of range -/
  | invalidFraction (e : InvalidFraction)

/-- the result of reading a document -/
abbrev Reading (α : Type) := Except ReadError α

namespace Document

/-! ## Plain values -/

def readBoolean : Document → Reading Bool
  | boolean b => .ok b
  | _ => .error .malformed

/-- a natural, written as an integer -/
def readNatural : Document → Reading Nat
  | integer n => if 0 ≤ n then .ok n.toNat else .error .malformed
  | _ => .error .malformed

/-- a natural of at most sixty-four bits -/
def readWord (d : Document) : Reading UInt64 := do
  let n ← readNatural d
  if n < 0x10000000000000000 then return UInt64.ofNat n else throw .malformed

/-- any number -/
def readReal : Document → Reading Double
  | integer n => .ok (.ofRatio (n < 0) n.natAbs 1)
  | real x => .ok x
  | _ => .error .malformed

def readText : Document → Reading String
  | text s => .ok s
  | _ => .error .malformed

/-- a list, item by item -/
def readList {α : Type} (read : Document → Reading α) : Document → Reading (List α)
  | list items => items.mapM read
  | _ => .error .malformed

/-- null for an absent value -/
def readOption {α : Type} (read : Document → Reading α) : Document → Reading (Option α)
  | null => .ok none
  | d => (read d).map some

/-- one of several names, as a text or as a record with that field alone, which is null -/
def readName {α : Type} (ofName? : String → Option α) (d : Document) : Reading α :=
  let named (name : String) : Reading α :=
    match ofName? name with
    | some a => .ok a
    | none => .error .malformed
  match d with
  | text name => named name
  | record [(name, null)] => named name
  | _ => .error .malformed

/-! ## Records -/

/-- put a field in front of those with a greater name -/
def insertField (field : String × Document) : List (String × Document) → List (String × Document)
  | [] => [field]
  | f :: fs => if f.1 < field.1 then f :: insertField field fs else field :: f :: fs

/-- fields in the order of their names -/
def sortFields (fields : List (String × Document)) : List (String × Document) :=
  fields.foldr insertField []

/-- the fields of a record one by one, in the order of their names -/
def readEntries {σ : Type} (step : σ → String → Document → Reading σ) (start : σ) : Document → Reading σ
  | record fields => (sortFields fields).foldlM (fun s f => step s f.1 f.2) start
  | _ => .error .malformed

/-- a field of a record type: its name, and how its document changes what has been read so far -/
structure Field (σ : Type) where
  name : String
  read : σ → Document → Reading σ

/-- the items of a list as the fields of a record type in declaration order -/
def readItems {σ : Type} : List (Field σ) → List Document → σ → Reading σ
  | _, [], s => .ok s
  | [], _ :: _, _ => .error .malformed
  | f :: fs, d :: ds, s => (f.read s d).bind (readItems fs ds)

/-- the fields of a record type that a document holds -/
def readFields {σ : Type} (fields : List (Field σ)) (start : σ) (d : Document) : Reading σ :=
  match d with
  | list items => readItems fields items start
  | d =>
    let step (s : σ) (name : String) (d : Document) : Reading σ :=
      match fields.find? fun f => f.name == name with
      | some f => f.read s d
      | none => .ok s
    readEntries step start d

/-- a field that holds one part of what is read -/
def field {σ β : Type} (name : String) (read : Document → Reading β) (set : σ → β → σ) : Field σ :=
  { name, read := fun s d => (read d).map (set s) }

/-- a part that is required -/
def required {β : Type} : Option β → Reading β
  | some b => .ok b
  | none => .error .malformed

end Document

end TestInputs
