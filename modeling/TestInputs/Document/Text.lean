/-
The text of a document. Lists stand in brackets, records in braces, texts in double quotes; a number that is no integer
is written by the shortest digits that read back, and always with a point or an exponent.

A text is read token by token with a stack of the lists and records that are still open, the innermost first.
-/
import TestInputs.Decimal.Layout
import TestInputs.Document.Token

namespace TestInputs.Document

/-! ## Reading -/

/-- a list or record that is still open; what it holds so far is kept in reverse -/
inductive Opened where
  /-- a list that awaits an item; it may be closed at once only if nothing came before -/
  | item (before : List Document)
  /-- a list behind an item -/
  | afterItem (before : List Document)
  /-- a record that awaits a name; it may be closed at once only if nothing came before -/
  | name (before : List (String × Document))
  /-- a record behind a name -/
  | afterName (before : List (String × Document)) (name : String)
  /-- a record that awaits the document of a field -/
  | field (before : List (String × Document)) (name : String)
  /-- a record behind a field -/
  | afterField (before : List (String × Document))

/-- what has been read: the open lists and records, or a whole document -/
inductive Progress where
  | unfinished (stack : List Opened)
  | finished (d : Document)

/-- a document has been read -/
def Progress.put (d : Document) : List Opened → Option Progress
  | [] => some (finished d)
  | .item ds :: stack => some (unfinished (.afterItem (d :: ds) :: stack))
  | .field fs name :: stack => some (unfinished (.afterField ((name, d) :: fs) :: stack))
  | .name fs :: stack =>
    match d with
    | text name => some (unfinished (.afterName fs name :: stack))
    | _ => none
  | _ => none

/-- the next token -/
def Progress.step : Progress → Token → Option Progress
  | finished _, _ => none
  | unfinished stack, .atom d => put d stack
  | unfinished stack, .listOpen => some (unfinished (.item [] :: stack))
  | unfinished stack, .recordOpen => some (unfinished (.name [] :: stack))
  | unfinished (.item [] :: stack), .listClose => put (list []) stack
  | unfinished (.afterItem ds :: stack), .listClose => put (list ds.reverse) stack
  | unfinished (.name [] :: stack), .recordClose => put (record []) stack
  | unfinished (.afterField fs :: stack), .recordClose => put (record fs.reverse) stack
  | unfinished (.afterItem ds :: stack), .comma => some (unfinished (.item ds :: stack))
  | unfinished (.afterField fs :: stack), .comma => some (unfinished (.name fs :: stack))
  | unfinished (.afterName fs name :: stack), .colon => some (unfinished (.field fs name :: stack))
  | _, _ => none

/-- the document that a text holds -/
def parse? (s : String) : Option Document := do
  let tokens ← Token.read? s.toList
  match ← tokens.foldlM Progress.step (.unfinished []) with
  | .finished d => some d
  | .unfinished _ => none

/-! ## Writing -/

/-- a natural in hexadecimal, filled up with zeros to the given width -/
def hexChars (width n : Nat) : List Char :=
  let digits := Nat.toDigits 16 n
  List.replicate (width - digits.length) '0' ++ digits

/-- a character between quotes -/
def quotedChars (c : Char) : List Char :=
  if c = '"' || c = '\\' then ['\\', c]
  else if c.toNat < 0x20 then '\\' :: 'u' :: hexChars 4 c.toNat
  else [c]

def writeText (s : String) : String :=
  String.ofList ('"' :: s.toList.flatMap quotedChars ++ ['"'])

def numberLayout : Decimal.Layout :=
  { positional := some (-4, 16), keepPoint := true }

mutual

/-- the text of a document -/
def write : Document → String
  | null => "null"
  | boolean b => if b then "true" else "false"
  | integer n => Decimal.integerText n
  | real x => Decimal.write numberLayout x
  | text s => writeText s
  | list items => "[" ++ String.intercalate "," (writeItems items) ++ "]"
  | record fields => "\x7b" ++ String.intercalate "," (writeFields fields) ++ "\x7d"

def writeItems : List Document → List String
  | [] => []
  | d :: ds => write d :: writeItems ds

def writeFields : List (String × Document) → List String
  | [] => []
  | (name, d) :: fs => (writeText name ++ ":" ++ write d) :: writeFields fs

end

end TestInputs.Document
