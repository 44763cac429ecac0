/-
The text of a value, as a reader of the generated cases would write it: numbers of the longer kinds carry a suffix,
characters and strings are quoted, arrays list their elements in braces, objects are constructor calls.
-/
import TestInputs.Decimal.Layout
import TestInputs.Text.Quoted
import TestInputs.Value.Basic

namespace TestInputs

/-- numbers are written positionally from 10^-4 up to 10^16, whole numbers with a zero after the point -/
def Value.numberLayout : Decimal.Layout :=
  { positional := some (-4, 16), keepPoint := true }

/-- texts separated by a comma and a blank -/
def commaSeparated (texts : List String) : String :=
  String.intercalate ", " texts

namespace Value

mutual

/-- the text of a value -/
def shown : Value → String
  | null => "null"
  | boolean b => if b then "true" else "false"
  | byte n => Decimal.integerText n.toInt
  | short n => Decimal.integerText n.toInt
  | char c => Text.quotedChar c
  | int n => Decimal.integerText n.toInt
  | long n => Decimal.integerText n.toInt ++ "L"
  | float x => Decimal.write numberLayout x ++ "f"
  | double x => Decimal.write numberLayout x
  | str s => Text.quoted s
  | array component elements => component.text ++ "[]\x7b" ++ commaSeparated (shownAll elements) ++ "\x7d"
  | enum ty constant => ty.short ++ "." ++ constant
  | object ty _ arguments => "new " ++ ty.short ++ "(" ++ commaSeparated (shownAll arguments) ++ ")"

/-- the texts of several values -/
def shownAll : List Value → List String
  | [] => []
  | v :: vs => shown v :: shownAll vs

end

end Value

end TestInputs
