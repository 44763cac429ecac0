/-
Quoted characters and texts. Five characters have a short escape, the quote in use is escaped by a backslash, and a
character that cannot stand for itself is written by its code point in lower-case hexadecimal. All else is raw.
-/
import TestInputs.Text.Printable

namespace TestInputs.Text

/-- a code point as an escape, `\u` and the hexadecimal digits in braces -/
def codeEscape (c : Char) : List Char :=
  ['\\', 'u', '\x7b'] ++ Nat.toDigits 16 c.toNat ++ ['\x7d']

/-- one character between quotes of the given kind -/
def escape (quote c : Char) : List Char :=
  if c = '\x00' then ['\\', '0']
  else if c = '\t' then ['\\', 't']
  else if c = '\r' then ['\\', 'r']
  else if c = '\n' then ['\\', 'n']
  else if c = '\\' then ['\\', '\\']
  else if c = quote then ['\\', quote]
  else if isShown c then [c]
  else codeEscape c

/-- a text between quotes of the given kind -/
def quotedWith (quote : Char) (cs : List Char) : String :=
  String.ofList (quote :: cs.flatMap (escape quote) ++ [quote])

/-- a character in single quotes -/
def quotedChar (c : Char) : String :=
  quotedWith '\'' [c]

/-- a text in double quotes -/
def quoted (text : String) : String :=
  quotedWith '"' text.toList

end TestInputs.Text
