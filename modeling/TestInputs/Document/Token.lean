/-
The tokens of a written document: punctuation, and atoms for texts, numbers and the three words. The text is read
character by character; the mode says what the characters read last have begun.
-/
import TestInputs.Decimal.Read
import TestInputs.Document.Basic

namespace TestInputs.Document

inductive Token where
  | listOpen
  | listClose
  | recordOpen
  | recordClose
  | comma
  | colon
  | atom (d : Document)

namespace Token

/-! ## Atoms -/

/-- the value of a hexadecimal digit -/
def hexDigit? (c : Char) : Option Nat :=
  if c.isDigit then some (c.toNat - '0'.toNat)
  else if 'a' ≤ c && c ≤ 'f' then some (c.toNat - 'a'.toNat + 10)
  else if 'A' ≤ c && c ≤ 'F' then some (c.toNat - 'A'.toNat + 10)
  else none

/-- the natural written in hexadecimal -/
def readHex? (cs : List Char) : Option Nat :=
  cs.foldlM (fun n c => (hexDigit? c).map (16 * n + ·)) 0

/-- a number stays an integer if it is written as one of sixty-four bits; a negative zero is none -/
def number? (cs : List Char) : Option Document :=
  let real := (Decimal.read? cs).map real
  match Decimal.readInteger? cs with
  | some n => if cs ≠ ['-', '0'] && -0x8000000000000000 ≤ n && n < 0x10000000000000000 then some (integer n) else real
  | none => real

def startsNumber : List Char → Bool
  | '-' :: c :: _ => c.isDigit
  | c :: _ => c.isDigit
  | [] => false

/-- what stands outside of quotes: a word or a number -/
def bare? (cs : List Char) : Option Document :=
  if cs = ['n', 'u', 'l', 'l'] then some null
  else if cs = ['t', 'r', 'u', 'e'] then some (boolean true)
  else if cs = ['f', 'a', 'l', 's', 'e'] then some (boolean false)
  else if startsNumber cs then number? cs
  else none

/-! ## Reading -/

/-- what has been begun; characters are collected in reverse -/
inductive Mode where
  /-- nothing -/
  | between
  /-- a word or a number -/
  | bare (chars : List Char)
  /-- a quoted text; `high` is the first half of a pair of escapes that stand for one character -/
  | quoted (high : Option Nat) (chars : List Char)
  /-- an escape, of which the backslash has been read -/
  | escape (high : Option Nat) (chars : List Char)
  /-- an escape by code, of which some digits have been read -/
  | code (high : Option Nat) (chars digits : List Char)

def isSpace (c : Char) : Bool :=
  c = ' ' || c = '\t' || c = '\n' || c = '\r'

def punctuation? (c : Char) : Option Token :=
  if c = '[' then some listOpen
  else if c = ']' then some listClose
  else if c = '\x7b' then some recordOpen
  else if c = '\x7d' then some recordClose
  else if c = ',' then some comma
  else if c = ':' then some colon
  else none

/-- the character that a short escape stands for -/
def shortEscape? (c : Char) : Option Char :=
  if c = 'n' then some '\n'
  else if c = 't' then some '\t'
  else if c = 'r' then some '\r'
  else if c = 'b' then some '\x08'
  else if c = 'f' then some '\x0c'
  else if c = '"' || c = '\\' || c = '/' then some c
  else none

/-- the mode after an escape by code; codes of the two halves have to come in pairs -/
def afterCode (high : Option Nat) (chars : List Char) (n : Nat) : Option Mode :=
  match high with
  | none =>
    if 0xd800 ≤ n && n < 0xdc00 then some (.quoted (some n) chars)
    else if 0xdc00 ≤ n && n < 0xe000 then none
    else some (.quoted none (Char.ofNat n :: chars))
  | some h =>
    if 0xdc00 ≤ n && n < 0xe000 then
      some (.quoted none (Char.ofNat (0x10000 + (h - 0xd800) * 0x400 + (n - 0xdc00)) :: chars))
    else none

/-- a character where nothing has been begun: the tokens so far, in reverse, and the new mode -/
def start (tokens : List Token) (c : Char) : List Token × Mode :=
  if isSpace c then (tokens, .between)
  else if c = '"' then (tokens, .quoted none [])
  else
    match punctuation? c with
    | some t => (t :: tokens, .between)
    | none => (tokens, .bare [c])

/-- the next character -/
def step : List Token × Mode → Char → Option (List Token × Mode)
  | (tokens, .between), c => some (start tokens c)
  | (tokens, .bare chars), c =>
    if isSpace c || c = '"' || (punctuation? c).isSome then
      (bare? chars.reverse).map fun d => start (atom d :: tokens) c
    else some (tokens, .bare (c :: chars))
  | (tokens, .quoted high chars), c =>
    if c = '\\' then some (tokens, .escape high chars)
    else if high.isSome then none
    else if c = '"' then some (atom (text (String.ofList chars.reverse)) :: tokens, .between)
    else some (tokens, .quoted none (c :: chars))
  | (tokens, .escape high chars), c =>
    if c = 'u' then some (tokens, .code high chars [])
    else if high.isSome then none
    else (shortEscape? c).map fun e => (tokens, .quoted none (e :: chars))
  | (tokens, .code high chars digits), c =>
    let digits := c :: digits
    if digits.length < 4 then some (tokens, .code high chars digits)
    else ((readHex? digits.reverse).bind (afterCode high chars)).map (tokens, ·)

/-- the tokens of a text -/
def read? (cs : List Char) : Option (List Token) :=
  match cs.foldlM step ([], .between) with
  | some (tokens, .between) => some tokens.reverse
  | some (tokens, .bare chars) => (bare? chars.reverse).map fun d => (atom d :: tokens).reverse
  | _ => none

end Token

end TestInputs.Document
