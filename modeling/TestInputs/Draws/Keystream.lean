/-
A keystream of 32-bit words: the ChaCha block function with twelve rounds. The state is a square of four rows of four
words. A round mixes the four columns at once, row by row; every second round works on the diagonals, which are columns
after the rows have been turned.
-/

namespace TestInputs.Draws

/-- four words side by side -/
structure Row where
  w0 : UInt32
  w1 : UInt32
  w2 : UInt32
  w3 : UInt32

namespace Row

def map (f : UInt32 → UInt32) (r : Row) : Row := ⟨f r.w0, f r.w1, f r.w2, f r.w3⟩

def zip (f : UInt32 → UInt32 → UInt32) (r s : Row) : Row := ⟨f r.w0 s.w0, f r.w1 s.w1, f r.w2 s.w2, f r.w3 s.w3⟩

/-- the words turned left by one place -/
def turn (r : Row) : Row := ⟨r.w1, r.w2, r.w3, r.w0⟩

def toList (r : Row) : List UInt32 := [r.w0, r.w1, r.w2, r.w3]

end Row

/-- rotate the bits of a word to the left -/
def rotateLeft (n x : UInt32) : UInt32 := x <<< n ||| x >>> (32 - n)

/-- the state of the block function -/
structure Square where
  a : Row
  b : Row
  c : Row
  d : Row

namespace Square

/-- add the second row to the first, and fold the sum into the third by exclusive or and a rotation -/
def fold (n : UInt32) (x y z : Row) : Row × Row :=
  let sum := x.zip (· + ·) y
  (sum, (z.zip (· ^^^ ·) sum).map (rotateLeft n))

/-- mix the columns -/
def mix (s : Square) : Square :=
  let (a, d) := fold 16 s.a s.b s.d
  let (c, b) := fold 12 s.c d s.b
  let (a, d) := fold 8 a b d
  let (c, b) := fold 7 c d b
  ⟨a, b, c, d⟩

/-- diagonals become columns -/
def skew (s : Square) : Square := ⟨s.a, s.b.turn, s.c.turn.turn, s.d.turn.turn.turn⟩

/-- columns become diagonals again -/
def unskew (s : Square) : Square := ⟨s.a, s.b.turn.turn.turn, s.c.turn.turn, s.d.turn⟩

/-- one round on columns and one on diagonals -/
def doubleRound (s : Square) : Square := s.mix.skew.mix.unskew

def add (s t : Square) : Square :=
  ⟨s.a.zip (· + ·) t.a, s.b.zip (· + ·) t.b, s.c.zip (· + ·) t.c, s.d.zip (· + ·) t.d⟩

def toList (s : Square) : List UInt32 := s.a.toList ++ s.b.toList ++ s.c.toList ++ s.d.toList

end Square

/-- a key of two rows -/
structure Key where
  upper : Row
  lower : Row

/-- the constants of the first row -/
def constants : Row := ⟨0x61707865, 0x3320646e, 0x79622d32, 0x6b206574⟩

/-- the sixteen words of a block, given the key and the number of the block -/
def block (key : Key) (counter : UInt64) : List UInt32 :=
  let start : Square := ⟨constants, key.upper, key.lower, ⟨counter.toUInt32, (counter >>> 32).toUInt32, 0, 0⟩⟩
  let mixed := start.doubleRound.doubleRound.doubleRound.doubleRound.doubleRound.doubleRound
  (mixed.add start).toList

end TestInputs.Draws
