/-
Seeded draws. A seed of sixty-four bits is stretched to a key, the key gives an unbounded stream of 64-bit words, and a
decision with probability p is whether the next word lies below p · 2^64. Each decision takes one word.
-/
import TestInputs.Binary
import TestInputs.Draws.Keystream

namespace TestInputs

/-- a position in the stream of a key: the number of the next block, and the words left of the current one -/
structure Draws where
  key : Draws.Key
  counter : UInt64
  pending : List UInt64

namespace Draws

/-- one step of the generator that stretches seeds -/
def stretchStep (s : UInt64) : UInt64 := s * 6364136223846793005 + 11634580027462260723

/-- the word that a state of that generator gives -/
def stretchWord (s : UInt64) : UInt32 :=
  let x := (((s >>> 18) ^^^ s) >>> 27).toUInt32
  let r := (s >>> 59).toUInt32
  x >>> r ||| x <<< ((32 - r) % 32)

/-- four words from a state, and the state behind them -/
def stretchRow (s : UInt64) : Row × UInt64 :=
  let s1 := stretchStep s
  let s2 := stretchStep s1
  let s3 := stretchStep s2
  let s4 := stretchStep s3
  (⟨stretchWord s1, stretchWord s2, stretchWord s3, stretchWord s4⟩, s4)

/-- the start of the stream of a seed -/
def ofSeed (seed : UInt64) : Draws :=
  let (upper, s) := stretchRow seed
  let (lower, _) := stretchRow s
  { key := ⟨upper, lower⟩, counter := 0, pending := [] }

/-- pairs of words, the low one first -/
def pairWords : List UInt32 → List UInt64
  | low :: high :: rest => (low.toUInt64 ||| high.toUInt64 <<< 32) :: pairWords rest
  | _ => []

/-- the next word of the stream -/
def next (d : Draws) : UInt64 × Draws :=
  match d.pending with
  | w :: rest => (w, { d with pending := rest })
  | [] =>
    match pairWords (block d.key d.counter) with
    | w :: rest => (w, { d with counter := d.counter + 1, pending := rest })
    | [] => (0, d)

/-- a decision that is positive with the given probability -/
def decide (p : Double) (d : Draws) : Bool × Draws :=
  let (w, d) := d.next
  (w.toNat < p.scaledFloor 64, d)

end Draws

end TestInputs
