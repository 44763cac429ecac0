/-
Sampling settings: the fraction of the values to keep, greater than zero and at most one, and the seed of the decisions.
-/
import TestInputs.Binary
import TestInputs.Decimal.Layout

namespace TestInputs

/-- a fraction outside of (0, 1] was asked for -/
structure InvalidFraction where
  fraction : Double

/-- fractions are written positionally, whole ones without a point -/
def InvalidFraction.layout : Decimal.Layout :=
  { positional := none, keepPoint := false }

def InvalidFraction.message (e : InvalidFraction) : String :=
  "invalid sampling fraction: " ++ Decimal.write layout e.fraction ++ " (must be in (0, 1])"

/-- which fraction to keep, and the seed of the decisions -/
structure Sampling where
  fraction : Double
  seed : UInt64
  valid : fraction.isFraction = true

namespace Sampling

/-- settings with the given fraction, which is checked -/
def make (fraction : Double) (seed : UInt64) : Except InvalidFraction Sampling :=
  if valid : fraction.isFraction = true then .ok { fraction, seed, valid } else .error ⟨fraction⟩

/-- a fraction of one keeps everything -/
def isIdentity (s : Sampling) : Bool := s.fraction == .one

end Sampling

end TestInputs
