/-
Settings as documents. The fraction of a sampling is checked when it is read.
-/
import TestInputs.Config
import TestInputs.Document.Basic

namespace TestInputs

open Document (field readBoolean readNatural readReal readWord readOption readFields required)

namespace Sampling

def toDocument (s : Sampling) : Document :=
  .record [("fraction", .real s.fraction), ("seed", .integer s.seed.toNat)]

/-- the parts of a sampling that have been read -/
structure Draft where
  fraction : Option Double := none
  seed : Option UInt64 := none

def Draft.finish (d : Draft) : Reading Sampling := do
  let fraction ← required d.fraction
  let seed ← required d.seed
  (make fraction seed).mapError .invalidFraction

def ofDocument (d : Document) : Reading Sampling :=
  (readFields
    [field "fraction" readReal fun s (x : Double) => { s with fraction := x },
      field "seed" readWord fun s x => { s with seed := x }]
    ({} : Draft) d).bind Draft.finish

end Sampling

namespace Config

def toDocument (c : Config) : Document :=
  .record
    [("max_array_length", .integer c.maxArrayLength), ("sampling", (c.sampling.map Sampling.toDocument).getD .null),
      ("structural_fallback", .boolean c.structuralFallback), ("use_literals", .boolean c.useLiterals),
      ("use_spec_literals", .boolean c.useSpecLiterals), ("use_subtypes", .boolean c.useSubtypes)]

def ofDocument : Document → Reading Config :=
  readFields
    [field "max_array_length" readNatural fun c maxArrayLength => { c with maxArrayLength },
      field "structural_fallback" readBoolean fun c structuralFallback => { c with structuralFallback },
      field "use_subtypes" readBoolean fun c useSubtypes => { c with useSubtypes },
      field "use_literals" readBoolean fun c useLiterals => { c with useLiterals },
      field "use_spec_literals" readBoolean fun c useSpecLiterals => { c with useSpecLiterals },
      field "sampling" (readOption Sampling.ofDocument) fun c sampling => { c with sampling }]
    {}

end Config

end TestInputs
