/-
Sampling. The first element of a sequence is kept without a decision; after that each element takes one decision of the
seeded stream. A fraction of one keeps everything and takes no decisions.
-/
import TestInputs.Draws.Basic
import TestInputs.Sampling
import TestInputs.Sequence.Basic

namespace TestInputs.Sequence

variable {α : Type}

/-- keep the elements for which the stream decides so -/
def thin (fraction : Double) : Draws → Sequence α → Sequence α
  | _, nil => nil
  | _, cut => cut
  | draws, cons a t =>
    match draws.decide fraction with
    | (true, draws) => cons a fun _ => thin fraction draws (t ())
    | (false, draws) => thin fraction draws (t ())

/-- the first element and a seeded sample of the others -/
def sampled (sampling : Sampling) (s : Sequence α) : Sequence α :=
  match s with
  | cons a t =>
    if sampling.isIdentity then cons a t
    else cons a fun _ => thin sampling.fraction (Draws.ofSeed sampling.seed) (t ())
  | s => s

/-- sample if there are settings for it -/
def sampledBy (sampling : Option Sampling) (s : Sequence α) : Sequence α :=
  match sampling with
  | some sampling => s.sampled sampling
  | none => s

end TestInputs.Sequence
