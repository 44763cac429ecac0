/-
A concatenation that still knows its parts. Parts without elements are dropped when it is made, and a part is dropped as
soon as the cursor has passed its last element, so the first part always holds the current element.
-/
import TestInputs.Sequence.Basic

namespace TestInputs

/-- the parts of a concatenation that are not used up -/
structure Joined (α : Type) where
  parts : List (Sequence α)

namespace Joined

variable {α : Type}

/-- drop the parts in front that have no elements -/
def settle : List (Sequence α) → List (Sequence α)
  | [] => []
  | s :: rest => if s.hasElement then s :: rest else settle rest

/-- join sequences; those without elements are no parts -/
def ofParts (parts : List (Sequence α)) : Joined α :=
  ⟨parts.filter Sequence.hasElement⟩

/-- the number of parts that still have elements -/
def remaining (j : Joined α) : Nat := j.parts.length

/-- the current element -/
def element? (j : Joined α) : Option α :=
  j.parts.head?.bind Sequence.element?

def advance (j : Joined α) : Joined α :=
  match j.parts with
  | [] => j
  | s :: rest => ⟨settle (s.advance :: rest)⟩

/-- the elements of all parts in order -/
def toSequence (j : Joined α) : Sequence α :=
  Sequence.concat j.parts

end Joined

end TestInputs
