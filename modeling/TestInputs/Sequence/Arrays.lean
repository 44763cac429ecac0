/-
Arrays over the elements of a component sequence: the absent array, the empty array, and then for each length up to a
maximum all arrays of that length in the order of an odometer. If one length has no arrays, longer ones have none either.
-/
import TestInputs.Sequence.Odometer

namespace TestInputs.Sequence

variable {α : Type}

/-- all arrays of the lengths `length`, `length + 1` and so on, `count` lengths in all -/
def filledArrays (component : Unit → Sequence α) (length : Nat) : (count : Nat) → Sequence (List α)
  | 0 => nil
  | count + 1 =>
    match product (List.replicate length (Dimension.ofFactory component)) with
    | nil => nil
    | cut => cut
    | cons a t => (cons a t).append fun _ => filledArrays component (length + 1) count

/-- the absent array, the empty one, and all others up to a length -/
def arrays (component : Unit → Sequence α) (maxLength : Nat) : Sequence (Option (List α)) :=
  cons none fun _ => cons (some []) fun _ => (filledArrays component 1 maxLength).map some

end TestInputs.Sequence
