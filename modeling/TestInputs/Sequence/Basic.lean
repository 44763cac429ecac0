/-
Lazy sequences of values. A sequence is a cursor: it has a current element that can be read any number of times, and it
moves forward only when told to. The current element is computed when the sequence is made; what follows is computed when
the cursor moves there.

An enumeration that nests without bound is explored to a bounded depth, and `cut` marks a place where it was given up. A
sequence without cuts is `Complete`. The meaning of a complete sequence is the list of its elements: each operation is
characterised by one equation on `toList` and one on completeness.
-/

namespace TestInputs

/-- a lazy sequence: at its end, given up, or an element with what follows it -/
inductive Sequence (α : Type) where
  | nil
  | cut
  | cons (head : α) (tail : Unit → Sequence α)

namespace Sequence

variable {α β : Type}

/-! ## The cursor -/

/-- the current element -/
def element? : Sequence α → Option α
  | cons a _ => some a
  | _ => none

def hasElement (s : Sequence α) : Bool := s.element?.isSome

/-- move to the next element; nothing changes at the end -/
def advance : Sequence α → Sequence α
  | cons _ t => t ()
  | s => s

/-- move several times -/
def advanceBy : Nat → Sequence α → Sequence α
  | 0, s => s
  | n + 1, s => advanceBy n s.advance

/-- read and pass up to `n` elements -/
def take : Nat → Sequence α → List α × Sequence α
  | n + 1, cons a t =>
    let (as, rest) := take n (t ())
    (a :: as, rest)
  | _, s => ([], s)

/-! ## The list of the elements -/

/-- all elements that were enumerated -/
def toList : Sequence α → List α
  | cons a t => a :: toList (t ())
  | _ => []

/-- nothing was given up -/
def Complete : Sequence α → Prop
  | nil => True
  | cut => False
  | cons _ t => Complete (t ())

@[simp] theorem toList_nil : (nil : Sequence α).toList = [] := rfl

@[simp] theorem toList_cut : (cut : Sequence α).toList = [] := rfl

@[simp] theorem toList_cons (a : α) (t : Unit → Sequence α) : (cons a t).toList = a :: (t ()).toList := rfl

@[simp] theorem complete_nil : (nil : Sequence α).Complete := trivial

@[simp] theorem not_complete_cut : ¬ (cut : Sequence α).Complete := id

@[simp] theorem complete_cons (a : α) (t : Unit → Sequence α) : (cons a t).Complete ↔ (t ()).Complete := Iff.rfl

theorem element?_eq_head? (s : Sequence α) : s.element? = s.toList.head? := by
  cases s <;> rfl

theorem toList_advance (s : Sequence α) : s.advance.toList = s.toList.tail := by
  cases s <;> rfl

/-! ## Making sequences -/

/-- the elements of a list -/
def ofList : List α → Sequence α
  | [] => nil
  | a :: as => cons a fun _ => ofList as

/-- a single element -/
def once (a : α) : Sequence α := cons a fun _ => nil

@[simp] theorem toList_ofList (as : List α) : (ofList as).toList = as := by
  induction as with
  | nil => rfl
  | cons a as ih => simp [ofList, ih]

@[simp] theorem complete_ofList (as : List α) : (ofList as).Complete := by
  induction as with
  | nil => trivial
  | cons a as ih => exact ih

/-- the values of `f` at `start`, `start + 1` and so on, `count` of them, and then `last` -/
def counted (f : Int → α) (last : Sequence α) (start : Int) : (count : Nat) → Sequence α
  | 0 => last
  | n + 1 => cons (f start) fun _ => counted f last (start + 1) n

/-! ## Joining, filtering, mapping -/

/-- one sequence and then another -/
def append : Sequence α → (Unit → Sequence α) → Sequence α
  | nil, rest => rest ()
  | cut, _ => cut
  | cons a t, rest => cons a fun _ => append (t ()) rest

/-- several sequences, one after the other -/
def concat : List (Sequence α) → Sequence α
  | [] => nil
  | s :: rest => s.append fun _ => concat rest

/-- the images of the elements under `f` where it has one -/
def filterMap (f : α → Option β) : Sequence α → Sequence β
  | nil => nil
  | cut => cut
  | cons a t =>
    match f a with
    | some b => cons b fun _ => filterMap f (t ())
    | none => filterMap f (t ())

/-- the elements that satisfy `p` -/
def filter (p : α → Bool) : Sequence α → Sequence α
  | nil => nil
  | cut => cut
  | cons a t => if p a then cons a fun _ => filter p (t ()) else filter p (t ())

/-- a function applied to every element -/
def map (f : α → β) : Sequence α → Sequence β
  | nil => nil
  | cut => cut
  | cons a t => cons (f a) fun _ => map f (t ())

theorem toList_append {s : Sequence α} (h : s.Complete) (rest : Unit → Sequence α) :
    (s.append rest).toList = s.toList ++ (rest ()).toList := by
  induction s with
  | nil => rfl
  | cut => exact h.elim
  | cons a t ih => simp [append, ih () h]

@[simp] theorem complete_append (s : Sequence α) (rest : Unit → Sequence α) :
    (s.append rest).Complete ↔ s.Complete ∧ (rest ()).Complete := by
  induction s with
  | nil => simp [append]
  | cut => simp [append]
  | cons a t ih => simp [append, ih]

@[simp] theorem toList_map (f : α → β) (s : Sequence α) : (s.map f).toList = s.toList.map f := by
  induction s with
  | nil => rfl
  | cut => rfl
  | cons a t ih => simp [map, ih]

@[simp] theorem complete_map (f : α → β) (s : Sequence α) : (s.map f).Complete ↔ s.Complete := by
  induction s with
  | nil => rfl
  | cut => rfl
  | cons a t ih => simp [map, ih]

@[simp] theorem toList_filter (p : α → Bool) (s : Sequence α) : (s.filter p).toList = s.toList.filter p := by
  induction s with
  | nil => rfl
  | cut => rfl
  | cons a t ih => by_cases h : p a <;> simp [filter, h, ih]

@[simp] theorem complete_filter (p : α → Bool) (s : Sequence α) : (s.filter p).Complete ↔ s.Complete := by
  induction s with
  | nil => rfl
  | cut => rfl
  | cons a t ih => by_cases h : p a <;> simp [filter, h, ih]

@[simp] theorem toList_filterMap (f : α → Option β) (s : Sequence α) :
    (s.filterMap f).toList = s.toList.filterMap f := by
  induction s with
  | nil => rfl
  | cut => rfl
  | cons a t ih => cases h : f a <;> simp [filterMap, h, ih]

@[simp] theorem complete_filterMap (f : α → Option β) (s : Sequence α) : (s.filterMap f).Complete ↔ s.Complete := by
  induction s with
  | nil => rfl
  | cut => rfl
  | cons a t ih => cases h : f a <;> simp [filterMap, h, ih]

end Sequence

end TestInputs
