/-
Sequences as cursors. A caller with a cursor asks whether there is an element, reads it, moves on, and takes several
elements at once, in any order and for as long as it likes. All that the caller can see is a position in one list: it
moves up while elements remain and then stays at the end.

A concatenation is a cursor in two ways. As a sequence it is one lazy list; as `Joined` it keeps a queue of parts and
drops a part when the cursor has passed its last element. Both run through the lists of the parts, one after the other.

Results:
- `Reads.runsThrough`: if a cursor reads the head of what it drains to and moving takes the head off, then it runs
  through the list that it drains to;
- `reads_sequence`, `reads_joined`: sequences, and queues whose parts all have an element, are such cursors;
- `complete_after`: the steps of a caller give nothing up.
-/
import TestInputs.Proofs.Levels
import TestInputs.Sequence.Joined

namespace TestInputs

variable {α σ : Type}

/-! ## Cursors and their callers -/

/-- the operations of a cursor; draining it gives the elements from the current one on -/
structure Cursor (σ α : Type) where
  element? : σ → Option α
  advance : σ → σ
  take : Nat → σ → List α × σ
  drain : σ → List α

/-- what a caller does -/
inductive CursorStep where
  | hasElement
  | element
  | advance
  | take (limit : Nat)

/-- the position after a step in a list of the given length: a move counts while elements remain -/
def CursorStep.move (length k : Nat) : CursorStep → Nat
  | hasElement => k
  | element => k
  | advance => if k < length then k + 1 else k
  | take limit => k + min limit (length - k)

/-- the position after several steps from the start -/
def position (length : Nat) (steps : List CursorStep) : Nat :=
  steps.foldl (CursorStep.move length) 0

theorem CursorStep.drop_move_advance (xs : List α) (k : Nat) :
    xs.drop (advance.move xs.length k) = xs.drop (k + 1) := by
  rw [move]
  split_ifs with hlt
  · rfl
  · rw [List.drop_of_length_le (by omega), List.drop_of_length_le (by omega)]

theorem CursorStep.drop_move_take (xs : List α) (k limit : Nat) :
    xs.drop ((take limit).move xs.length k) = xs.drop (k + limit) := by
  rw [move]
  rcases Nat.le_total limit (xs.length - k) with hle | hle
  · rw [Nat.min_eq_left hle]
  · rw [Nat.min_eq_right hle, List.drop_of_length_le (by omega), List.drop_of_length_le (by omega)]

theorem CursorStep.move_succ (length k : Nat) (step : CursorStep) :
    step.move (length + 1) (k + 1) = step.move length k + 1 := by
  cases step with
  | hasElement => rfl
  | element => rfl
  | advance =>
    simp only [move, Nat.add_lt_add_iff_right]
    split_ifs <;> rfl
  | take limit =>
    simp only [move, Nat.add_sub_add_right]
    omega

/-- what follows a first move is at the same place of a list without its first element -/
theorem position_advance_cons (length : Nat) (steps : List CursorStep) :
    position (length + 1) (.advance :: steps) = position length steps + 1 := by
  have hfold : ∀ k, steps.foldl (CursorStep.move (length + 1)) (k + 1) =
      steps.foldl (CursorStep.move length) k + 1 := by
    induction steps with
    | nil => exact fun _ => rfl
    | cons step steps ih =>
      intro k
      rw [List.foldl_cons, List.foldl_cons, CursorStep.move_succ, ih]
  exact hfold 0

namespace Cursor

def hasElement (c : Cursor σ α) (s : σ) : Bool := (c.element? s).isSome

/-- what a step leaves behind -/
def step (c : Cursor σ α) (s : σ) : CursorStep → σ
  | .hasElement => s
  | .element => s
  | .advance => c.advance s
  | .take limit => (c.take limit s).2

/-- what several steps leave behind -/
def after (c : Cursor σ α) (s : σ) (steps : List CursorStep) : σ := steps.foldl c.step s

/-- after any steps the cursor is at their position in the list: it has an element if the position is in the list, and
then the element there; it takes and drains from there; past the end it does not change any more -/
structure RunsThrough (c : Cursor σ α) (s : σ) (xs : List α) : Prop where
  hasElement : ∀ steps, c.hasElement (c.after s steps) = true ↔ position xs.length steps < xs.length
  element : ∀ steps, c.element? (c.after s steps) = xs[position xs.length steps]?
  take : ∀ steps limit, (c.take limit (c.after s steps)).1 =
    (xs.drop (position xs.length steps)).take (min limit (xs.length - position xs.length steps))
  drain : ∀ steps, c.drain (c.after s steps) = xs.drop (position xs.length steps)
  stays : ∀ steps, xs.length ≤ position xs.length steps → c.advance (c.after s steps) = c.after s steps

theorem RunsThrough.drain_eq {c : Cursor σ α} {s : σ} {xs : List α} (h : c.RunsThrough s xs) : c.drain s = xs :=
  h.drain []

/-- in the states of `inv`, which is never left, the cursor reads the head of what it drains to, and moving takes the
head off -/
structure Reads (c : Cursor σ α) (inv : σ → Prop) : Prop where
  element : ∀ {s}, inv s → c.element? s = (c.drain s).head?
  advance : ∀ {s}, inv s → inv (c.advance s) ∧ c.drain (c.advance s) = (c.drain s).tail
  stays : ∀ {s}, inv s → c.drain s = [] → c.advance s = s
  take : ∀ {s}, inv s → ∀ limit, (c.take limit s).1 = (c.drain s).take limit ∧ inv (c.take limit s).2 ∧
    c.drain (c.take limit s).2 = (c.drain s).drop limit

variable {c : Cursor σ α} {inv : σ → Prop}

/-- one step moves the position and drops what was passed -/
theorem Reads.step (h : c.Reads inv) {s : σ} {xs : List α} {k : Nat} (hs : inv s) (hk : c.drain s = xs.drop k)
    (step : CursorStep) :
    inv (c.step s step) ∧ c.drain (c.step s step) = xs.drop (step.move xs.length k) := by
  cases step with
  | hasElement => exact ⟨hs, hk⟩
  | element => exact ⟨hs, hk⟩
  | advance =>
    obtain ⟨hinv, htail⟩ := h.advance hs
    refine ⟨hinv, ?_⟩
    rw [CursorStep.drop_move_advance, Cursor.step, htail, hk, List.tail_drop]
  | take limit =>
    obtain ⟨-, hinv, hdrop⟩ := h.take hs limit
    refine ⟨hinv, ?_⟩
    rw [CursorStep.drop_move_take, Cursor.step, hdrop, hk, List.drop_drop]

theorem Reads.after (h : c.Reads inv) {s : σ} {xs : List α} (steps : List CursorStep) {k : Nat} (hs : inv s)
    (hk : c.drain s = xs.drop k) :
    inv (c.after s steps) ∧ c.drain (c.after s steps) = xs.drop (steps.foldl (CursorStep.move xs.length) k) := by
  induction steps generalizing s k with
  | nil => exact ⟨hs, hk⟩
  | cons step steps ih =>
    obtain ⟨hstep, hdrop⟩ := h.step hs hk step
    exact ih hstep hdrop

theorem Reads.runsThrough (h : c.Reads inv) {s : σ} (hs : inv s) : c.RunsThrough s (c.drain s) := by
  have hafter : ∀ steps, inv (c.after s steps) ∧
      c.drain (c.after s steps) = (c.drain s).drop (position (c.drain s).length steps) :=
    fun steps => h.after steps hs rfl
  have helement : ∀ steps, c.element? (c.after s steps) = (c.drain s)[position (c.drain s).length steps]? := by
    intro steps
    obtain ⟨hinv, hdrain⟩ := hafter steps
    rw [h.element hinv, hdrain, List.head?_drop]
  refine ⟨?_, helement, ?_, fun steps => (hafter steps).2, ?_⟩
  · intro steps
    rw [Cursor.hasElement, helement]
    simp
  · intro steps limit
    obtain ⟨hinv, hdrain⟩ := hafter steps
    rw [(h.take hinv limit).1, hdrain, ← List.length_drop, List.take_eq_take_min]
  · intro steps hend
    obtain ⟨hinv, hdrain⟩ := hafter steps
    apply h.stays hinv
    rw [hdrain, List.drop_of_length_le hend]

end Cursor

/-! ## Sequences -/

namespace Sequence

/-- a sequence as a cursor -/
def cursor : Cursor (Sequence α) α := ⟨element?, Sequence.advance, Sequence.take, toList⟩

theorem take_spec (n : Nat) (s : Sequence α) :
    (s.take n).1 = s.toList.take n ∧ (s.take n).2.toList = s.toList.drop n ∧
      ((s.take n).2.Complete ↔ s.Complete) := by
  induction n generalizing s with
  | zero => cases s <;> simp [take]
  | succ n ih =>
    cases s with
    | nil => simp [take]
    | cut => simp [take]
    | cons a t =>
      obtain ⟨htaken, hrest, hcomplete⟩ := ih (t ())
      simp only [take, htaken, hrest, hcomplete, toList_cons, List.take_succ_cons, List.drop_succ_cons, complete_cons,
        and_self]

theorem complete_advance (s : Sequence α) : s.advance.Complete ↔ s.Complete := by
  cases s <;> rfl

theorem advance_of_toList_nil {s : Sequence α} (h : s.toList = []) : s.advance = s := by
  cases s with
  | nil => rfl
  | cut => rfl
  | cons a t => cases h

theorem hasElement_iff {s : Sequence α} : s.hasElement = true ↔ s.toList ≠ [] := by
  cases s <;> simp [hasElement, element?]

theorem toList_of_not_hasElement {s : Sequence α} (h : ¬ s.hasElement = true) : s.toList = [] := by
  rwa [hasElement_iff, not_not] at h

theorem reads_sequence : (cursor : Cursor (Sequence α) α).Reads fun _ => True where
  element := fun {s} _ => element?_eq_head? s
  advance := fun {s} _ => ⟨trivial, toList_advance s⟩
  stays := fun _ h => advance_of_toList_nil h
  take := fun {s} _ n => ⟨(take_spec n s).1, trivial, (take_spec n s).2.1⟩

theorem runsThrough_toList (s : Sequence α) : cursor.RunsThrough s s.toList :=
  reads_sequence.runsThrough trivial

theorem runsThrough_iff {s : Sequence α} {xs : List α} : cursor.RunsThrough s xs ↔ s.toList = xs := by
  constructor
  · intro h
    exact h.drain_eq
  · rintro rfl
    exact runsThrough_toList s

/-- steps of a caller give nothing up -/
theorem complete_after {s : Sequence α} (h : s.Complete) (steps : List CursorStep) :
    (cursor.after s steps).Complete := by
  induction steps generalizing s with
  | nil => exact h
  | cons step steps ih =>
    apply ih
    cases step with
    | hasElement => exact h
    | element => exact h
    | advance => exact s.complete_advance.2 h
    | take limit => exact (take_spec limit s).2.2.2 h

theorem complete_counted (f : Int → α) (start : Int) (count : Nat) : (counted f nil start count).Complete := by
  induction count generalizing start with
  | zero => trivial
  | succ count ih => exact ih (start + 1)

end Sequence

/-! ## Queues of parts -/

namespace Joined

/-- read and pass elements one by one -/
def take : Nat → Joined α → List α × Joined α
  | 0, j => ([], j)
  | n + 1, j =>
    match j.element? with
    | some a =>
      let (as, rest) := take n j.advance
      (a :: as, rest)
    | none => ([], j)

/-- a queue of parts as a cursor -/
def cursor : Cursor (Joined α) α := ⟨element?, Joined.advance, take, fun j => j.toSequence.toList⟩

/-- every part has an element, and nothing is given up in it -/
def Settled (j : Joined α) : Prop := ∀ s ∈ j.parts, s.Complete ∧ s.hasElement = true

theorem settled_ofParts {parts : List (Sequence α)} (h : ∀ s ∈ parts, s.Complete) : (ofParts parts).Settled := by
  intro s hs
  obtain ⟨hmem, helement⟩ := List.mem_filter.1 hs
  exact ⟨h s hmem, helement⟩

theorem Settled.toList {j : Joined α} (h : j.Settled) : j.toSequence.toList = j.parts.flatMap Sequence.toList :=
  Sequence.toList_concat fun s hs => (h s hs).1

/-- parts without elements do not matter -/
theorem toList_ofParts {parts : List (Sequence α)} (h : ∀ s ∈ parts, s.Complete) :
    (ofParts parts).toSequence.toList = parts.flatMap Sequence.toList := by
  rw [(settled_ofParts h).toList]
  clear h
  induction parts with
  | nil => rfl
  | cons s parts ih =>
    by_cases helement : s.hasElement = true
    · rw [ofParts, List.filter_cons_of_pos helement, List.flatMap_cons, List.flatMap_cons]
      exact congrArg _ ih
    · rw [ofParts, List.filter_cons_of_neg helement, List.flatMap_cons, Sequence.toList_of_not_hasElement helement]
      exact ih

/-- only a used up front part is dropped, since the parts behind it have elements -/
theorem settle_cons {s : Sequence α} {parts : List (Sequence α)} (h : ∀ s ∈ parts, s.hasElement = true) :
    settle (s :: parts) = if s.hasElement then s :: parts else parts := by
  rw [settle]
  split_ifs
  · rfl
  · cases parts with
    | nil => rfl
    | cons t parts => rw [settle, if_pos (h t List.mem_cons_self)]

theorem advance_spec {j : Joined α} (h : j.Settled) :
    j.advance.Settled ∧ j.advance.toSequence.toList = j.toSequence.toList.tail := by
  obtain ⟨parts⟩ := j
  cases parts with
  | nil => exact ⟨h, rfl⟩
  | cons s parts =>
    obtain ⟨hcomplete, helement⟩ := h s List.mem_cons_self
    have hparts : ∀ t ∈ parts, t.Complete ∧ t.hasElement = true := fun t ht => h t (List.mem_cons_of_mem _ ht)
    have hne : s.toList ≠ [] := Sequence.hasElement_iff.1 helement
    have hadvance : (⟨s :: parts⟩ : Joined α).advance =
        ⟨if s.advance.hasElement then s.advance :: parts else parts⟩ :=
      congrArg Joined.mk (settle_cons fun t ht => (hparts t ht).2)
    have hsettled : (⟨s :: parts⟩ : Joined α).advance.Settled := by
      rw [hadvance]
      intro t ht
      split_ifs at ht with hmore
      · rcases List.mem_cons.1 ht with rfl | ht
        · exact ⟨s.complete_advance.2 hcomplete, hmore⟩
        · exact hparts t ht
      · exact hparts t ht
    refine ⟨hsettled, ?_⟩
    rw [hsettled.toList, h.toList, hadvance, List.flatMap_cons, List.tail_append_of_ne_nil hne]
    split_ifs with hmore
    · rw [List.flatMap_cons, Sequence.toList_advance]
    · rw [← Sequence.toList_advance, Sequence.toList_of_not_hasElement hmore, List.nil_append]

theorem element_spec {j : Joined α} (h : j.Settled) : j.element? = j.toSequence.toList.head? := by
  rw [h.toList]
  obtain ⟨parts⟩ := j
  cases parts with
  | nil => rfl
  | cons s parts =>
    have helement := (h s List.mem_cons_self).2
    cases s with
    | nil => cases helement
    | cut => cases helement
    | cons a t => rfl

theorem advance_of_toList_nil {j : Joined α} (h : j.Settled) (hnil : j.toSequence.toList = []) : j.advance = j := by
  have hnone := element_spec h
  rw [hnil] at hnone
  obtain ⟨parts⟩ := j
  cases parts with
  | nil => rfl
  | cons s parts =>
    have helement := (h s List.mem_cons_self).2
    have hnone : s.element? = none := hnone
    rw [Sequence.hasElement, hnone] at helement
    cases helement

theorem take_spec {j : Joined α} (h : j.Settled) (n : Nat) :
    (take n j).1 = j.toSequence.toList.take n ∧ (take n j).2.Settled ∧
      (take n j).2.toSequence.toList = j.toSequence.toList.drop n := by
  induction n generalizing j with
  | zero => exact ⟨rfl, h, rfl⟩
  | succ n ih =>
    have helement := element_spec h
    obtain ⟨hadvance, htail⟩ := advance_spec h
    obtain ⟨htaken, hsettled, hrest⟩ := ih hadvance
    cases hlist : j.toSequence.toList with
    | nil =>
      rw [hlist] at helement
      simp only [take, helement, List.head?_nil, List.take_nil, List.drop_nil, true_and]
      exact ⟨h, hlist⟩
    | cons a as =>
      rw [hlist] at helement htail
      rw [htail] at htaken hrest
      simp only [take, helement, List.head?_cons, htaken, hrest, List.tail_cons, List.take_succ_cons,
        List.drop_succ_cons, true_and, and_true]
      exact hsettled

theorem reads_joined : (cursor : Cursor (Joined α) α).Reads Settled where
  element := element_spec
  advance := advance_spec
  stays := advance_of_toList_nil
  take := take_spec

end Joined

end TestInputs
