/-
Cursors by their states. A sequence is a value that holds all that follows. A cursor holds less: a position, an item
read ahead, a queue of inputs that are cursors themselves. A machine says what a state shows and which state a move
leads to, given the machines of the inputs.

Each kind of cursor relies on something that it has to take care of itself, when it is made and with every move. The
front of a queue has an element, and a filter stands on an element that it accepts. None of this is checked where the
current element is read. Some moves search, and such a move leads nowhere if the search has no end.

`Shows` is the one invariant for all of them: what a state shows of a list, and the states behind it of the rest. For
each machine there is one lemma, which takes `Shows` of the inputs to `Shows` of what is made from them. The inputs may
have been moved before, since nothing is known of them but the list that they still show.

Results:
- `Shows.after`: any steps of a caller lead to a state that shows what is left of the list;
- `runsThrough_iff_shows`: to show a list is to run through it, as far as a caller can see;
- `shows_indexed`, `shows_buffered`, `Shows.boxed`, `shows_join`, `Shows.settle`, `Shows.mapped`, `Shows.sampled`: the
  lemma for each machine.
-/
import Mathlib.Data.PFun
import TestInputs.Proofs.Cursors

namespace TestInputs

variable {σ α β ι : Type}

/-- what the states of a cursor show, and where they move -/
structure Machine (σ α : Type) where
  hasElement : σ → Bool
  element? : σ → Option α
  advance : σ →. σ

namespace Machine

/-! ## Callers -/

section Callers

variable (m : Machine σ α)

/-- read and pass elements one by one -/
def take : Nat → σ →. List α × σ
  | 0, s => .some ([], s)
  | n + 1, s =>
    match m.element? s with
    | none => .some ([], s)
    | some a => (m.advance s).bind fun t => (take n t).map fun taken => (a :: taken.1, taken.2)

/-- reading and passing elements until there are none gives the list -/
inductive Drains : σ → List α → Prop
  | ended {s : σ} (none : m.element? s = none) : Drains s []
  | passed {s t : σ} {a : α} {as : List α} (some : m.element? s = some a) (moved : t ∈ m.advance s)
      (rest : Drains t as) : Drains s (a :: as)

/-- what a step leaves behind -/
def step (s : σ) : CursorStep → Part σ
  | .hasElement => .some s
  | .element => .some s
  | .advance => m.advance s
  | .take limit => (m.take limit s).map Prod.snd

/-- what several steps leave behind -/
def after (s : σ) : List CursorStep → Part σ
  | [] => .some s
  | step :: steps => (m.step s step).bind fun t => after t steps

/-- the state is at a place of the list: it has an element if the place is in the list, and then the element there; it
takes and drains from there, and past the end it does not change any more -/
structure At (xs : List α) (k : Nat) (s : σ) : Prop where
  hasElement : m.hasElement s = true ↔ k < xs.length
  element : m.element? s = xs[k]?
  take : ∀ limit, ∃ t, ((xs.drop k).take (min limit (xs.length - k)), t) ∈ m.take limit s
  drain : m.Drains s (xs.drop k)
  stays : xs.length ≤ k → s ∈ m.advance s

/-- any steps come to an end, and lead to their position in the list -/
def RunsThrough (s : σ) (xs : List α) : Prop :=
  ∀ steps, ∃ t ∈ m.after s steps, m.At xs (position xs.length steps) t

/-- the state has the first element of the list, and a move leads to a state that shows the rest; at the end nothing
moves -/
def Shows : List α → σ → Prop
  | [], s => m.hasElement s = false ∧ m.element? s = none ∧ s ∈ m.advance s
  | a :: as, s => m.hasElement s = true ∧ m.element? s = some a ∧ ∃ t ∈ m.advance s, Shows as t

end Callers

variable {m : Machine σ α} {xs : List α} {s : σ}

theorem Shows.hasElement_iff (h : m.Shows xs s) : m.hasElement s = true ↔ xs ≠ [] := by
  cases xs with
  | nil => simp [h.1]
  | cons a as => simp [h.1]

theorem Shows.element?_eq (h : m.Shows xs s) : m.element? s = xs.head? := by
  cases xs with
  | nil => exact h.2.1
  | cons a as => exact h.2.1

theorem Shows.advance (h : m.Shows xs s) : ∃ t ∈ m.advance s, m.Shows xs.tail t := by
  cases xs with
  | nil => exact ⟨s, h.2.2, h⟩
  | cons a as => exact h.2.2

theorem Shows.take (h : m.Shows xs s) (n : Nat) : ∃ t, (xs.take n, t) ∈ m.take n s ∧ m.Shows (xs.drop n) t := by
  induction n generalizing xs s with
  | zero => exact ⟨s, Part.mem_some _, h⟩
  | succ n ih =>
    cases xs with
    | nil =>
      refine ⟨s, ?_, h⟩
      rw [Machine.take, h.2.1]
      exact Part.mem_some _
    | cons a as =>
      obtain ⟨-, helement, t, ht, hrest⟩ := h
      obtain ⟨u, hu, hdrop⟩ := ih hrest
      refine ⟨u, ?_, hdrop⟩
      rw [Machine.take, helement]
      exact Part.mem_bind ht (Part.mem_map (fun taken => (a :: taken.1, taken.2)) hu)

theorem Shows.drains (h : m.Shows xs s) : m.Drains s xs := by
  induction xs generalizing s with
  | nil => exact .ended h.2.1
  | cons a as ih =>
    obtain ⟨-, helement, t, ht, hrest⟩ := h
    exact .passed helement ht (ih hrest)

theorem Drains.unique {xs ys : List α} (hx : m.Drains s xs) (hy : m.Drains s ys) : xs = ys := by
  induction hx generalizing ys with
  | ended hnone =>
    cases hy with
    | ended _ => rfl
    | passed hsome _ _ =>
      rw [hnone] at hsome
      cases hsome
  | passed hsome hmoved _ ih =>
    cases hy with
    | ended hnone =>
      rw [hnone] at hsome
      cases hsome
    | passed hsome' hmoved' hrest =>
      rw [hsome] at hsome'
      cases hsome'
      rw [ih (Part.mem_unique hmoved' hmoved ▸ hrest)]

/-- one step moves the position and drops what was passed -/
theorem Shows.step {k : Nat} (h : m.Shows (xs.drop k) s) (step : CursorStep) :
    ∃ t ∈ m.step s step, m.Shows (xs.drop (step.move xs.length k)) t := by
  cases step with
  | hasElement => exact ⟨s, Part.mem_some s, h⟩
  | element => exact ⟨s, Part.mem_some s, h⟩
  | advance =>
    obtain ⟨t, ht, hrest⟩ := h.advance
    refine ⟨t, ht, ?_⟩
    rw [List.tail_drop] at hrest
    rw [CursorStep.drop_move_advance]
    exact hrest
  | take limit =>
    obtain ⟨t, ht, hrest⟩ := h.take limit
    refine ⟨t, Part.mem_map Prod.snd ht, ?_⟩
    rw [List.drop_drop] at hrest
    rw [CursorStep.drop_move_take]
    exact hrest

theorem Shows.after_from {k : Nat} (h : m.Shows (xs.drop k) s) (steps : List CursorStep) :
    ∃ t ∈ m.after s steps, m.Shows (xs.drop (steps.foldl (CursorStep.move xs.length) k)) t := by
  induction steps generalizing s k with
  | nil => exact ⟨s, Part.mem_some s, h⟩
  | cons step steps ih =>
    obtain ⟨t, ht, hstep⟩ := h.step step
    obtain ⟨u, hu, hsteps⟩ := ih hstep
    exact ⟨u, Part.mem_bind ht hu, hsteps⟩

theorem Shows.after (h : m.Shows xs s) (steps : List CursorStep) :
    ∃ t ∈ m.after s steps, m.Shows (xs.drop (position xs.length steps)) t :=
  h.after_from steps

/-- a state that shows what is left of a list behaves as a place in it -/
theorem Shows.at {k : Nat} (h : m.Shows (xs.drop k) s) : m.At xs k s where
  hasElement := by
    rw [h.hasElement_iff, ne_eq, List.drop_eq_nil_iff, not_le]
  element := by
    rw [h.element?_eq, List.head?_drop]
  take limit := by
    obtain ⟨t, ht, -⟩ := h.take limit
    refine ⟨t, ?_⟩
    rwa [← List.length_drop, ← List.take_eq_take_min]
  drain := h.drains
  stays hend := by
    rw [List.drop_of_length_le hend] at h
    exact h.2.2

theorem At.of_succ {a : α} {k : Nat} (h : m.At (a :: xs) (k + 1) s) : m.At xs k s where
  hasElement := by simpa using h.hasElement
  element := by simpa using h.element
  take limit := by simpa using h.take limit
  drain := h.drain
  stays hend := h.stays (Nat.succ_le_succ hend)

/-- **To show a list is to run through it.** -/
theorem runsThrough_iff_shows : m.RunsThrough s xs ↔ m.Shows xs s := by
  constructor
  · intro h
    induction xs generalizing s with
    | nil =>
      obtain ⟨t, ht, hat⟩ := h []
      obtain rfl := Part.mem_some_iff.1 ht
      exact ⟨by simpa using hat.hasElement, hat.element, hat.stays (Nat.zero_le _)⟩
    | cons a as ih =>
      obtain ⟨t, ht, hat⟩ := h []
      obtain rfl := Part.mem_some_iff.1 ht
      refine ⟨hat.hasElement.2 (Nat.succ_pos _), hat.element, ?_⟩
      -- whatever follows a first move are the steps of a caller who starts behind it
      obtain ⟨u, hu, -⟩ := h [.advance]
      obtain ⟨t', ht', -⟩ := Part.mem_bind_iff.1 hu
      refine ⟨t', ht', ih fun steps => ?_⟩
      obtain ⟨u, hu, hat⟩ := h (.advance :: steps)
      obtain ⟨t'', ht'', hu⟩ := Part.mem_bind_iff.1 hu
      obtain rfl := Part.mem_unique ht'' ht'
      refine ⟨u, hu, ?_⟩
      rw [List.length_cons, position_advance_cons] at hat
      exact hat.of_succ
  · intro h steps
    obtain ⟨t, ht, hrest⟩ := h.after steps
    exact ⟨t, ht, hrest.at⟩

theorem RunsThrough.drains (h : m.RunsThrough s xs) : m.Drains s xs :=
  (runsThrough_iff_shows.1 h).drains

end Machine

/-! ## Leaves -/

/-- a list and the place of the current element -/
structure Indexed (α : Type) where
  values : List α
  place : Nat := 0

/-- an iterator and the item that was read ahead, if there was one -/
structure Buffered (ι α : Type) where
  rest : ι
  current : Option α

namespace Machine

/-- nothing at all -/
def exhausted : Machine Unit α where
  hasElement _ := false
  element? _ := none
  advance s := .some s

/-- the elements of a list -/
def indexed : Machine (Indexed α) α where
  hasElement s := s.place < s.values.length
  element? s := s.values[s.place]?
  advance s := .some (if s.place < s.values.length then { s with place := s.place + 1 } else s)

/-- ask an iterator for its next item -/
def buffer (next : ι → Option α × ι) (rest : ι) : Buffered ι α := ⟨(next rest).2, (next rest).1⟩

/-- the items of an iterator; after the last one it is not asked any more -/
def buffered (next : ι → Option α × ι) : Machine (Buffered ι α) α where
  hasElement s := s.current.isSome
  element? s := s.current
  advance s := .some (if s.current.isSome then buffer next s.rest else s)

/-- the items that an iterator gives until it gives none for the first time -/
inductive Yields (next : ι → Option α × ι) : ι → List α → Prop
  | ended {i : ι} (none : (next i).1 = none) : Yields next i []
  | item {i : ι} {a : α} {as : List α} (some : (next i).1 = some a) (rest : Yields next (next i).2 as) :
      Yields next i (a :: as)

/-- cursors of several kinds, each state with its kind -/
def boxed {σ : ι → Type} (machines : ∀ i, Machine (σ i) α) : Machine (Σ i, σ i) α where
  hasElement s := (machines s.1).hasElement s.2
  element? s := (machines s.1).element? s.2
  advance s := ((machines s.1).advance s.2).map (Sigma.mk s.1)

theorem shows_exhausted : (exhausted : Machine Unit α).Shows [] () := ⟨rfl, rfl, Part.mem_some _⟩

theorem shows_indexed (values : List α) (place : Nat) : indexed.Shows (values.drop place) ⟨values, place⟩ := by
  generalize hrest : values.drop place = rest
  induction rest generalizing place with
  | nil =>
    have hend : ¬ place < values.length := not_lt.2 (List.drop_eq_nil_iff.1 hrest)
    refine ⟨decide_eq_false hend, List.getElem?_eq_none (not_lt.1 hend), ?_⟩
    simp only [indexed, if_neg hend]
    exact Part.mem_some _
  | cons a as ih =>
    have hplace : values[place]? = some a := by rw [← List.head?_drop, hrest]; rfl
    have hinside : place < values.length := (List.getElem?_eq_some_iff.1 hplace).1
    have htail : values.drop (place + 1) = as := by rw [← List.tail_drop, hrest]; rfl
    refine ⟨decide_eq_true hinside, hplace, ⟨values, place + 1⟩, ?_, ih (place + 1) htail⟩
    simp only [indexed, if_pos hinside]
    exact Part.mem_some _

theorem shows_buffered {next : ι → Option α × ι} {i : ι} {items : List α} (h : Yields next i items) :
    (buffered next).Shows items (buffer next i) := by
  induction h with
  | ended hnone => simp [Shows, buffered, buffer, hnone]
  | item hsome _ ih => simpa [Shows, buffered, buffer, hsome] using ih

theorem Shows.boxed {σ : ι → Type} {machines : ∀ i, Machine (σ i) α} {i : ι} {s : σ i} {xs : List α}
    (h : (machines i).Shows xs s) : (boxed machines).Shows xs ⟨i, s⟩ := by
  induction xs generalizing s with
  | nil => exact ⟨h.1, h.2.1, Part.mem_map (Sigma.mk i) h.2.2⟩
  | cons a as ih =>
    obtain ⟨helement, hsome, t, ht, hrest⟩ := h
    exact ⟨helement, hsome, ⟨i, t⟩, Part.mem_map (Sigma.mk i) ht, ih hrest⟩

/-! ## Joining -/

/-- a queue of inputs; those without elements do not enter it -/
def join (m : Machine σ α) (inputs : List σ) : List σ := inputs.filter m.hasElement

/-- the front moves on, and what is used up leaves the queue -/
def joined (m : Machine σ α) : Machine (List σ) α where
  hasElement queue := queue.head?.any m.hasElement
  element? queue := queue.head?.bind m.element?
  advance
    | [] => .some []
    | s :: queue => (m.advance s).map fun t => (t :: queue).dropWhile fun u => !m.hasElement u

variable {m : Machine σ α} {xs : List α} {s : σ}

/-- a queue in which every input has an element. Only its front can be used up by a move, and the one behind it is on
its first element then. -/
theorem shows_queue {lists : List (List α)} {queue : List σ} (h : List.Forall₂ m.Shows lists queue)
    (hne : ∀ xs ∈ lists, xs ≠ []) : m.joined.Shows lists.flatten queue := by
  induction h with
  | nil => exact ⟨rfl, rfl, Part.mem_some _⟩
  | @cons xs s lists queue hs hqueue ih =>
    have hrest : ∀ ys ∈ lists, ys ≠ [] := fun ys hys => hne ys (List.mem_cons_of_mem _ hys)
    have hwaiting : queue.dropWhile (fun u => !m.hasElement u) = queue := by
      cases hqueue with
      | nil => rfl
      | cons ht _ =>
        rw [List.dropWhile_cons_of_neg]
        simpa using ht.hasElement_iff.2 (hrest _ List.mem_cons_self)
    have hne : xs ≠ [] := hne xs List.mem_cons_self
    induction xs generalizing s with
    | nil => exact absurd rfl hne
    | cons a as ihas =>
      obtain ⟨helement, hsome, t, ht, has⟩ := hs
      refine ⟨helement, hsome, _, Part.mem_map _ ht, ?_⟩
      cases as with
      | nil =>
        rw [List.dropWhile_cons_of_pos (by simp [has.1]), hwaiting]
        exact ih hrest
      | cons b bs =>
        rw [List.dropWhile_cons_of_neg (by simp [has.1])]
        exact ihas has (fun ys hys => by
          rcases List.mem_cons.1 hys with rfl | hys
          · exact List.cons_ne_nil _ _
          · exact hrest ys hys) (List.cons_ne_nil _ _)

/-- **A queue shows the lists of its inputs, one after the other.** -/
theorem shows_join {lists : List (List α)} {inputs : List σ} (h : List.Forall₂ m.Shows lists inputs) :
    m.joined.Shows lists.flatten (m.join inputs) := by
  have hqueue : List.Forall₂ m.Shows (lists.filter fun xs => !xs.isEmpty) (m.join inputs) := by
    induction h with
    | nil => exact .nil
    | @cons xs s lists inputs hs _ ih =>
      cases xs with
      | nil => simpa [join, hs.1] using ih
      | cons a as => simpa [join, hs.1] using ⟨hs, ih⟩
  rw [← List.flatten_filter_not_isEmpty]
  apply shows_queue hqueue
  intro xs hxs
  simpa using (List.mem_filter.1 hxs).2

/-! ## Filtering and mapping -/

/-- pass elements until one is accepted -/
def settle (m : Machine σ α) (p : α → Bool) : σ →. σ :=
  PFun.fix fun s => if (m.element? s).all p then .some (.inl s) else (m.advance s).map .inr

/-- the elements that are accepted -/
def filtered (m : Machine σ α) (p : α → Bool) : Machine σ α where
  hasElement := m.hasElement
  element? := m.element?
  advance s := if m.hasElement s then (m.advance s).bind (m.settle p) else .some s

/-- a function applied to every element, each time it is read -/
def mapped (m : Machine σ α) (f : α → β) : Machine σ β where
  hasElement := m.hasElement
  element? s := (m.element? s).map f
  advance := m.advance

theorem mem_settle_of_all {p : α → Bool} (h : (m.element? s).all p = true) : s ∈ m.settle p s := by
  apply PFun.fix_stop
  rw [if_pos h]
  exact Part.mem_some _

theorem mem_settle_of_advance {p : α → Bool} {t u : σ} (h : ¬ (m.element? s).all p = true) (ht : t ∈ m.advance s)
    (hu : u ∈ m.settle p t) : u ∈ m.settle p s := by
  refine PFun.mem_fix_iff.2 (Or.inr ⟨t, ?_, hu⟩)
  rw [if_neg h]
  exact Part.mem_map Sum.inr ht

/-- **A filter settles, and then shows what is accepted of the list.** -/
theorem Shows.settle (p : α → Bool) (h : m.Shows xs s) :
    ∃ t ∈ m.settle p s, (m.filtered p).Shows (xs.filter p) t := by
  induction xs generalizing s with
  | nil =>
    refine ⟨s, mem_settle_of_all (by simp [h.2.1]), h.1, h.2.1, ?_⟩
    simp [filtered, h.1]
  | cons a as ih =>
    obtain ⟨helement, hsome, t, ht, hrest⟩ := h
    obtain ⟨u, hu, hshows⟩ := ih hrest
    by_cases hp : p a = true
    · refine ⟨s, mem_settle_of_all (by simpa [hsome] using hp), ?_⟩
      rw [List.filter_cons_of_pos hp]
      refine ⟨helement, hsome, u, ?_, hshows⟩
      simp only [filtered, if_pos helement]
      exact Part.mem_bind ht hu
    · refine ⟨u, mem_settle_of_advance (by simpa [hsome] using hp) ht hu, ?_⟩
      rw [List.filter_cons_of_neg hp]
      exact hshows

theorem Shows.mapped (f : α → β) (h : m.Shows xs s) : (m.mapped f).Shows (xs.map f) s := by
  induction xs generalizing s with
  | nil => exact ⟨h.1, by simp [Machine.mapped, h.2.1], h.2.2⟩
  | cons a as ih =>
    obtain ⟨helement, hsome, t, ht, hrest⟩ := h
    exact ⟨helement, by simp [Machine.mapped, hsome], t, ht, ih hrest⟩

/-! ## Sampling -/

/-- is the next element kept? A fraction of one keeps it without a draw. -/
def keepNext (sampling : Sampling) (draws : Draws) : Bool × Draws :=
  if sampling.isIdentity then (true, draws) else draws.decide sampling.fraction

/-- pass elements until one is kept; at the end there is nothing to draw for -/
def seek (m : Machine σ α) (sampling : Sampling) : σ × Draws →. σ × Draws :=
  PFun.fix fun s =>
    if m.hasElement s.1 then
      if (keepNext sampling s.2).1 then .some (.inl (s.1, (keepNext sampling s.2).2))
      else (m.advance s.1).map fun t => .inr (t, (keepNext sampling s.2).2)
    else .some (.inl s)

/-- a sample of the elements, with the position in the stream of draws -/
def sampled (m : Machine σ α) (sampling : Sampling) : Machine (σ × Draws) α where
  hasElement s := m.hasElement s.1
  element? s := m.element? s.1
  advance s := (m.advance s.1).bind fun t => m.seek sampling (t, s.2)

/-- the elements of a list that are kept, with a draw for each -/
def thinned (sampling : Sampling) : Draws → List α → List α
  | _, [] => []
  | draws, a :: as =>
    if (keepNext sampling draws).1 then a :: thinned sampling (keepNext sampling draws).2 as
    else thinned sampling (keepNext sampling draws).2 as

theorem mem_seek_of_ended {sampling : Sampling} {draws : Draws} (h : m.hasElement s = false) :
    (s, draws) ∈ m.seek sampling (s, draws) := by
  apply PFun.fix_stop
  simp [h]

/-- the search for the next element to keep ends, and what it finds shows the sample -/
theorem Shows.seek (sampling : Sampling) (draws : Draws) (h : m.Shows xs s) :
    ∃ u ∈ m.seek sampling (s, draws), (m.sampled sampling).Shows (thinned sampling draws xs) u := by
  induction xs generalizing s draws with
  | nil =>
    have hended : (s, draws) ∈ m.seek sampling (s, draws) := mem_seek_of_ended h.1
    exact ⟨(s, draws), hended, h.1, h.2.1, Part.mem_bind h.2.2 hended⟩
  | cons a as ih =>
    obtain ⟨helement, hsome, t, ht, hrest⟩ := h
    obtain ⟨u, hu, hshows⟩ := ih (keepNext sampling draws).2 hrest
    rw [thinned]
    split_ifs with hkept
    · refine ⟨(s, (keepNext sampling draws).2), ?_, helement, hsome, u, Part.mem_bind ht hu, hshows⟩
      apply PFun.fix_stop
      simp [helement, hkept]
    · refine ⟨u, PFun.mem_fix_iff.2 (Or.inr ⟨(t, (keepNext sampling draws).2), ?_, hu⟩), hshows⟩
      simp only [helement, hkept, if_true, Bool.false_eq_true, if_false]
      exact Part.mem_map (fun t => Sum.inr (t, (keepNext sampling draws).2)) ht

/-- **A sample shows the first element, and then what is kept of the others.** -/
theorem Shows.sampled (sampling : Sampling) (draws : Draws) (h : m.Shows xs s) :
    (m.sampled sampling).Shows (xs.head?.toList ++ thinned sampling draws xs.tail) (s, draws) := by
  cases xs with
  | nil => exact ⟨h.1, h.2.1, Part.mem_bind h.2.2 (mem_seek_of_ended h.1)⟩
  | cons a as =>
    obtain ⟨helement, hsome, t, ht, hrest⟩ := h
    obtain ⟨u, hu, hshows⟩ := hrest.seek sampling draws
    exact ⟨helement, hsome, u, Part.mem_bind ht hu, hshows⟩

end Machine

end TestInputs
