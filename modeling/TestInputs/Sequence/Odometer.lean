/-
Products of sequences, enumerated like the readings of an odometer. Each dimension is a wheel: a current value, what
follows it, and a way to start the dimension afresh. A turn moves the last wheel; when a wheel has run out, the wheel to
its left moves on and all wheels to the right are mounted afresh. The enumeration ends when the first wheel has run out or
a fresh dimension has no element.

A turn leaves fewer readings to come than there were, so the readings of an odometer form a finite sequence.
-/
import TestInputs.Sequence.Basic

namespace TestInputs

/-- one dimension: the sequence to start with, and a way to get later ones -/
structure Dimension (α : Type) where
  first : Sequence α
  again : Unit → Sequence α

namespace Dimension

variable {α : Type}

/-- a dimension that starts as it restarts -/
def ofFactory (again : Unit → Sequence α) : Dimension α := ⟨again (), again⟩

end Dimension

/-- a mounted dimension: its current value, what follows it, and a way to start afresh -/
structure Wheel (α : Type) where
  value : α
  rest : Unit → Sequence α
  again : Unit → Sequence α

/-- what a turn of an odometer leads to -/
inductive Motion (α : Type) where
  | stopped
  | cut
  | running (wheels : List (Wheel α))

/-- put a wheel to the left of the others -/
def Motion.push {α : Type} (w : Wheel α) : Motion α → Motion α
  | .stopped => .stopped
  | .cut => .cut
  | .running ws => .running (w :: ws)

namespace Odometer

variable {α : Type}

/-- put every dimension on its first element -/
def mount : List (Dimension α) → Motion α
  | [] => .running []
  | d :: ds =>
    match d.first with
    | .nil => .stopped
    | .cut => .cut
    | .cons a t => (mount ds).push ⟨a, t, d.again⟩

/-- the dimensions of wheels, from the start -/
def restart (ws : List (Wheel α)) : List (Dimension α) :=
  ws.map fun w => .ofFactory w.again

/-- move to the next reading -/
def turn : List (Wheel α) → Motion α
  | [] => .stopped
  | w :: ws =>
    match turn ws with
    | .running ws' => .running (w :: ws')
    | .cut => .cut
    | .stopped =>
      match w.rest () with
      | .nil => .stopped
      | .cut => .cut
      | .cons a t => (mount (restart ws)).push ⟨a, t, w.again⟩

/-! ## A turn makes progress -/

/-- the readings of fresh wheels -/
def full : List (Wheel α) → Nat
  | [] => 1
  | w :: ws => (w.again ()).toList.length * full ws

/-- the readings still to come -/
def left : List (Wheel α) → Nat
  | [] => 0
  | w :: ws => (w.rest ()).toList.length * full ws + left ws

theorem full_left_of_mount {ws ms : List (Wheel α)} (h : mount (restart ws) = .running ms) :
    full ms = full ws ∧ left ms < full ws := by
  induction ws generalizing ms with
  | nil =>
    simp only [restart, List.map_nil, mount, Motion.running.injEq] at h
    subst h
    simp [full, left]
  | cons w ws ih =>
    simp only [restart, List.map_cons, mount, Dimension.ofFactory] at h ih
    split at h
    · cases h
    · cases h
    · next a t hw =>
      cases hm : mount (restart ws) with
      | stopped => simp only [restart, Dimension.ofFactory] at hm; simp [hm, Motion.push] at h
      | cut => simp only [restart, Dimension.ofFactory] at hm; simp [hm, Motion.push] at h
      | running ns =>
        simp only [restart, Dimension.ofFactory] at hm
        obtain ⟨hf, hl⟩ := ih hm
        simp only [hm, Motion.push, Motion.running.injEq] at h
        subst h
        simp only [full, left, hw, Sequence.toList_cons, List.length_cons, hf, Nat.succ_mul, true_and]
        omega

theorem full_left_of_turn {ws ms : List (Wheel α)} (h : turn ws = .running ms) :
    full ms = full ws ∧ left ms < left ws := by
  induction ws generalizing ms with
  | nil => simp [turn] at h
  | cons w ws ih =>
    simp only [turn] at h
    split at h
    · next ns hn =>
      simp only [Motion.running.injEq] at h
      subst h
      obtain ⟨hf, hl⟩ := ih hn
      simp only [full, left, hf, true_and]
      omega
    · cases h
    · split at h
      · cases h
      · cases h
      · next a t hw =>
        cases hm : mount (restart ws) with
        | stopped => simp [hm, Motion.push] at h
        | cut => simp [hm, Motion.push] at h
        | running ns =>
          simp only [hm, Motion.push, Motion.running.injEq] at h
          subst h
          obtain ⟨hf, hl⟩ := full_left_of_mount hm
          simp only [full, left, hw, Sequence.toList_cons, List.length_cons, hf, Nat.succ_mul, true_and]
          omega

/-- the values that the wheels show -/
def reading (ws : List (Wheel α)) : List α := ws.map Wheel.value

/-- the current reading and all that follow it -/
def readings (ws : List (Wheel α)) : Sequence (List α) :=
  .cons (reading ws) fun _ =>
    match turned : turn ws with
    | .stopped => .nil
    | .cut => .cut
    | .running ms => have := (full_left_of_turn turned).2; readings ms
termination_by left ws

end Odometer

/-- the product of several dimensions, the last one varying fastest -/
def Sequence.product {α : Type} (ds : List (Dimension α)) : Sequence (List α) :=
  match Odometer.mount ds with
  | .stopped => .nil
  | .cut => .cut
  | .running ws => Odometer.readings ws

/-- pair first sequences with ways to restart; those without a partner are dropped -/
def Dimension.pair {α : Type} (firsts : List (Sequence α)) (factories : List (Unit → Sequence α)) :
    List (Dimension α) :=
  List.zipWith Dimension.mk firsts factories

end TestInputs
