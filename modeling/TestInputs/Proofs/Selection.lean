/-
The constructor that is chosen for generated arguments. Arguments are made for the parameters of one constructor of a
type; the constructor is then chosen anew, by matching all constructors of the type. A type is assignable to itself, so
the constructor that the arguments were made for is always among those that match. Another one is among them if and only
if it has as many parameters, each assignable from the one in its place, and then the choice is refused as ambiguous.
Hence whatever is made, rejected or without values is so for the constructor that it was meant for. None of this depends
on the values, so it holds with whatever strategies and hooks, also where an exploration is given up.

Results:
- `soleMatch_iff`: the constructor is the only match if and only if no other one contests its arguments;
- `attempt_contested`, `attempt_uncontested`: what the attempt to use the constructor comes to in either case;
- `droppedAsAmbiguous_iff`: the constructor is dropped as ambiguous exactly if its arguments are contested;
- `constructors_find_themselves`: all ways in which the attempt may end, and what is made if it succeeds.
-/
import TestInputs.Proofs.Listing
import TestInputs.Proofs.Overloads

namespace TestInputs

/-! ## Contested arguments -/

/-- a constructor takes whatever is made for another one: it has as many parameters, each assignable from the one in its
place -/
def Constructor.Takes (h : Hierarchy) (d c : Constructor) : Prop :=
  List.Forall₂ (fun p q => h.isAssignable p q = true) d.parameters c.parameters

theorem Constructor.takes_self (h : Hierarchy) (c : Constructor) : c.Takes h c :=
  List.forall₂_same.2 fun _ _ => h.isAssignable_of_beq BEq.rfl

namespace TypeInfo

/-- some other constructor of the type takes what is made for the one with the given index -/
def Contested (info : TypeInfo) (h : Hierarchy) (c : Constructor) (i : Nat) : Prop :=
  ∃ j d, j ≠ i ∧ info.constructors[j]? = some d ∧ d.Takes h c

/-- the ways in which an attempt to use the constructor with the given index may end; that no constructor matches, or
that another one is named, is not among them -/
inductive EndsFor (info : TypeInfo) (i : Nat) : Except InstantiationError Instantiation → Prop
  | made (instances : Sequence Value) : EndsFor info i (.ok ⟨i, instances⟩)
  | noArguments : EndsFor info i (.error (.noArguments info.ty i))
  | failed (failure : ConstructionFailure) : EndsFor info i (.error (.failed info.ty i failure))
  | ambiguous (count : Nat) (arguments : String) : EndsFor info i (.error (.ambiguous info.ty count arguments))

/-- the attempt was given up because several constructors match -/
def IsAmbiguous (info : TypeInfo) (attempt : Except InstantiationError Instantiation) : Prop :=
  ∃ count arguments, attempt = .error (.ambiguous info.ty count arguments)

variable {info : TypeInfo} {h : Hierarchy} {arguments : List Argument} {c : Constructor} {i : Nat}

theorem endsFor_instancesOf (info : TypeInfo) (c : Constructor) (i : Nat) (arguments : List Argument) :
    info.EndsFor i (info.instancesOf c i arguments) ∧ ¬ info.IsAmbiguous (info.instancesOf c i arguments) := by
  simp only [instancesOf]
  split
  · exact ⟨.noArguments, by rintro ⟨_, _, ⟨⟩⟩⟩
  · exact ⟨.made _, by rintro ⟨_, _, ⟨⟩⟩⟩
  · split
    · exact ⟨.failed _, by rintro ⟨_, _, ⟨⟩⟩⟩
    · exact ⟨.made _, by rintro ⟨_, _, ⟨⟩⟩⟩

/-- with a match that is not the only one, the choice is refused -/
theorem instantiate_ambiguous (hdeclared : info.constructors[i]? = some c) (hmatches : c.Matches h arguments)
    (hsole : ¬ info.SoleMatch h arguments c i) :
    info.instantiate h arguments =
      .error (.ambiguous info.ty (info.matchCount h arguments) (Argument.describe arguments)) := by
  have hmem := mem_accepting.2 ⟨hdeclared, hmatches⟩
  rw [matchCount_eq]
  unfold instantiate
  split
  · rename_i hnone
    rw [hnone] at hmem
    cases hmem
  · rename_i d j hone
    rw [hone, List.mem_singleton] at hmem
    cases hmem
    exact absurd (accepting_eq_singleton_iff.1 hone) hsole
  · rfl

end TypeInfo

/-! ## Attempts -/

namespace Resolver

open Context (Framed)

variable {r : Resolver} {inner : ShapeValues} {info : TypeInfo} {c : Constructor} {i : Nat} {ctx : Context}

/-- the attempt to use what was made for a constructor -/
def attempt (r : Resolver) (inner : ShapeValues) (info : TypeInfo) (c : Constructor) (ctx : Context) :
    Except InstantiationError Instantiation :=
  info.instantiate r.unit.hierarchy (ctx.traverse (r.argumentWith inner) c.parameters).1

/-- the context after the arguments of a constructor were made -/
def afterArguments (r : Resolver) (inner : ShapeValues) (c : Constructor) (ctx : Context) : Context :=
  (ctx.traverse (r.argumentWith inner) c.parameters).2

/-- nothing is made with the constructor, and the ambiguity is the last that is reported for it -/
def DroppedAsAmbiguous (r : Resolver) (inner : ShapeValues) (info : TypeInfo) (c : Constructor) (ctx : Context) : Prop :=
  ∃ count, r.constructorValues inner info c ctx =
    (.nil, (r.afterArguments inner c ctx).report (.ambiguousConstructor info.ty count))

/-- a constructor matches what is made for another one if and only if it takes it -/
theorem matches_argumentsFor {d : Constructor} :
    d.Matches r.unit.hierarchy (r.argumentsFor inner c.parameters ctx) ↔ d.Takes r.unit.hierarchy c := by
  rw [Constructor.Matches, argumentsFor, List.forall₂_map_right_iff]
  constructor
  · intro hmatches
    refine hmatches.imp fun p q hpasses => ?_
    cases hpasses with
    | generated hassignable => exact hassignable
  · intro htakes
    exact htakes.imp fun p q hassignable => .generated hassignable

/-- **Only contested arguments have another match.** -/
theorem soleMatch_iff (hc : info.constructors[i]? = some c) :
    info.SoleMatch r.unit.hierarchy (r.argumentsFor inner c.parameters ctx) c i ↔
      ¬ info.Contested r.unit.hierarchy c i := by
  constructor
  · rintro hsole ⟨j, d, hne, hd, htakes⟩
    exact hne (hsole.sole j d hd (matches_argumentsFor.2 htakes))
  · intro hfree
    refine ⟨hc, matches_argumentsFor.2 (c.takes_self _), fun j d hd hmatches => ?_⟩
    by_contra hne
    exact hfree ⟨j, d, hne, hd, matches_argumentsFor.1 hmatches⟩

theorem attempt_uncontested (h : ∀ shape, Framed (inner shape)) (hc : info.constructors[i]? = some c)
    (hfree : ¬ info.Contested r.unit.hierarchy c i) (ctx : Context) :
    r.attempt inner info c ctx = info.instancesOf c i (r.argumentsFor inner c.parameters ctx) := by
  rw [attempt, r.traverse_argumentWith h]
  exact TypeInfo.instantiate_of_sole ((soleMatch_iff hc).2 hfree)

theorem attempt_contested (h : ∀ shape, Framed (inner shape)) (hc : info.constructors[i]? = some c)
    (hcontested : info.Contested r.unit.hierarchy c i) (ctx : Context) :
    info.IsAmbiguous (r.attempt inner info c ctx) := by
  rw [attempt, r.traverse_argumentWith h]
  refine ⟨_, _, TypeInfo.instantiate_ambiguous hc (matches_argumentsFor.2 (c.takes_self _)) fun hsole => ?_⟩
  exact (soleMatch_iff hc).1 hsole hcontested

theorem endsFor_attempt (h : ∀ shape, Framed (inner shape)) (hc : info.constructors[i]? = some c) (ctx : Context) :
    info.EndsFor i (r.attempt inner info c ctx) := by
  by_cases hcontested : info.Contested r.unit.hierarchy c i
  · obtain ⟨count, arguments, hattempt⟩ := attempt_contested h hc hcontested ctx
    rw [hattempt]
    exact .ambiguous count arguments
  · rw [attempt_uncontested h hc hcontested ctx]
    exact (info.endsFor_instancesOf c i _).1

theorem isAmbiguous_attempt_iff (h : ∀ shape, Framed (inner shape)) (hc : info.constructors[i]? = some c)
    (ctx : Context) : info.IsAmbiguous (r.attempt inner info c ctx) ↔ info.Contested r.unit.hierarchy c i := by
  refine ⟨fun hambiguous => ?_, fun hcontested => attempt_contested h hc hcontested ctx⟩
  by_contra hfree
  rw [attempt_uncontested h hc hfree ctx] at hambiguous
  exact (info.endsFor_instancesOf c i _).2 hambiguous

/-! ## What becomes of the constructor -/

/-- a constructor may be used: arguments are allowed, or it has none -/
def Allowed (c : Constructor) (ctx : Context) : Prop := ctx.structuralFallback = true ∨ c.arity = 0

theorem constructorValues_of_allowed (hallowed : Allowed c ctx) :
    r.constructorValues inner info c ctx =
      match r.attempt inner info c ctx with
      | .ok instantiation => (instantiation.instances, r.afterArguments inner c ctx)
      | .error e => (.nil, (r.afterArguments inner c ctx).report (.ofError e)) := by
  have hused : ¬ (!ctx.structuralFallback && decide (0 < c.arity)) = true := by
    simp only [Bool.and_eq_true, Bool.not_eq_true', decide_eq_true_eq, not_and, Nat.not_lt, Nat.le_zero]
    intro hforbidden
    rcases hallowed with hfallback | hnone
    · rw [hfallback] at hforbidden
      cases hforbidden
    · exact hnone
  simp only [constructorValues, if_neg hused]
  rfl

/-- **A constructor is dropped as ambiguous exactly if its arguments are contested.** -/
theorem droppedAsAmbiguous_iff (h : ∀ shape, Framed (inner shape)) (hc : info.constructors[i]? = some c)
    (hallowed : Allowed c ctx) :
    r.DroppedAsAmbiguous inner info c ctx ↔ info.Contested r.unit.hierarchy c i := by
  rw [← isAmbiguous_attempt_iff h hc ctx, DroppedAsAmbiguous, constructorValues_of_allowed hallowed]
  constructor
  · rintro ⟨count, hdropped⟩
    -- the last report tells how the attempt ended
    have hreport := congrArg (fun result => result.2.diagnostics) hdropped
    cases hattempt : r.attempt inner info c ctx with
    | ok instantiation => simp [hattempt, Context.report] at hreport
    | error e =>
      have hdiagnostic : Diagnostic.ofError e = .ambiguousConstructor info.ty count := by
        simpa [hattempt, Context.report] using hreport
      have hends : info.EndsFor i (r.attempt inner info c ctx) := endsFor_attempt h hc ctx
      rw [hattempt] at hends
      cases hends with
      | noArguments => cases hdiagnostic
      | failed failure => cases hdiagnostic
      | ambiguous n arguments => exact ⟨n, arguments, rfl⟩
  · rintro ⟨count, arguments, hattempt⟩
    rw [hattempt]
    exact ⟨count, rfl⟩

/-- **Constructors find themselves.** For every unit and settings, with whatever strategies, in every context and for any
number of levels: the attempt to use what was made for a constructor of a type never ends without a match; if it succeeds,
has no arguments or is rejected, then this is so for that constructor, and it is ambiguous if and only if another
constructor of the type contests the arguments. Without a hook each value that is made is an object with the index of the
constructor, and its arguments are values of the parameters of this constructor in order. Where the constructor may be
used at all, it is dropped as ambiguous if and only if its arguments are contested. -/
theorem constructors_find_themselves (r : Resolver) (levels : Nat) (info : TypeInfo) (c : Constructor) (i : Nat)
    (hc : info.constructors[i]? = some c) (ctx : Context) :
    info.EndsFor i (r.attempt (r.shapeValues levels) info c ctx) ∧
    (info.IsAmbiguous (r.attempt (r.shapeValues levels) info c ctx) ↔ info.Contested r.unit.hierarchy c i) ∧
    (c.hook = none → ∀ v ∈ (r.constructorValues (r.shapeValues levels) info c ctx).1.toList,
      ∃ arguments, v = .object info.ty i arguments ∧
        List.Forall₂ (fun a p => a ∈ (r.resolveWith (r.shapeValues levels) anyValue p ctx.nested).1.toList) arguments
          c.parameters) ∧
    (Allowed c ctx →
      (r.DroppedAsAmbiguous (r.shapeValues levels) info c ctx ↔ info.Contested r.unit.hierarchy c i)) := by
  have hframed := r.framed_shapeValues levels
  refine ⟨endsFor_attempt hframed hc ctx, isAmbiguous_attempt_iff hframed hc ctx, ?_, ?_⟩
  · intro hhook v hv
    exact r.mem_constructorValues hframed hhook hc hv
  · intro hallowed
    exact droppedAsAmbiguous_iff hframed hc hallowed

/-! A cage is made for a bird or for a parrot. What is made for the second constructor could be given to the first one
as well, but not the other way round. -/

def parrotType : TypeInfo := { ty := ⟨"Parrot", "", 0⟩, constructors := [⟨[], none⟩] }

def birdType : TypeInfo := { ty := ⟨"Bird", "", 0⟩, isAbstract := true, subtypes := [⟨"Parrot", "", 0⟩] }

def cageType : TypeInfo :=
  { ty := ⟨"Cage", "", 0⟩, constructors := [⟨[⟨"Bird", "", 0⟩], none⟩, ⟨[⟨"Parrot", "", 0⟩], none⟩] }

def cageResolver : Resolver :=
  .make Catalog.empty.lookup { declaring := ⟨"Cage", "", 0⟩, types := [parrotType, birdType, cageType] } {}

theorem cages_find_themselves :
    cageType.constructors[0]? = some ⟨[⟨"Bird", "", 0⟩], none⟩ ∧
    cageType.EndsFor 0
      (cageResolver.attempt (cageResolver.shapeValues 4) cageType ⟨[⟨"Bird", "", 0⟩], none⟩
        (.forType ⟨"Cage", "", 0⟩)) ∧
    ((cageResolver.constructorValues (cageResolver.shapeValues 4) cageType ⟨[⟨"Bird", "", 0⟩], none⟩
        (.forType ⟨"Cage", "", 0⟩)).1.toList ==
      [.object ⟨"Cage", "", 0⟩ 0 [.null], .object ⟨"Cage", "", 0⟩ 0 [.object ⟨"Parrot", "", 0⟩ 0 []]]) = true ∧
    cageType.constructors[1]? = some ⟨[⟨"Parrot", "", 0⟩], none⟩ ∧
    cageType.Contested cageResolver.unit.hierarchy ⟨[⟨"Parrot", "", 0⟩], none⟩ 1 ∧
    cageResolver.DroppedAsAmbiguous (cageResolver.shapeValues 4) cageType ⟨[⟨"Parrot", "", 0⟩], none⟩
      (.forType ⟨"Cage", "", 0⟩) := by
  have hcontested : cageType.Contested cageResolver.unit.hierarchy ⟨[⟨"Parrot", "", 0⟩], none⟩ 1 :=
    ⟨0, _, by decide, rfl, .cons (by decide +kernel) .nil⟩
  obtain ⟨hends, -, -, -⟩ :=
    constructors_find_themselves cageResolver 4 cageType _ 0 rfl (.forType ⟨"Cage", "", 0⟩)
  obtain ⟨-, -, -, hdropped⟩ :=
    constructors_find_themselves cageResolver 4 cageType _ 1 rfl (.forType ⟨"Cage", "", 0⟩)
  exact ⟨rfl, hends, by decide +kernel, rfl, hcontested, (hdropped (Or.inl rfl)).2 hcontested⟩

end Resolver

end TestInputs
