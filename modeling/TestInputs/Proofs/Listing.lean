/-
The lists behind one level of exploration. `Generated` says what values a level may yield; here it is said which list
they form, in which order and with what left out, in terms of the lists of the types that the level needs. This part
knows nothing of cursors: an array is one of the tuples over the values of its component, an instance belongs to one of
the tuples over the values of its parameters.

Results:
- `toList_arrays`: null, the empty array, and then the tuples of each length in lexicographic order;
- `constructorValues_fst`, `toList_constructorValues`: the instances of a constructor, none if it may not be used or
  rejects its first tuple;
- `toList_instantiations`, `toList_dataTypeValues`, `toList_structuredValues`: the same for a type by its constructors,
  for a data type, and for a structured type, where no strategies are registered.
-/
import TestInputs.Proofs.Generated

namespace TestInputs

variable {α : Type}

/-! ## Arrays -/

theorem nil_mem_of_lexicographic {ls : List (List α)} (h : lexicographic ls = []) : [] ∈ ls := by
  induction ls with
  | nil => simp [lexicographic] at h
  | cons xs ls ih =>
    cases xs with
    | nil => exact List.mem_cons_self
    | cons x xs =>
      simp only [lexicographic, List.flatMap_cons, List.append_eq_nil_iff, List.map_eq_nil_iff] at h
      exact List.mem_cons_of_mem _ (ih h.1)

/-- if no tuples of one length exist, then none of a greater length do -/
theorem lexicographic_replicate_eq_nil {xs : List α} {m n : Nat} (h : lexicographic (List.replicate m xs) = [])
    (hmn : m ≤ n) : lexicographic (List.replicate n xs) = [] := by
  obtain ⟨hm, hxs⟩ := List.mem_replicate.1 (nil_mem_of_lexicographic h)
  exact lexicographic_eq_nil (List.mem_replicate.2 ⟨by omega, hxs⟩)

namespace Sequence

theorem toList_filledArrays {component : Unit → Sequence α} (h : (component ()).Complete) (length count : Nat) :
    (filledArrays component length count).toList =
      (List.range' length count).flatMap fun n => lexicographic (List.replicate n (component ()).toList) := by
  induction count generalizing length with
  | zero => rfl
  | succ count ih =>
    have hs := steady_replicate h length
    have hc := complete_product hs
    have hlist := toList_product hs
    simp only [List.map_replicate, Dimension.ofFactory] at hlist
    simp only [filledArrays, List.range'_succ, List.flatMap_cons]
    split
    · rename_i hp
      simp only [Dimension.ofFactory] at hp
      rw [hp, toList_nil] at hlist
      have hnone : ∀ n ∈ List.range' (length + 1) count,
          lexicographic (List.replicate n (component ()).toList) = [] := by
        intro n hn
        obtain ⟨hn, -⟩ := List.mem_range'_1.1 hn
        exact lexicographic_replicate_eq_nil hlist.symm (by omega)
      rw [← hlist, List.flatMap_eq_nil_iff.2 hnone]
      rfl
    · rename_i hp
      rw [hp] at hc
      exact hc.elim
    · rename_i a t hp
      rw [← hp, toList_append hc, ih]
      simp only [Dimension.ofFactory, hlist]

/-- **Arrays by length.** The absent array, the empty one, and then all tuples over the elements, short ones first. -/
theorem toList_arrays {component : Unit → Sequence α} (h : (component ()).Complete) (maxLength : Nat) :
    (arrays component maxLength).toList = none :: some [] ::
      ((List.range' 1 maxLength).flatMap fun n => lexicographic (List.replicate n (component ()).toList)).map some := by
  simp only [arrays, toList_cons, toList_map, toList_filledArrays h]

/-- the product of sequences that are the same each time they are asked for -/
theorem product_ofFactory {values : List (Sequence α)} (h : ∀ s ∈ values, s.Complete) :
    (product (values.map fun s => .ofFactory fun _ => s)).Complete ∧
      (product (values.map fun s => .ofFactory fun _ => s)).toList =
        lexicographic (values.map toList) := by
  have hsteady : ∀ d ∈ values.map fun s => Dimension.ofFactory fun _ => s, d.Steady := by
    intro d hd
    obtain ⟨s, hs, rfl⟩ := List.mem_map.1 hd
    exact ⟨h s hs, rfl⟩
  refine ⟨complete_product hsteady, ?_⟩
  rw [toList_product hsteady, List.map_map]
  rfl

end Sequence

/-! ## Constructors -/

namespace Constructor

/-- does the constructor accept arguments of the given types? -/
def acceptsTypes (h : Hierarchy) (types : List TypeName) (c : Constructor) : Bool :=
  c.arity == types.length && (c.parameters.zip types).all fun p => h.isAssignable p.1 p.2

/-- the instances that a constructor makes from the tuples over lists of values, none if it rejects the first tuple -/
def instancesOver (c : Constructor) (ty : TypeName) (index : Nat) (values : List (List Value)) : List Value :=
  match lexicographic values with
  | [] => []
  | first :: rest =>
    match c.build ty index first with
    | .error _ => []
    | .ok _ => (first :: rest).filterMap fun tuple => (c.build ty index tuple).toOption

/-- the same from sequences of values -/
def instancesFrom (c : Constructor) (ty : TypeName) (index : Nat) (values : List (Sequence Value)) : Sequence Value :=
  let tuples := Sequence.product (values.map fun s => .ofFactory fun _ => s)
  match tuples with
  | .nil => .nil
  | .cut => .cut
  | .cons first _ =>
    match c.build ty index first with
    | .error _ => .nil
    | .ok _ => tuples.filterMap fun tuple => (c.build ty index tuple).toOption

section Complete

variable (c : Constructor) (ty : TypeName) (index : Nat) {values : List (Sequence Value)}

theorem complete_instancesFrom (h : ∀ s ∈ values, s.Complete) : (c.instancesFrom ty index values).Complete := by
  obtain ⟨hcomplete, -⟩ := Sequence.product_ofFactory h
  simp only [instancesFrom]
  generalize Sequence.product _ = tuples at hcomplete
  cases tuples with
  | nil => trivial
  | cut => exact hcomplete.elim
  | cons first rest =>
    dsimp only
    cases c.build ty index first with
    | error failure => trivial
    | ok v => exact (Sequence.complete_filterMap _ _).2 hcomplete

theorem toList_instancesFrom (h : ∀ s ∈ values, s.Complete) :
    (c.instancesFrom ty index values).toList = c.instancesOver ty index (values.map Sequence.toList) := by
  obtain ⟨hcomplete, hlist⟩ := Sequence.product_ofFactory h
  simp only [instancesFrom, instancesOver, ← hlist]
  generalize Sequence.product _ = tuples at hcomplete
  cases tuples with
  | nil => rfl
  | cut => exact hcomplete.elim
  | cons first rest =>
    simp only [Sequence.toList_cons]
    cases c.build ty index first with
    | error failure => rfl
    | ok v => rw [Sequence.toList_filterMap, Sequence.toList_cons]

end Complete

end Constructor

namespace Resolver

variable (r : Resolver) {inner : ShapeValues}

/-- may a constructor be used? arguments are allowed or it has none, and no other constructor of the type accepts what
is made for its parameters -/
def usable (info : TypeInfo) (c : Constructor) (fallback : Bool) : Bool :=
  (fallback || c.arity == 0) && info.constructors.countP (·.acceptsTypes r.unit.hierarchy c.parameters) == 1

theorem accepts_argumentsFor_eq (h : Hierarchy) (c : Constructor) (parameters : List TypeName) (ctx : Context) :
    c.accepts h (r.argumentsFor inner parameters ctx) = c.acceptsTypes h parameters := by
  simp only [Constructor.accepts, Constructor.acceptsTypes, argumentsFor, List.length_map, List.zip_map_right,
    List.all_map]
  rfl

theorem length_accepting_argumentsFor (inner : ShapeValues) (info : TypeInfo) (h : Hierarchy)
    (parameters : List TypeName) (ctx : Context) :
    (info.accepting h (r.argumentsFor inner parameters ctx)).length =
      info.constructors.countP (·.acceptsTypes h parameters) := by
  rw [info.length_accepting]
  simp only [accepts_argumentsFor_eq]

/-- a constructor that alone accepts what is made for its parameters is chosen for it; otherwise none is -/
theorem instantiate_argumentsFor (inner : ShapeValues) (h : Hierarchy) {info : TypeInfo} {c : Constructor} {i : Nat}
    (hc : info.constructors[i]? = some c) (ctx : Context) :
    (info.constructors.countP (·.acceptsTypes h c.parameters) = 1 ∧
      info.instantiate h (r.argumentsFor inner c.parameters ctx) =
        info.instancesOf c i (r.argumentsFor inner c.parameters ctx)) ∨
    (info.constructors.countP (·.acceptsTypes h c.parameters) ≠ 1 ∧
      ∃ e, info.instantiate h (r.argumentsFor inner c.parameters ctx) = .error e) := by
  have hlength := r.length_accepting_argumentsFor inner info h c.parameters ctx
  unfold TypeInfo.instantiate
  split
  · rename_i hnone
    rw [hnone] at hlength
    exact Or.inr ⟨by rw [← hlength]; decide, _, rfl⟩
  · rename_i c' j hone
    obtain ⟨rfl, rfl⟩ := r.chosen_argumentsFor hc hone
    rw [hone] at hlength
    exact Or.inl ⟨hlength.symm, rfl⟩
  · rename_i hnone hone
    refine Or.inr ⟨fun hcount => ?_, _, rfl⟩
    rw [hcount] at hlength
    obtain ⟨⟨c', j⟩, hsingle⟩ := List.length_eq_one_iff.1 hlength
    exact hone c' j hsingle

/-- the values that are made for parameters -/
def parameterValues (inner : ShapeValues) (parameters : List TypeName) (ctx : Context) : List (Sequence Value) :=
  parameters.map fun p => (r.resolveWith inner anyValue p ctx.nested).1

/-- the lists of values that are made for parameters -/
def parameterLists (inner : ShapeValues) (parameters : List TypeName) (ctx : Context) : List (List Value) :=
  parameters.map fun p => (r.resolveWith inner anyValue p ctx.nested).1.toList

/-- what a constructor gives for the arguments that are made for it -/
theorem instancesOf_argumentsFor (inner : ShapeValues) (info : TypeInfo) (c : Constructor) (i : Nat) (ctx : Context) :
    (∃ e, info.instancesOf c i (r.argumentsFor inner c.parameters ctx) = .error e ∧
      c.instancesFrom info.ty i (r.parameterValues inner c.parameters ctx) = .nil) ∨
    info.instancesOf c i (r.argumentsFor inner c.parameters ctx) =
      .ok ⟨i, c.instancesFrom info.ty i (r.parameterValues inner c.parameters ctx)⟩ := by
  have hdimensions : (r.argumentsFor inner c.parameters ctx).map Argument.dimension =
      (r.parameterValues inner c.parameters ctx).map fun s => .ofFactory fun _ => s := by
    simp only [argumentsFor, parameterValues, List.map_map]
    rfl
  simp only [TypeInfo.instancesOf, Constructor.instancesFrom, hdimensions]
  generalize Sequence.product _ = tuples
  cases tuples with
  | nil => exact Or.inl ⟨_, rfl, rfl⟩
  | cut => exact Or.inr rfl
  | cons first rest =>
    dsimp only
    cases c.build info.ty i first with
    | error failure => exact Or.inl ⟨_, rfl, rfl⟩
    | ok v => exact Or.inr rfl

/-- **The instances of a constructor**, made from the values of its parameters; a constructor that may not be used has
none. -/
theorem constructorValues_fst (h : ∀ shape, Context.Framed (inner shape)) {info : TypeInfo} {c : Constructor} {i : Nat}
    (hc : info.constructors[i]? = some c) (ctx : Context) :
    (r.constructorValues inner info c ctx).1 =
      if r.usable info c ctx.structuralFallback then
        c.instancesFrom info.ty i (r.parameterValues inner c.parameters ctx)
      else .nil := by
  simp only [constructorValues, r.traverse_argumentWith h]
  split_ifs with hrefused husable husable
  · -- a constructor with arguments where none are allowed
    exfalso
    simp only [Bool.and_eq_true, Bool.not_eq_true', decide_eq_true_eq] at hrefused
    simp only [usable, hrefused.1, Bool.false_or, Bool.and_eq_true, beq_iff_eq] at husable
    omega
  · rfl
  · have hcount : info.constructors.countP (·.acceptsTypes r.unit.hierarchy c.parameters) = 1 := by
      simp only [usable, Bool.and_eq_true, beq_iff_eq] at husable
      exact husable.2
    rcases r.instantiate_argumentsFor inner r.unit.hierarchy hc ctx with ⟨-, hchosen⟩ | ⟨hne, -⟩
    · rw [hchosen]
      rcases r.instancesOf_argumentsFor inner info c i ctx with ⟨e, he, hnone⟩ | hsome
      · rw [he, hnone]
      · rw [hsome]
    · exact absurd hcount hne
  · rcases r.instantiate_argumentsFor inner r.unit.hierarchy hc ctx with ⟨hcount, -⟩ | ⟨-, e, he⟩
    · exfalso
      simp only [Bool.and_eq_true, Bool.not_eq_true', decide_eq_true_eq, not_and, Nat.not_lt] at hrefused
      apply husable
      simp only [usable, hcount, beq_self_eq_true, Bool.and_true, Bool.or_eq_true, beq_iff_eq]
      cases hf : ctx.structuralFallback with
      | true => exact Or.inl rfl
      | false => exact Or.inr (Nat.le_zero.1 (hrefused hf))
    · rw [he]

/-- the instances of a constructor in the order of their arguments -/
theorem toList_constructorValues (h : Regular inner) {info : TypeInfo} {c : Constructor} {i : Nat}
    (hc : info.constructors[i]? = some c) (ctx : Context) :
    (r.constructorValues inner info c ctx).1.toList =
      if r.usable info c ctx.structuralFallback then c.instancesOver info.ty i (r.parameterLists inner c.parameters ctx)
      else [] := by
  have hcomplete : ∀ s ∈ r.parameterValues inner c.parameters ctx, s.Complete := by
    intro s hs
    obtain ⟨p, _, rfl⟩ := List.mem_map.1 hs
    exact r.complete_resolveWith h anyValue p ctx.nested
  have hlists : (r.parameterValues inner c.parameters ctx).map Sequence.toList =
      r.parameterLists inner c.parameters ctx := List.map_map
  rw [r.constructorValues_fst h.framed hc]
  split_ifs
  · rw [c.toList_instancesFrom info.ty i hcomplete, hlists]
  · rfl

/-! ## Data types -/

theorem toList_instantiations (h : Regular inner) {ty : TypeName} {info : TypeInfo}
    (hinfo : r.unit.typeInfo? ty = some info) (hi : info.isInstantiable = true) (ctx : Context) :
    (r.instantiations inner ty ctx).1.toList =
      info.constructors.zipIdx.flatMap fun k => (r.constructorValues inner info k.1 ctx).1.toList := by
  have hcomplete : ∀ s ∈ info.constructors.map fun c => (r.constructorValues inner info c ctx).1, s.Complete := by
    intro s hs
    obtain ⟨c, _, rfl⟩ := List.mem_map.1 hs
    exact r.complete_constructorValues h info c ctx
  rw [r.instantiations_fst h.framed hinfo hi, Sequence.toList_concat hcomplete, List.flatMap_map]
  conv_lhs => rw [← List.zipIdx_map_fst 0 info.constructors, List.flatMap_map]

theorem toList_instantiations_unknown {ty : TypeName}
    (hunknown : ¬ ∃ info, r.unit.typeInfo? ty = some info ∧ info.isInstantiable = true) (ctx : Context) :
    (r.instantiations inner ty ctx).1.toList = [] := by
  rw [r.instantiations_unknown fun info hinfo => by simpa using fun hi => hunknown ⟨info, hinfo, hi⟩]
  rfl

variable {r}

/-- a data type other than the type itself is expanded with a mark of its own, and has no values if it bears one -/
theorem dataTypeValues_fst (hbare : r.lookup.Bare) (h : ∀ shape, Context.Framed (inner shape)) (ty d : TypeName)
    (ctx : Context) :
    (r.dataTypeValues inner ty d ctx).1 =
      if d == ty then (r.instantiations inner d ctx).1
      else if ctx.guard.inProgress d then .nil else (r.instantiations inner d (ctx.marked d)).1 := by
  have hnone := findStrategy_bare hbare d ctx.chain
  simp only [dataTypeValues]
  split_ifs with hsame hp
  · rfl
  · rw [r.subtypeValues_refused hnone hp]
  · have hp : ctx.guard.inProgress d = false := by simpa using hp
    rw [r.subtypeValues_expanded h hnone hp]

theorem toList_dataTypeValues (hbare : r.lookup.Bare) (h : Regular inner) (ty d : TypeName) (ctx : Context) :
    (r.dataTypeValues inner ty d ctx).1.toList =
      if d == ty then (r.instantiations inner d ctx).1.toList
      else if ctx.guard.inProgress d then [] else (r.instantiations inner d (ctx.marked d)).1.toList := by
  rw [dataTypeValues_fst hbare h.framed]
  split_ifs <;> rfl

/-! ## Shapes -/

/-- null in front of values; nothing if there are none -/
def nullFirst : List Value → List Value
  | [] => []
  | v :: vs => .null :: v :: vs

theorem toList_structuredValues (h : Regular inner) {ty : TypeName} {ctx : Context}
    (hp : ctx.guard.inProgress ty = false) :
    (r.structuredValues inner ty ctx).1.toList =
      nullFirst ((r.dataTypes ty ctx).flatMap fun d => (r.dataTypeValues inner ty d (ctx.marked ty)).1.toList) := by
  have hcomplete := r.complete_dataTypes h ty ctx (ctx.marked ty)
  have hlist := Sequence.toList_concat hcomplete
  have hconcat := Sequence.complete_concat hcomplete
  rw [List.flatMap_map] at hlist
  rw [r.structuredValues_expanded h.framed hp, ← hlist]
  generalize Sequence.concat _ = values at hconcat
  cases values with
  | nil => rfl
  | cut => exact hconcat.elim
  | cons v t => rfl

theorem toList_arrayValues (h : Regular inner) {ty component : TypeName} (hc : ty.component? = some component)
    (maxLength : Option Nat) (ctx : Context) :
    (r.arrayValues inner ty maxLength ctx).toList =
      .null :: .array component [] ::
        ((List.range' 1 (maxLength.getD (if ctx.structuralFallback then r.config.maxArrayLength else 0))).flatMap
          fun n => lexicographic (List.replicate n (r.resolveWith inner anyValue component ctx.nested).1.toList)).map
            (.array component) := by
  simp only [arrayValues, hc, Sequence.toList_map]
  rw [Sequence.toList_arrays (r.complete_resolveWith h anyValue component ctx.nested)]
  simp only [List.map_cons, List.map_map]
  rfl

end Resolver

end TestInputs
