/-
What is generated without registered strategies and without construct hooks. `Yields` says, shape by shape, what values
a level gives, in terms of the values of the types that it needs: null, constants, arrays over the values of the
component, and objects made by a constructor of a data type, each argument a value of its parameter. The constructor of
an object is the one whose parameters the arguments were made for: it accepts them, and an object is made only if no
other constructor does.

Results:
- `Shape.ofType_spec`: what the shape of a type says about the type;
- `resolveWith_bare`: without registered strategies, the values of a type are those of its shape, filtered and sampled;
- `yields_of_mem`: one level yields nothing else;
- `generated_induction`: a property that passes from the values below to what is yielded holds of all values of all
  types in all contexts.
-/
import TestInputs.Proofs.Termination

namespace TestInputs

/-! ## Constants -/

namespace Value

theorem kind?_of_mem_boundaries {k : Kind} {v : Value} (h : v ∈ boundaries k) :
    v.kind? = some k ∨ (v = .null ∧ k = .string) := by
  cases k <;> simp only [boundaries, List.mem_cons, List.not_mem_nil, or_false] at h <;>
    rcases h with rfl | rfl | rfl <;> simp [kind?]

theorem kind?_of_readLiteral {k : Kind} {text : String} {v : Value} (h : readLiteral? k text = some v) :
    v.kind? = some k := by
  unfold readLiteral? readTrimmed? at h
  cases k with
  | boolean => simp only at h; split_ifs at h <;> cases h <;> rfl
  | byte | short | int | long | float | double =>
    obtain ⟨n, _, rfl⟩ := Option.map_eq_some_iff.1 h
    rfl
  | char =>
    simp only [readChar?] at h
    split at h
    · split_ifs at h
      cases h
      rfl
    · cases h
  | string =>
    cases h
    rfl

end Value

theorem Shape.kind?_of_mem_primitiveValues {k : Kind} {texts : List String} {v : Value}
    (h : v ∈ primitiveValues k texts) : v.kind? = some k ∨ (v = .null ∧ k = .string) := by
  rcases List.mem_append.1 (mem_of_mem_eraseDups h) with h | h
  · exact Value.kind?_of_mem_boundaries h
  · obtain ⟨text, _, ht⟩ := List.mem_filterMap.1 h
    exact Or.inl (Value.kind?_of_readLiteral ht)

theorem Shape.kind?_of_mem_boxedValues {k : Kind} {texts : List String} {v : Value} (h : v ∈ boxedValues k texts) :
    v.kind? = some k ∨ v = .null := by
  rcases List.mem_cons.1 h with rfl | h
  · exact Or.inr rfl
  · rcases kind?_of_mem_primitiveValues (List.mem_filter.1 h).1 with h | ⟨h, _⟩
    · exact Or.inl h
    · exact Or.inr h

/-! ## Shapes -/

/-- what the shape of a type says about the type -/
theorem Shape.ofType_spec (u : UnitInfo) (ty : TypeName) :
    match ofType u ty with
    | .primitive t k => t = ty ∧ ty.kind? = some k
    | .boxed t k => t = ty ∧ ty.kind? = none ∧ u.hierarchy.unboxed? ty = some k
    | .enumeration t constants => t = ty ∧ ∃ info, u.typeInfo? ty = some info ∧ constants = info.constants
    | .array t _ => t = ty ∧ ty.isArray = true
    | .structured t => t = ty ∧ ty.isArray = false ∧ ty.kind? = none ∧ u.hierarchy.unboxed? ty = none := by
  unfold ofType
  by_cases ha : ty.isArray = true
  · simp [ha]
  · have ha : ty.isArray = false := by simpa using ha
    cases hk : ty.kind? with
    | some k => simp [ha]
    | none =>
      cases hu : u.hierarchy.unboxed? ty with
      | some k => simp [ha]
      | none =>
        cases hi : u.typeInfo? ty with
        | none => simp [ha]
        | some info => cases he : info.isEnum <;> simp [ha, he]

/-! ## Without registered strategies -/

/-- no strategies are registered -/
def Lookup.Bare (lookup : Lookup) : Prop := ∀ key ty, lookup key ty = none

theorem Lookup.Bare.ownTargets {lookup : Lookup} (h : lookup.Bare) : lookup.OwnTargets := by
  intro key ty s hs
  rw [h key ty] at hs
  cases hs

namespace Resolver

section Bare

variable {r : Resolver} {inner : ShapeValues}

theorem findStrategy_bare (hbare : r.lookup.Bare) (ty : TypeName) (chain : List ScopeKey) :
    r.findStrategy? ty chain = none := by
  simp [findStrategy?, hbare _ ty]

/-- **The values of a type are those of its shape**, filtered and sampled. -/
theorem resolveWith_bare (hbare : r.lookup.Bare) (keep : Value → Bool) (ty : TypeName) (ctx : Context) :
    r.resolveWith inner keep ty ctx =
      checkCoverage ty (((inner (Shape.ofType r.unit ty) ctx).1.filter keep).sampledBy r.config.sampling)
        (inner (Shape.ofType r.unit ty) ctx).2 := by
  have hs : r.strategyFor ty ctx = .builtin (Shape.ofType r.unit ty) := by
    simp [strategyFor, findStrategy_bare hbare]
  simp only [resolveWith, strategyValues, hs, union, defaultValues, Strategy.defaultShape?, Strategy.localValues,
    Strategy.typeValues, Strategy.namespaceValues, Sequence.concat, Sequence.ofList, Sequence.append,
    Sequence.append_nil]
  rfl

theorem resolveWith_bare_fst (hbare : r.lookup.Bare) (keep : Value → Bool) (ty : TypeName) (ctx : Context) :
    (r.resolveWith inner keep ty ctx).1 =
      ((inner (Shape.ofType r.unit ty) ctx).1.filter keep).sampledBy r.config.sampling := by
  rw [resolveWith_bare hbare, checkCoverage_fst]

end Bare

/-! ## Constructors -/

variable (r : Resolver) {inner : ShapeValues}

/-- neither registered strategies nor construct hooks -/
structure Plain : Prop where
  lookup : ∀ key ty, r.lookup key ty = none
  hooks : ∀ info ∈ r.unit.types, ∀ c ∈ info.constructors, c.hook = none

/-- the arguments that are made for parameters -/
def argumentsFor (inner : ShapeValues) (parameters : List TypeName) (ctx : Context) : List Argument :=
  parameters.map fun p => .generated p (.ofFactory fun _ => (r.resolveWith inner anyValue p ctx.nested).1)

theorem traverse_argumentWith (h : ∀ shape, Context.Framed (inner shape)) (parameters : List TypeName)
    (ctx : Context) :
    (ctx.traverse (r.argumentWith inner) parameters).1 = r.argumentsFor inner parameters ctx := by
  rw [Context.traverse_fst (r.framed_argumentWith h)]
  exact List.map_congr_left fun p _ => by rw [r.argumentWith_eq h]

/-- a constructor accepts the arguments that are made for its parameters -/
theorem accepts_argumentsFor (h : Hierarchy) (c : Constructor) (ctx : Context) :
    c.accepts h (r.argumentsFor inner c.parameters ctx) = true := by
  simp only [Constructor.accepts, Constructor.arity, argumentsFor, List.length_map, beq_self_eq_true, Bool.true_and,
    List.all_eq_true]
  intro x hx
  obtain ⟨p, _, rfl⟩ : ∃ p ∈ c.parameters,
      x = (p, .generated p (.ofFactory fun _ => (r.resolveWith inner anyValue p ctx.nested).1)) := by
    rw [List.zip_map_right] at hx
    obtain ⟨⟨p, q⟩, hpq, rfl⟩ := List.mem_map.1 hx
    obtain ⟨i, hi, he⟩ := List.getElem_of_mem hpq
    simp only [List.getElem_zip, Prod.mk.injEq] at he
    obtain ⟨rfl, rfl⟩ := he
    exact ⟨_, List.getElem_mem _, rfl⟩
  exact h.isAssignable_of_beq BEq.rfl

/-- if any constructor is chosen for them, it is the one they were made for -/
theorem chosen_argumentsFor {info : TypeInfo} {h : Hierarchy} {c c' : Constructor} {i j : Nat} {ctx : Context}
    (hc : info.constructors[i]? = some c)
    (ha : info.accepting h (r.argumentsFor inner c.parameters ctx) = [(c', j)]) : c' = c ∧ j = i := by
  have hmem : (c, i) ∈ info.accepting h (r.argumentsFor inner c.parameters ctx) :=
    List.mem_filter.2 ⟨List.mem_zipIdx_iff_getElem?.2 hc, r.accepts_argumentsFor h c ctx⟩
  rw [ha, List.mem_singleton, Prod.mk.injEq] at hmem
  exact ⟨hmem.1.symm, hmem.2.symm⟩

theorem mem_constructorValues (h : ∀ shape, Context.Framed (inner shape)) {info : TypeInfo} {c : Constructor} {i : Nat}
    {ctx : Context} {v : Value} (hhook : c.hook = none) (hc : info.constructors[i]? = some c)
    (hv : v ∈ (r.constructorValues inner info c ctx).1.toList) :
    ∃ arguments, v = .object info.ty i arguments ∧
      List.Forall₂ (fun a p => a ∈ (r.resolveWith inner anyValue p ctx.nested).1.toList) arguments c.parameters := by
  have hagain : ∀ d ∈ (r.argumentsFor inner c.parameters ctx).map Argument.dimension, d.again () = d.first := by
    intro d hd
    simp only [argumentsFor, List.map_map, List.mem_map] at hd
    obtain ⟨p, _, rfl⟩ := hd
    rfl
  simp only [constructorValues, r.traverse_argumentWith h] at hv
  split_ifs at hv
  · simp at hv
  · split at hv
    · rename_i inst hi
      obtain ⟨c', j, hacc, hi⟩ := instantiate_ok hi
      obtain ⟨rfl, rfl⟩ := r.chosen_argumentsFor hc hacc
      simp only [instances_eq hi, Sequence.toList_filterMap, List.mem_filterMap, Constructor.build, hhook,
        Except.toOption, Option.some.injEq] at hv
      obtain ⟨arguments, hargs, rfl⟩ := hv
      refine ⟨arguments, rfl, ?_⟩
      have hall := Sequence.mem_product hagain hargs
      simp only [argumentsFor, List.map_map, List.forall₂_map_right_iff] at hall
      exact hall
    · simp at hv

/-! ## What one level yields -/

/-- the values of a shape, made from the values of the types that it needs -/
inductive Yields (inner : ShapeValues) : Shape → Context → Value → Prop
  | primitive {ty : TypeName} {k : Kind} {ctx : Context} {v : Value}
      (value : v ∈ Shape.primitiveValues k (ctx.literalTexts ty)) : Yields inner (.primitive ty k) ctx v
  | boxed {ty : TypeName} {k : Kind} {ctx : Context} {v : Value}
      (value : v ∈ Shape.boxedValues k (ctx.literalTexts (.ofKind k))) : Yields inner (.boxed ty k) ctx v
  | constant {ty : TypeName} {constants : List String} {ctx : Context} {constant : String}
      (declared : constant ∈ constants) : Yields inner (.enumeration ty constants) ctx (.enum ty constant)
  | noArray {ty : TypeName} {maxLength : Option Nat} {ctx : Context} : Yields inner (.array ty maxLength) ctx .null
  | array {ty component : TypeName} {maxLength : Option Nat} {ctx : Context} {elements : List Value}
      (array : ty.component? = some component)
      (values : ∀ e ∈ elements, e ∈ (r.resolveWith inner anyValue component ctx.nested).1.toList) :
      Yields inner (.array ty maxLength) ctx (.array component elements)
  | noObject {ty : TypeName} {ctx : Context} : Yields inner (.structured ty) ctx .null
  | object {ty d : TypeName} {ctx opened : Context} {info : TypeInfo} {c : Constructor} {i : Nat}
      {arguments : List Value} (free : ctx.guard.inProgress ty = false) (dataType : d ∈ r.dataTypes ty ctx)
      (opens : Opens ty ctx d opened) (known : r.unit.typeInfo? d = some info)
      (instantiable : info.isInstantiable = true) (constructor : info.constructors[i]? = some c)
      (values : List.Forall₂ (fun a p => a ∈ (r.resolveWith inner anyValue p opened.nested).1.toList) arguments
        c.parameters) : Yields inner (.structured ty) ctx (.object info.ty i arguments)

variable {r}

theorem mem_instantiations (hplain : r.Plain) (h : Regular inner) {d : TypeName} {ctx : Context} {v : Value}
    (hv : v ∈ (r.instantiations inner d ctx).1.toList) :
    ∃ info c i arguments, r.unit.typeInfo? d = some info ∧ info.isInstantiable = true ∧
      info.constructors[i]? = some c ∧ v = .object info.ty i arguments ∧
      List.Forall₂ (fun a p => a ∈ (r.resolveWith inner anyValue p ctx.nested).1.toList) arguments c.parameters := by
  by_cases hk : ∃ info, r.unit.typeInfo? d = some info ∧ info.isInstantiable = true
  · obtain ⟨info, hinfo, hi⟩ := hk
    have hcomplete : ∀ s ∈ info.constructors.map fun c => (r.constructorValues inner info c ctx).1, s.Complete := by
      intro s hs
      obtain ⟨c, _, rfl⟩ := List.mem_map.1 hs
      exact r.complete_constructorValues h info c ctx
    rw [r.instantiations_fst h.framed hinfo hi, Sequence.toList_concat hcomplete, List.flatMap_map,
      List.mem_flatMap] at hv
    obtain ⟨c, hc, hv⟩ := hv
    obtain ⟨i, hi'⟩ := List.mem_iff_getElem?.1 hc
    have hhook := hplain.hooks info (mem_types_of_typeInfo hinfo).1 c hc
    obtain ⟨arguments, rfl, hargs⟩ := r.mem_constructorValues h.framed hhook hi' hv
    exact ⟨info, c, i, arguments, hinfo, hi, hi', rfl, hargs⟩
  · rw [r.instantiations_unknown fun info hinfo => by simpa using fun hi => hk ⟨info, hinfo, hi⟩] at hv
    simp at hv

theorem yields_of_mem_dataType (hplain : r.Plain) (h : Regular inner) {ty d : TypeName} {ctx : Context} {v : Value}
    (hfree : ctx.guard.inProgress ty = false) (hd : d ∈ r.dataTypes ty ctx)
    (hv : v ∈ (r.dataTypeValues inner ty d (ctx.marked ty)).1.toList) : r.Yields inner (.structured ty) ctx v := by
  unfold dataTypeValues at hv
  split_ifs at hv with hsame
  · obtain ⟨info, c, i, arguments, hinfo, hi, hc, rfl, hargs⟩ := mem_instantiations hplain h hv
    exact .object hfree hd (.self hsame) hinfo hi hc hargs
  · have hnone := findStrategy_bare hplain.lookup d (ctx.marked ty).chain
    cases hp : (ctx.marked ty).guard.inProgress d with
    | true =>
      rw [r.subtypeValues_refused hnone hp] at hv
      simp at hv
    | false =>
      rw [r.subtypeValues_expanded h.framed hnone hp] at hv
      obtain ⟨info, c, i, arguments, hinfo, hi, hc, rfl, hargs⟩ := mem_instantiations hplain h hv
      exact .object hfree hd (.subtype (by simpa using hsame) hp) hinfo hi hc hargs

theorem yields_of_mem_array {ty : TypeName} {maxLength : Option Nat} {ctx : Context} {v : Value} (h : Regular inner)
    (hv : v ∈ (r.arrayValues inner ty maxLength ctx).toList) : r.Yields inner (.array ty maxLength) ctx v := by
  simp only [arrayValues] at hv
  split at hv
  · simp at hv
  · rename_i component hcomponent
    rw [Sequence.toList_map] at hv
    obtain ⟨a, ha, rfl⟩ := List.mem_map.1 hv
    cases a with
    | none => exact .noArray
    | some elements =>
      exact .array hcomponent (Sequence.mem_arrays (r.complete_resolveWith h anyValue component ctx.nested) ha)

theorem yields_of_mem_structured (hplain : r.Plain) (h : Regular inner) {ty : TypeName} {ctx : Context} {v : Value}
    (hv : v ∈ (r.structuredValues inner ty ctx).1.toList) : r.Yields inner (.structured ty) ctx v := by
  cases hp : ctx.guard.inProgress ty with
  | true =>
    rw [r.structuredValues_refused hp] at hv
    rw [List.mem_singleton.1 hv]
    exact .noObject
  | false =>
    have hlist := Sequence.toList_concat (r.complete_dataTypes h ty ctx (ctx.marked ty))
    rw [r.structuredValues_expanded h.framed hp] at hv
    have hv : v = .null ∨ v ∈ (Sequence.concat ((r.dataTypes ty ctx).map fun d =>
        (r.dataTypeValues inner ty d (ctx.marked ty)).1)).toList := by
      generalize Sequence.concat _ = values at hv ⊢
      cases values with
      | nil => simp [orNull] at hv
      | cut => simpa [orNull] using hv
      | cons a t => simpa [orNull] using hv
    rcases hv with rfl | hv
    · exact .noObject
    · rw [hlist, List.flatMap_map, List.mem_flatMap] at hv
      obtain ⟨d, hd, hv⟩ := hv
      exact yields_of_mem_dataType hplain h hp hd hv

/-- **One level yields nothing else.** -/
theorem yields_of_mem (hplain : r.Plain) (h : Regular inner) {shape : Shape} {ctx : Context} {v : Value}
    (hv : v ∈ (r.shapeStep inner shape ctx).1.toList) : r.Yields inner shape ctx v := by
  cases shape with
  | primitive ty k => exact .primitive (by simpa [shapeStep] using hv)
  | boxed ty k => exact .boxed (by simpa [shapeStep] using hv)
  | enumeration ty constants =>
    simp only [shapeStep, Sequence.toList_ofList, List.mem_map] at hv
    obtain ⟨constant, hc, rfl⟩ := hv
    exact .constant hc
  | array ty maxLength => exact yields_of_mem_array h hv
  | structured ty => exact yields_of_mem_structured hplain h hv

/-! ## All that is generated -/

theorem mem_resolveWith (hplain : r.Plain) {keep : Value → Bool} {ty : TypeName} {ctx : Context} {v : Value}
    (hv : v ∈ (r.resolveWith inner keep ty ctx).1.toList) : v ∈ (inner (Shape.ofType r.unit ty) ctx).1.toList := by
  rw [resolveWith_bare_fst hplain.lookup] at hv
  have hv := (Sequence.sublist_sampledBy _ _).subset hv
  rw [Sequence.toList_filter] at hv
  exact (List.mem_filter.1 hv).1

theorem ownTargets_plain (hplain : r.Plain) : r.lookup.OwnTargets := Lookup.Bare.ownTargets hplain.lookup

/-- **Induction over generated values.** What passes from the values that a level is made from to the values that it
yields holds of every value that a plain resolver generates. -/
theorem generated_induction (hplain : r.Plain) {motive : TypeName → Context → Value → Prop}
    (step : ∀ inner ty ctx v,
      (∀ t c w, w ∈ (r.resolveWith inner anyValue t c).1.toList → motive t c w) →
      r.Yields inner (Shape.ofType r.unit ty) ctx v → motive ty ctx v)
    {keep : Value → Bool} {ty : TypeName} {ctx : Context} {v : Value}
    (hv : v ∈ (r.resolveWhere keep ty ctx).1.toList) : motive ty ctx v := by
  have hlevels : ∀ n keep ty ctx v, v ∈ (r.resolveWith (r.above nothing n) keep ty ctx).1.toList →
      motive ty ctx v := by
    intro n
    induction n with
    | zero =>
      intro keep ty ctx v hv
      have hv := mem_resolveWith hplain hv
      simp [above, nothing] at hv
    | succ n ih =>
      intro keep ty ctx v hv
      have hy := yields_of_mem hplain (r.regular_above regular_nothing n) (mem_resolveWith hplain hv)
      exact step _ ty ctx v (fun t c w hw => ih anyValue t c w hw) hy
  rw [← r.resolveWith_above (ownTargets_plain hplain) nothing keep ty ctx] at hv
  exact hlevels _ keep ty ctx v hv

end Resolver

end TestInputs
