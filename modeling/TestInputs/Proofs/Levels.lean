/-
What one level of exploration asks of the next. The default values of a shape are made from the values of other types,
each resolved in a context of its own: the component of an array, the parameters of the constructors of a data type, and
the subtypes that have a registered strategy. `Needs` lists exactly these. Two ways to continue the exploration that
agree on what is needed give the same values, and the same diagnostics.

Results:
- `shapeStep_congr`: a level depends on the next one only through what it needs;
- `regular_shapeStep`: a level above one that gives nothing up gives nothing up.
-/
import TestInputs.Proofs.Composition
import TestInputs.Proofs.Frame

namespace TestInputs

variable {α β : Type}

namespace Context

theorem nested_congr {c d : Context} (h : c.fork = d.fork) : c.nested = d.nested := by
  rw [← nested_fork c, h, nested_fork]

theorem expand_congr {ctx : Context} {ty : TypeName} {f g : Context → α × Context}
    (h : f (ctx.marked ty) = g (ctx.marked ty)) : ctx.expand ty f = ctx.expand ty g := by
  cases hp : ctx.guard.inProgress ty with
  | true => rw [expand_of_inProgress hp, expand_of_inProgress hp]
  | false =>
    have hf : f { ctx with guard := ⟨ty :: ctx.guard.types⟩ } = g { ctx with guard := ⟨ty :: ctx.guard.types⟩ } := h
    simp [expand, Guard.enter?, hp, hf]

/-- actions that agree wherever the diagnostics alone differ agree one after the other -/
theorem traverse_congr {f g : α → Context → β × Context} (hg : ∀ a, Framed (g a)) {as : List α} {ctx : Context}
    (h : ∀ a ∈ as, ∀ c : Context, c.fork = ctx.fork → f a c = g a c) : traverse f as ctx = traverse g as ctx := by
  induction as generalizing ctx with
  | nil => rfl
  | cons a as ih =>
    have hrest : traverse f as (g a ctx).2 = traverse g as (g a ctx).2 :=
      ih fun b hb c hc => h b (List.mem_cons_of_mem _ hb) c (hc.trans ((hg a).snd_fork ctx))
    simp only [traverse, h a List.mem_cons_self ctx rfl, hrest]

end Context

/-- the constructors that accept arguments, counted -/
theorem TypeInfo.length_accepting (info : TypeInfo) (h : Hierarchy) (arguments : List Argument) :
    (info.accepting h arguments).length = info.constructors.countP fun c => c.accepts h arguments := by
  have hmap : info.constructors = info.constructors.zipIdx.map Prod.fst := (List.zipIdx_map_fst 0 _).symm
  rw [accepting, ← List.countP_eq_length_filter]
  conv_rhs => rw [hmap, List.countP_map]
  rfl

namespace Resolver

open Context (Framed)

variable (r : Resolver)

/-! ## What is needed -/

/-- the marks under which the constructors of a data type of `ty` are used: one on `ty` and, for another data type, one
on that -/
inductive Opens (ty : TypeName) (ctx : Context) : TypeName → Context → Prop
  | self {d : TypeName} (same : (d == ty) = true) : Opens ty ctx d (ctx.marked ty)
  | subtype {d : TypeName} (other : (d == ty) = false) (free : (ctx.marked ty).guard.inProgress d = false) :
      Opens ty ctx d ((ctx.marked ty).marked d)

/-- the types whose values a shape is made from, with the contexts in which they are resolved -/
inductive Needs : Shape → Context → TypeName → Context → Prop
  | element {ty component : TypeName} {maxLength : Option Nat} {ctx : Context}
      (array : ty.component? = some component) : Needs (.array ty maxLength) ctx component ctx.nested
  | argument {ty d p : TypeName} {ctx opened : Context} {info : TypeInfo} {c : Constructor}
      (free : ctx.guard.inProgress ty = false) (dataType : d ∈ r.dataTypes ty ctx) (opens : Opens ty ctx d opened)
      (known : r.unit.typeInfo? d = some info) (constructor : c ∈ info.constructors) (parameter : p ∈ c.parameters) :
      Needs (.structured ty) ctx p opened.nested
  | subtype {ty d : TypeName} {ctx opened : Context} (free : ctx.guard.inProgress ty = false)
      (dataType : d ∈ r.dataTypes ty ctx) (opens : opened.fork = (ctx.marked ty).fork) :
      Needs (.structured ty) ctx d opened

/-- two ways to continue agree on the values of a type -/
def AgreeOn (inner inner' : ShapeValues) (ty : TypeName) (ctx : Context) : Prop :=
  ∀ shape, (r.strategyFor ty ctx).defaultShape? r.unit = some shape → inner shape ctx = inner' shape ctx

/-! ## A level depends on what it needs -/

variable {inner inner' : ShapeValues}

theorem union_congr {s : Strategy} {ctx : Context}
    (h : ∀ shape, s.defaultShape? r.unit = some shape → inner shape ctx = inner' shape ctx) :
    r.union inner s ctx = r.union inner' s ctx := by
  have hd : r.defaultValues inner s ctx = r.defaultValues inner' s ctx := by
    unfold defaultValues
    split
    · rename_i shape hs
      exact h shape hs
    · rfl
  simp only [union, hd]

theorem strategyValues_congr {s : Strategy} {ctx : Context}
    (h : ∀ shape, s.defaultShape? r.unit = some shape → inner shape ctx = inner' shape ctx) (keep : Value → Bool) :
    r.strategyValues inner s keep ctx = r.strategyValues inner' s keep ctx := by
  simp only [strategyValues, r.union_congr h]

theorem resolveWith_congr {ty : TypeName} {ctx : Context} (h : r.AgreeOn inner inner' ty ctx) (keep : Value → Bool) :
    r.resolveWith inner keep ty ctx = r.resolveWith inner' keep ty ctx := by
  simp only [resolveWith, r.strategyValues_congr h keep]

theorem argumentWith_congr (hf : ∀ shape, Framed (inner' shape)) {ty : TypeName} {ctx : Context}
    (h : r.AgreeOn inner inner' ty ctx.nested) : r.argumentWith inner ty ctx = r.argumentWith inner' ty ctx := by
  have hafter := (r.framed_resolveWith hf anyValue ty).snd_fork ctx.nested
  simp only [argumentWith, r.resolveWith_congr h, hafter, Context.fork_nested]

theorem constructorValues_congr (hf : ∀ shape, Framed (inner' shape)) {info : TypeInfo} {c : Constructor}
    {ctx : Context} (h : ∀ p ∈ c.parameters, r.AgreeOn inner inner' p ctx.nested) :
    r.constructorValues inner info c ctx = r.constructorValues inner' info c ctx := by
  have hargs :
      ctx.traverse (r.argumentWith inner) c.parameters = ctx.traverse (r.argumentWith inner') c.parameters := by
    refine Context.traverse_congr (r.framed_argumentWith hf) fun p hp d hd => r.argumentWith_congr hf ?_
    rw [Context.nested_congr hd]
    exact h p hp
  simp only [constructorValues, hargs]

theorem instantiations_congr (hf : ∀ shape, Framed (inner' shape)) {ty : TypeName} {ctx : Context}
    (h : ∀ info c p, r.unit.typeInfo? ty = some info → c ∈ info.constructors → p ∈ c.parameters →
      r.AgreeOn inner inner' p ctx.nested) :
    r.instantiations inner ty ctx = r.instantiations inner' ty ctx := by
  unfold instantiations
  split
  · rename_i info hinfo
    have hparts : ctx.traverse (r.constructorValues inner info) info.constructors =
        ctx.traverse (r.constructorValues inner' info) info.constructors := by
      refine Context.traverse_congr (r.framed_constructorValues hf info) fun c hc d hd => ?_
      refine r.constructorValues_congr hf fun p hp => ?_
      rw [Context.nested_congr hd]
      exact h info c p hinfo hc hp
    simp only [hparts]
  · rfl

theorem strategyFor_of_findStrategy {ty : TypeName} {ctx : Context} {key : ScopeKey} {s : Strategy}
    (h : r.findStrategy? ty ctx.chain = some (key, s)) : r.strategyFor ty ctx = s := by
  simp [strategyFor, h]

theorem dataTypeValues_congr (hf : ∀ shape, Framed (inner' shape)) {ty d : TypeName} {ctx c : Context}
    (hc : c.fork = (ctx.marked ty).fork) (hfree : ctx.guard.inProgress ty = false) (hd : d ∈ r.dataTypes ty ctx)
    (h : ∀ t c, r.Needs (.structured ty) ctx t c → r.AgreeOn inner inner' t c) :
    r.dataTypeValues inner ty d c = r.dataTypeValues inner' ty d c := by
  have hopen : ∀ opened : Context, Opens ty ctx d opened → ∀ c' : Context, c'.fork = opened.fork →
      r.instantiations inner d c' = r.instantiations inner' d c' := by
    intro opened ho c' hc'
    refine r.instantiations_congr hf fun info k p hinfo hk hp => ?_
    rw [Context.nested_congr hc']
    exact h p _ (.argument hfree hd ho hinfo hk hp)
  unfold dataTypeValues
  split_ifs with hsame
  · exact hopen _ (.self hsame) c hc
  · cases hs : r.findStrategy? d c.chain with
    | some found =>
      rw [r.subtypeValues_registered hs, r.subtypeValues_registered hs]
      refine r.strategyValues_congr (fun shape hshape => h d c (.subtype hfree hd hc) shape ?_) nonNull
      rw [r.strategyFor_of_findStrategy hs]
      exact hshape
    | none =>
      have hguard : c.fork.guard = (ctx.marked ty).fork.guard := congrArg Context.guard hc
      cases hp : c.guard.inProgress d with
      | true => rw [r.subtypeValues_refused hs hp, r.subtypeValues_refused hs hp]
      | false =>
        have ho : Opens ty ctx d ((ctx.marked ty).marked d) := .subtype (by simpa using hsame) (hguard ▸ hp)
        have hm : (c.marked d).fork = ((ctx.marked ty).marked d).fork := by
          rw [Context.fork_marked, Context.fork_marked, hc]
        simp only [subtypeValues, hs, Context.expand_congr (hopen _ ho (c.marked d) hm)]

/-- **A level depends on the next one only through what it needs.** -/
theorem shapeStep_congr (hf : ∀ shape, Framed (inner' shape)) {shape : Shape} {ctx : Context}
    (h : ∀ t c, r.Needs shape ctx t c → r.AgreeOn inner inner' t c) :
    r.shapeStep inner shape ctx = r.shapeStep inner' shape ctx := by
  cases shape with
  | primitive ty k => rfl
  | boxed ty k => rfl
  | enumeration ty constants => rfl
  | array ty maxLength =>
    simp only [shapeStep, arrayValues]
    split
    · rfl
    · rename_i component hcomponent
      rw [r.resolveWith_congr (h component ctx.nested (.element hcomponent))]
  | structured ty =>
    cases hp : ctx.guard.inProgress ty with
    | true => simp only [shapeStep, r.structuredValues_refused hp]
    | false =>
      have hparts : (ctx.marked ty).traverse (r.dataTypeValues inner ty) (r.dataTypes ty ctx) =
          (ctx.marked ty).traverse (r.dataTypeValues inner' ty) (r.dataTypes ty ctx) :=
        Context.traverse_congr (r.framed_dataTypeValues hf ty) fun d hd c hc =>
          r.dataTypeValues_congr hf hc hp hd h
      simp only [shapeStep, structuredValues, Context.expand_congr hparts]

/-! ## Levels that give nothing up -/

/-- a way to continue that only appends diagnostics and gives nothing up -/
structure Regular (inner : ShapeValues) : Prop where
  framed : ∀ shape, Framed (inner shape)
  complete : ∀ shape ctx, (inner shape ctx).1.Complete

theorem checkCoverage_fst (ty : TypeName) (values : Sequence Value) (ctx : Context) :
    (checkCoverage ty values ctx).1 = values := by
  cases values <;> rfl

theorem complete_strategyValues (h : Regular inner) (s : Strategy) (keep : Value → Bool) (ctx : Context) :
    (r.strategyValues inner s keep ctx).1.Complete := by
  have hd : (r.defaultValues inner s ctx).1.Complete := by
    unfold defaultValues
    split
    · exact h.complete _ _
    · trivial
  simp [strategyValues, union, Sequence.concat, hd]

theorem complete_resolveWith (h : Regular inner) (keep : Value → Bool) (ty : TypeName) (ctx : Context) :
    (r.resolveWith inner keep ty ctx).1.Complete := by
  simp only [resolveWith, checkCoverage_fst]
  exact r.complete_strategyValues h _ keep ctx

/-- the arguments made for parameters restart as they started -/
theorem steady_arguments (h : Regular inner) (parameters : List TypeName) (ctx : Context) :
    ∀ d ∈ (ctx.traverse (r.argumentWith inner) parameters).1.map Argument.dimension, d.Steady := by
  intro d hd
  rw [Context.traverse_fst (r.framed_argumentWith h.framed)] at hd
  simp only [List.map_map, List.mem_map] at hd
  obtain ⟨p, _, rfl⟩ := hd
  simp only [Function.comp_apply, r.argumentWith_eq h.framed, Argument.dimension]
  exact ⟨r.complete_resolveWith h anyValue p ctx.nested, rfl⟩

theorem instances_eq {info : TypeInfo} {c : Constructor} {index : Nat} {arguments : List Argument} {i : Instantiation}
    (hi : info.instancesOf c index arguments = .ok i) :
    i.instances = (Sequence.product (arguments.map Argument.dimension)).filterMap fun tuple =>
      (c.build info.ty index tuple).toOption := by
  simp only [TypeInfo.instancesOf] at hi
  split at hi
  · cases hi
  · rename_i hp
    cases hi
    rw [hp]
    rfl
  · split at hi
    · cases hi
    · cases hi
      rfl

theorem instantiate_ok {info : TypeInfo} {h : Hierarchy} {arguments : List Argument} {i : Instantiation}
    (hi : info.instantiate h arguments = .ok i) :
    ∃ c index, info.accepting h arguments = [(c, index)] ∧ info.instancesOf c index arguments = .ok i := by
  unfold TypeInfo.instantiate at hi
  split at hi
  · cases hi
  · rename_i c index hc
    exact ⟨c, index, hc, hi⟩
  · cases hi

theorem complete_constructorValues (h : Regular inner) (info : TypeInfo) (c : Constructor) (ctx : Context) :
    (r.constructorValues inner info c ctx).1.Complete := by
  simp only [constructorValues]
  split_ifs
  · trivial
  · split
    · rename_i i hi
      obtain ⟨_, _, _, hi⟩ := instantiate_ok hi
      rw [instances_eq hi, Sequence.complete_filterMap]
      exact Sequence.complete_product (r.steady_arguments h c.parameters ctx)
    · trivial

theorem complete_instantiations (h : Regular inner) (ty : TypeName) (ctx : Context) :
    (r.instantiations inner ty ctx).1.Complete := by
  by_cases hk : ∃ info, r.unit.typeInfo? ty = some info ∧ info.isInstantiable = true
  · obtain ⟨info, hinfo, hi⟩ := hk
    rw [r.instantiations_fst h.framed hinfo hi]
    refine Sequence.complete_concat fun s hs => ?_
    obtain ⟨c, _, rfl⟩ := List.mem_map.1 hs
    exact r.complete_constructorValues h info c ctx
  · rw [r.instantiations_unknown fun info hinfo => by simpa using fun hi => hk ⟨info, hinfo, hi⟩]
    trivial

theorem complete_dataTypeValues (h : Regular inner) (ty d : TypeName) (ctx : Context) :
    (r.dataTypeValues inner ty d ctx).1.Complete := by
  unfold dataTypeValues
  split_ifs
  · exact r.complete_instantiations h d ctx
  · cases hs : r.findStrategy? d ctx.chain with
    | some found =>
      rw [r.subtypeValues_registered hs]
      exact r.complete_strategyValues h found.2 nonNull ctx
    | none =>
      cases hp : ctx.guard.inProgress d with
      | true => rw [r.subtypeValues_refused hs hp]; trivial
      | false =>
        rw [r.subtypeValues_expanded h.framed hs hp]
        exact r.complete_instantiations h d (ctx.marked d)

theorem complete_dataTypes (h : Regular inner) (ty : TypeName) (ctx c : Context) :
    ∀ s ∈ (r.dataTypes ty ctx).map fun d => (r.dataTypeValues inner ty d c).1, s.Complete := by
  intro s hs
  obtain ⟨d, _, rfl⟩ := List.mem_map.1 hs
  exact r.complete_dataTypeValues h ty d c

theorem complete_shapeStep (h : Regular inner) (shape : Shape) (ctx : Context) :
    (r.shapeStep inner shape ctx).1.Complete := by
  cases shape with
  | primitive ty k => exact Sequence.complete_ofList _
  | boxed ty k => exact Sequence.complete_ofList _
  | enumeration ty constants => exact Sequence.complete_ofList _
  | array ty maxLength =>
    simp only [shapeStep, arrayValues]
    split
    · trivial
    · rw [Sequence.complete_map]
      exact Sequence.complete_arrays (r.complete_resolveWith h anyValue _ _) _
  | structured ty =>
    cases hp : ctx.guard.inProgress ty with
    | true => simp only [shapeStep, r.structuredValues_refused hp]; trivial
    | false =>
      have hc := Sequence.complete_concat (r.complete_dataTypes h ty ctx (ctx.marked ty))
      simp only [shapeStep, r.structuredValues_expanded h.framed hp]
      generalize Sequence.concat _ = values at hc ⊢
      cases values with
      | nil => trivial
      | cut => exact hc.elim
      | cons a t => exact hc

/-- **Nothing is given up on the way.** A level above a regular one is regular. -/
theorem regular_shapeStep (h : Regular inner) : Regular (r.shapeStep inner) :=
  ⟨r.framed_shapeStep h.framed, r.complete_shapeStep h⟩

/-- several levels of exploration above a given way to continue -/
def above (inner : ShapeValues) : Nat → ShapeValues
  | 0 => inner
  | n + 1 => r.shapeStep (above inner n)

theorem regular_above (h : Regular inner) (n : Nat) : Regular (r.above inner n) := by
  induction n with
  | zero => exact h
  | succ n ih => exact r.regular_shapeStep ih

theorem above_add (inner : ShapeValues) (m n : Nat) : r.above (r.above inner m) n = r.above inner (m + n) := by
  induction n with
  | zero => rfl
  | succ n ih => exact congrArg r.shapeStep ih

/-- the way to continue that finds nothing -/
def nothing : ShapeValues := fun _ ctx => (.nil, ctx)

theorem regular_nothing : Regular nothing :=
  ⟨fun _ => Context.framed_pure fun _ => rfl, fun _ _ => trivial⟩

end Resolver

end TestInputs
