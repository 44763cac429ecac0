/-
What resolution does to its context: it appends diagnostics, and that is all. It does not read the diagnostics that are
already there either, so an action on a context is determined by what it does from an empty list of diagnostics.
`Framed` says both at once. Every step of the resolver is framed when the level below it is; the one place where a
context is changed on the way, the mark of an expansion, is undone at its end because a marked type is never marked
twice.

Results:
- `framed_shapeValues`, `framed_resolve`, `framed_resolveWhere`: the default values of every shape, and the values of
  every type, are framed, whatever strategies are registered;
- `framed_argument`, `framed_structuralCandidates`: so are the arguments of constructors and the values of a type as a
  structured one;
- `argumentWith_eq`: a constructor argument that is resolved again later has the values that it had at first;
- `factory_resolve`, `factoryWhere_resolveWhere`: the same for the sequences of a factory.
-/
import Mathlib.Tactic.Common
import TestInputs.Resolution

namespace TestInputs

variable {α β : Type}

namespace Context

/-! ## Framed actions -/

@[simp] theorem fork_fork (ctx : Context) : ctx.fork.fork = ctx.fork := rfl

@[simp] theorem fork_absorb (ctx c : Context) : (ctx.absorb c).fork = ctx.fork := rfl

@[simp] theorem fork_nested (ctx : Context) : ctx.nested.fork = ctx.nested := rfl

@[simp] theorem nested_fork (ctx : Context) : ctx.fork.nested = ctx.nested := rfl

@[simp] theorem absorb_fork (ctx c : Context) : ctx.absorb c.fork = ctx := by
  simp [absorb, fork]

theorem absorb_absorb (ctx c d : Context) : (ctx.absorb c).absorb d = ctx.absorb (c.absorb d) := by
  simp [absorb]

theorem absorb_report (ctx c : Context) (d : Diagnostic) : ctx.absorb (c.report d) = (ctx.absorb c).report d := by
  simp [absorb, report]

/-- the action reads everything but the diagnostics, and writes nothing but further diagnostics -/
def Framed (f : Context → α × Context) : Prop :=
  ∀ ctx, f ctx = ((f ctx.fork).1, ctx.absorb (f ctx.fork).2)

theorem Framed.fst {f : Context → α × Context} (h : Framed f) (ctx : Context) : (f ctx.fork).1 = (f ctx).1 := by
  rw [h ctx]

theorem Framed.snd_fork {f : Context → α × Context} (h : Framed f) (ctx : Context) : (f ctx).2.fork = ctx.fork := by
  rw [h ctx]
  rfl

theorem Framed.fst_congr {f : Context → α × Context} (h : Framed f) {c d : Context} (hcd : c.fork = d.fork) :
    (f c).1 = (f d).1 := by
  rw [← h.fst c, hcd, h.fst d]

theorem framed_pure {g : Context → α} (h : ∀ ctx : Context, g ctx.fork = g ctx) : Framed fun ctx => (g ctx, ctx) := by
  intro ctx
  simp [h]

theorem framed_report (a : α) (d : Diagnostic) : Framed fun ctx => (a, ctx.report d) := by
  intro ctx
  simp [absorb_report]

/-- an action that depends on the context in other ways than through its diagnostics -/
theorem framed_read {f : Context → Context → α × Context} (hf : ∀ c, Framed (f c))
    (hr : ∀ c : Context, f c.fork = f c) : Framed fun ctx => f ctx ctx := by
  intro ctx
  simp only [hr]
  exact hf ctx ctx

theorem Framed.bind {f : Context → α × Context} {g : α → Context → β × Context} (hf : Framed f)
    (hg : ∀ a, Framed (g a)) : Framed fun ctx => g (f ctx).1 (f ctx).2 := by
  intro ctx
  have hsnd : (f ctx.fork).2.fork = ctx.fork := hf.snd_fork ctx.fork
  simp only [hf ctx]
  rw [hg _ (ctx.absorb _), hg _ (f ctx.fork).2, fork_absorb, hsnd, absorb_absorb]

theorem Framed.map {f : Context → α × Context} (hf : Framed f) (g : α → β) :
    Framed fun ctx => (g (f ctx).1, (f ctx).2) :=
  hf.bind (g := fun a ctx => (g a, ctx)) fun _ => framed_pure fun _ => rfl

theorem framed_traverse {f : α → Context → β × Context} (hf : ∀ a, Framed (f a)) (as : List α) :
    Framed (traverse f as) := by
  induction as with
  | nil => exact framed_pure (g := fun _ => []) fun _ => rfl
  | cons a as ih =>
    exact (hf a).bind (g := fun b ctx => (b :: (traverse f as ctx).1, (traverse f as ctx).2)) fun b => ih.map (b :: ·)

/-- framed actions do not notice each other -/
theorem traverse_fst {f : α → Context → β × Context} (hf : ∀ a, Framed (f a)) (as : List α) (ctx : Context) :
    (traverse f as ctx).1 = as.map fun a => (f a ctx).1 := by
  induction as generalizing ctx with
  | nil => rfl
  | cons a as ih =>
    have hrest : (traverse f as (f a ctx).2).1 = as.map fun a => (f a ctx).1 := by
      rw [ih]
      exact List.map_congr_left fun b _ => (hf b).fst_congr ((hf a).snd_fork ctx)
    simp [traverse, hrest]

end Context

/-! ## Marks -/

namespace Guard

theorem exit_enter {g marked : Guard} {ty : TypeName} (h : g.enter? ty = some marked) : marked.exit ty = g := by
  unfold enter? at h
  split_ifs at h with hp
  cases h
  have hkeep : ∀ t ∈ g.types, (!(t == ty)) = true := by
    intro t ht
    by_contra hc
    exact hp (List.any_eq_true.2 ⟨t, ht, by simpa using hc⟩)
  simp only [exit, List.filter_cons, beq_self_eq_true, Bool.not_true, Bool.false_eq_true, if_false]
  rw [List.filter_eq_self.2 hkeep]

end Guard

namespace Context

/-- the context with a mark on a type -/
def marked (ctx : Context) (ty : TypeName) : Context :=
  { ctx with guard := ⟨ty :: ctx.guard.types⟩ }

theorem expand_of_inProgress {ctx : Context} {ty : TypeName} (h : ctx.guard.inProgress ty = true)
    (body : Context → α × Context) : ctx.expand ty body = (none, ctx) := by
  simp [expand, Guard.enter?, h]

@[simp] theorem fork_marked (ctx : Context) (ty : TypeName) : (ctx.marked ty).fork = ctx.fork.marked ty := rfl

/-- the mark is gone when the expansion is done -/
theorem expand_of_not_inProgress {ctx : Context} {ty : TypeName} (h : ctx.guard.inProgress ty = false)
    {body : Context → α × Context} (hb : Framed body) :
    ctx.expand ty body = (some (body (ctx.marked ty)).1, ctx.absorb (body (ctx.fork.marked ty)).2) := by
  have hg : ctx.guard.enter? ty = some ⟨ty :: ctx.guard.types⟩ := by simp [Guard.enter?, h]
  have hm : ({ ctx with guard := ⟨ty :: ctx.guard.types⟩ } : Context) = ctx.marked ty := rfl
  have hx : (ctx.marked ty).guard.exit ty = ctx.guard := Guard.exit_enter hg
  simp only [expand, hg, hm, hb (ctx.marked ty), fork_marked]
  simp only [absorb, hx]
  rfl

theorem Framed.expand {body : Context → α × Context} (hb : Framed body) (ty : TypeName) :
    Framed fun ctx => ctx.expand ty body := by
  intro ctx
  cases h : ctx.guard.inProgress ty with
  | true =>
    have hf : ctx.fork.guard.inProgress ty = true := h
    simp [expand_of_inProgress h, expand_of_inProgress hf]
  | false =>
    have hf : ctx.fork.guard.inProgress ty = false := h
    simp only [expand_of_not_inProgress h hb, expand_of_not_inProgress hf hb, fork_fork, Prod.mk.injEq,
      Option.some.injEq]
    refine ⟨hb.fst_congr rfl, ?_⟩
    rw [← absorb_absorb, absorb_fork]

end Context

/-! ## The steps of the resolver -/

namespace Resolver

open Context (Framed framed_pure framed_report framed_read framed_traverse)

variable (r : Resolver) {inner : ShapeValues}

theorem framed_defaultValues (h : ∀ shape, Framed (inner shape)) (s : Strategy) : Framed (r.defaultValues inner s) := by
  unfold defaultValues
  cases s.defaultShape? r.unit with
  | none => exact framed_pure fun _ => rfl
  | some shape => exact h shape

theorem framed_union (h : ∀ shape, Framed (inner shape)) (s : Strategy) : Framed (r.union inner s) :=
  (r.framed_defaultValues h s).map fun defaults =>
    Sequence.concat [.ofList s.localValues, .ofList s.typeValues, .ofList s.namespaceValues, defaults]

theorem framed_strategyValues (h : ∀ shape, Framed (inner shape)) (s : Strategy) (keep : Value → Bool) :
    Framed (r.strategyValues inner s keep) :=
  (r.framed_union h s).map fun values => (values.filter keep).sampledBy (r.samplingOf s)

theorem framed_checkCoverage (ty : TypeName) (values : Sequence Value) : Framed (checkCoverage ty values) := by
  cases values with
  | nil => exact framed_report _ _
  | cut => exact framed_pure fun _ => rfl
  | cons a t => exact framed_pure fun _ => rfl

theorem framed_resolveWith (h : ∀ shape, Framed (inner shape)) (keep : Value → Bool) (ty : TypeName) :
    Framed (r.resolveWith inner keep ty) :=
  framed_read (f := fun c ctx =>
      checkCoverage ty (r.strategyValues inner (r.strategyFor ty c) keep ctx).1
        (r.strategyValues inner (r.strategyFor ty c) keep ctx).2)
    (fun _ => (r.framed_strategyValues h _ keep).bind (framed_checkCoverage ty)) fun _ => rfl

/-- **Arguments are re-derived alike.** The values of a constructor argument are the same each time it is resolved. -/
theorem argumentWith_eq (h : ∀ shape, Framed (inner shape)) (ty : TypeName) (ctx : Context) :
    r.argumentWith inner ty ctx =
      (.generated ty (.ofFactory fun _ => (r.resolveWith inner anyValue ty ctx.nested).1),
        ctx.absorb (r.resolveWith inner anyValue ty ctx.nested).2) := by
  have hafter := (r.framed_resolveWith h anyValue ty).snd_fork ctx.nested
  simp only [argumentWith, hafter, Context.fork_nested, Dimension.ofFactory]

theorem framed_argumentWith (h : ∀ shape, Framed (inner shape)) (ty : TypeName) :
    Framed (r.argumentWith inner ty) := by
  intro ctx
  rw [r.argumentWith_eq h, r.argumentWith_eq h, Context.nested_fork, ← Context.absorb_absorb, Context.absorb_fork]

theorem framed_constructorValues (h : ∀ shape, Framed (inner shape)) (info : TypeInfo) (c : Constructor) :
    Framed (r.constructorValues inner info c) := by
  intro ctx
  have hfallback : ctx.fork.structuralFallback = ctx.structuralFallback := rfl
  have harguments := framed_traverse (r.framed_argumentWith h) c.parameters ctx
  simp only [constructorValues, hfallback]
  split_ifs
  · rw [Context.absorb_fork]
  · rw [harguments]
    cases info.instantiate r.unit.hierarchy (ctx.fork.traverse (r.argumentWith inner) c.parameters).1 with
    | ok instantiation => rfl
    | error e =>
      dsimp only
      rw [Context.absorb_report]

theorem framed_instantiations (h : ∀ shape, Framed (inner shape)) (ty : TypeName) :
    Framed (r.instantiations inner ty) := by
  unfold instantiations
  cases r.unit.typeInfo? ty with
  | none => exact framed_pure fun _ => rfl
  | some info =>
    dsimp only
    split_ifs
    · exact (framed_traverse (r.framed_constructorValues h info) info.constructors).map Sequence.concat
    · exact framed_pure fun _ => rfl

theorem instantiations_fst (h : ∀ shape, Framed (inner shape)) {ty : TypeName} {info : TypeInfo}
    (hinfo : r.unit.typeInfo? ty = some info) (hi : info.isInstantiable = true) (ctx : Context) :
    (r.instantiations inner ty ctx).1 =
      .concat (info.constructors.map fun c => (r.constructorValues inner info c ctx).1) := by
  simp [instantiations, hinfo, hi, Context.traverse_fst (r.framed_constructorValues h info)]

theorem instantiations_unknown {ty : TypeName}
    (h : ∀ info, r.unit.typeInfo? ty = some info → info.isInstantiable = false) (ctx : Context) :
    r.instantiations inner ty ctx = (.nil, ctx) := by
  unfold instantiations
  split
  · rename_i info hinfo
    simp [h info hinfo]
  · rfl

theorem subtypeValues_registered {subtype : TypeName} {ctx : Context} {key : ScopeKey} {strategy : Strategy}
    (hf : r.findStrategy? subtype ctx.chain = some (key, strategy)) :
    r.subtypeValues inner subtype ctx = r.strategyValues inner strategy nonNull ctx := by
  simp [subtypeValues, hf]

theorem subtypeValues_refused {subtype : TypeName} {ctx : Context} (hf : r.findStrategy? subtype ctx.chain = none)
    (hp : ctx.guard.inProgress subtype = true) :
    r.subtypeValues inner subtype ctx = (.nil, ctx.report (.cycleTruncated subtype)) := by
  simp [subtypeValues, hf, Context.expand_of_inProgress hp]

theorem subtypeValues_expanded (h : ∀ shape, Framed (inner shape)) {subtype : TypeName} {ctx : Context}
    (hf : r.findStrategy? subtype ctx.chain = none) (hp : ctx.guard.inProgress subtype = false) :
    r.subtypeValues inner subtype ctx =
      ((r.instantiations inner subtype (ctx.marked subtype)).1,
        ctx.absorb (r.instantiations inner subtype (ctx.fork.marked subtype)).2) := by
  simp [subtypeValues, hf, Context.expand_of_not_inProgress hp (r.framed_instantiations h subtype)]

theorem framed_subtypeValues (h : ∀ shape, Framed (inner shape)) (subtype : TypeName) :
    Framed (r.subtypeValues inner subtype) := by
  intro ctx
  cases hf : r.findStrategy? subtype ctx.chain with
  | some found =>
    have hff : r.findStrategy? subtype ctx.fork.chain = some found := hf
    rw [r.subtypeValues_registered hf, r.subtypeValues_registered hff]
    exact r.framed_strategyValues h found.2 nonNull ctx
  | none =>
    have hff : r.findStrategy? subtype ctx.fork.chain = none := hf
    cases hp : ctx.guard.inProgress subtype with
    | true =>
      rw [r.subtypeValues_refused hf hp, r.subtypeValues_refused hff hp]
      exact framed_report _ _ ctx
    | false =>
      have hvalues := (r.framed_instantiations h subtype).fst (ctx.marked subtype)
      rw [r.subtypeValues_expanded h hf hp, r.subtypeValues_expanded h hff hp, ← Context.absorb_absorb,
        Context.absorb_fork, ← hvalues]
      rfl

theorem framed_dataTypeValues (h : ∀ shape, Framed (inner shape)) (ty dataType : TypeName) :
    Framed (r.dataTypeValues inner ty dataType) := by
  unfold dataTypeValues
  split_ifs
  · exact r.framed_instantiations h dataType
  · exact r.framed_subtypeValues h dataType

/-- null in front of values; nothing if there are none -/
def orNull (values : Sequence Value) : Sequence Value :=
  match values with
  | .nil => .nil
  | values => .cons .null fun _ => values

theorem structuredValues_refused {ty : TypeName} {ctx : Context} (hp : ctx.guard.inProgress ty = true) :
    r.structuredValues inner ty ctx = (.once .null, ctx.report (.cycleTruncated ty)) := by
  simp [structuredValues, Context.expand_of_inProgress hp]

theorem structuredValues_expanded (h : ∀ shape, Framed (inner shape)) {ty : TypeName} {ctx : Context}
    (hp : ctx.guard.inProgress ty = false) :
    r.structuredValues inner ty ctx =
      (orNull (.concat ((r.dataTypes ty ctx).map fun d => (r.dataTypeValues inner ty d (ctx.marked ty)).1)),
        ctx.absorb ((ctx.fork.marked ty).traverse (r.dataTypeValues inner ty) (r.dataTypes ty ctx)).2) := by
  have hd := r.framed_dataTypeValues h ty
  simp only [structuredValues, Context.expand_of_not_inProgress hp (framed_traverse hd _),
    Context.traverse_fst hd]
  generalize Sequence.concat _ = values
  cases values <;> rfl

theorem framed_structuredValues (h : ∀ shape, Framed (inner shape)) (ty : TypeName) :
    Framed (r.structuredValues inner ty) := by
  intro ctx
  cases hp : ctx.guard.inProgress ty with
  | true =>
    have hpf : ctx.fork.guard.inProgress ty = true := hp
    rw [r.structuredValues_refused hp, r.structuredValues_refused hpf]
    exact framed_report _ _ ctx
  | false =>
    have hpf : ctx.fork.guard.inProgress ty = false := hp
    have hvalues : ∀ d, (r.dataTypeValues inner ty d (ctx.fork.marked ty)).1 =
        (r.dataTypeValues inner ty d (ctx.marked ty)).1 :=
      fun d => (r.framed_dataTypeValues h ty d).fst (ctx.marked ty)
    rw [r.structuredValues_expanded h hp, r.structuredValues_expanded h hpf, ← Context.absorb_absorb,
      Context.absorb_fork]
    simp only [hvalues]
    rfl

theorem framed_shapeStep (h : ∀ shape, Framed (inner shape)) (shape : Shape) : Framed (r.shapeStep inner shape) := by
  cases shape with
  | primitive ty k => exact framed_pure fun _ => rfl
  | boxed ty k => exact framed_pure fun _ => rfl
  | enumeration ty constants => exact framed_pure fun _ => rfl
  | array ty maxLength => exact framed_pure fun _ => rfl
  | structured ty => exact r.framed_structuredValues h ty

/-- **Resolution only appends diagnostics**, on every level and with any registered strategies. -/
theorem framed_shapeValues (n : Nat) (shape : Shape) : Framed (r.shapeValues n shape) := by
  induction n generalizing shape with
  | zero => exact framed_pure fun _ => rfl
  | succ n ih => exact r.framed_shapeStep ih shape

/-! ## Requests -/

theorem framed_resolveWhere (keep : Value → Bool) (ty : TypeName) : Framed (r.resolveWhere keep ty) :=
  framed_read (f := fun c ctx => r.resolveWith (r.levels ty c) keep ty ctx)
    (fun c => r.framed_resolveWith (r.framed_shapeValues (r.depth ty c)) keep ty) fun _ => rfl

theorem framed_resolve (ty : TypeName) : Framed (r.resolve ty) := r.framed_resolveWhere anyValue ty

theorem framed_argument (ty : TypeName) : Framed (r.argument ty) :=
  framed_read (f := fun c ctx => r.argumentWith (r.levels ty c) ty ctx)
    (fun c => r.framed_argumentWith (r.framed_shapeValues (r.depth ty c)) ty) fun _ => rfl

theorem framed_structuralCandidates (ty : TypeName) : Framed (r.structuralCandidates ty) :=
  framed_read (f := fun c ctx => r.structuredValues (r.levels ty c) ty ctx)
    (fun c => r.framed_structuredValues (r.framed_shapeValues (r.depth ty c)) ty) fun _ => rfl

theorem factoryWhere_resolveWhere (keep : Value → Bool) (ty : TypeName) (ctx : Context) :
    r.factoryWhere keep ty (r.resolveWhere keep ty ctx).2 () = (r.resolveWhere keep ty ctx).1 := by
  have h := r.framed_resolveWhere keep ty
  rw [factoryWhere, h.snd_fork, h.fst]

theorem factory_resolve (ty : TypeName) (ctx : Context) :
    r.factory ty (r.resolve ty ctx).2 () = (r.resolve ty ctx).1 :=
  r.factoryWhere_resolveWhere anyValue ty ctx

end Resolver

end TestInputs
