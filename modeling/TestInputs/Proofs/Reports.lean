/-
What resolution reports. A framed action appends diagnostics that do not depend on those that are there already;
`reported` are the ones that it appends. Here it is said what one level of exploration reports, in terms of what is
reported for the types that it needs, just as `Listing` says it of the values.

Results:
- `reported_bind`, `reported_traverse`: actions one after the other report one after the other;
- `reported_resolveWith`: a type reports what its shape reports, and that it has no values if it has none;
- `reported_constructorValues`: a constructor reports what its parameters report, and then why it is left out if it is;
- `reported_dataTypeValues`, `reported_structuredValues`: a type that bears a mark is reported as truncated, and nothing
  else is reported for it.
-/
import TestInputs.Proofs.Listing

namespace TestInputs

variable {α β : Type}

/-! ## Actions -/

namespace Context

/-- the diagnostics that an action appends -/
def reported (f : Context → α × Context) (ctx : Context) : List Diagnostic := (f ctx.fork).2.diagnostics

theorem Framed.diagnostics {f : Context → α × Context} (h : Framed f) (ctx : Context) :
    (f ctx).2.diagnostics = ctx.diagnostics ++ reported f ctx := by
  rw [h ctx]
  rfl

theorem reported_congr (f : Context → α × Context) {c d : Context} (h : c.fork = d.fork) :
    reported f c = reported f d := by
  rw [reported, h, reported]

theorem reported_bind {f : Context → α × Context} {g : α → Context → β × Context} (hf : Framed f)
    (hg : ∀ a, Framed (g a)) (ctx : Context) :
    reported (fun ctx => g (f ctx).1 (f ctx).2) ctx = reported f ctx ++ reported (g (f ctx).1) ctx := by
  have hafter : (f ctx.fork).2.fork = ctx.fork := hf.snd_fork ctx.fork
  have hsecond := (hg (f ctx).1).diagnostics (f ctx.fork).2
  rw [reported_congr _ hafter] at hsecond
  rw [reported, hf.fst]
  exact hsecond

theorem reported_traverse {f : α → Context → β × Context} (hf : ∀ a, Framed (f a)) (as : List α) (ctx : Context) :
    reported (traverse f as) ctx = as.flatMap fun a => reported (f a) ctx := by
  induction as with
  | nil => rfl
  | cons a as ih =>
    have hrest : ∀ b, reported (fun ctx => (b :: (traverse f as ctx).1, (traverse f as ctx).2)) ctx =
        reported (traverse f as) ctx := fun _ => rfl
    rw [List.flatMap_cons, ← ih, ← hrest (f a ctx).1]
    exact reported_bind (hf a) (g := fun b ctx => (b :: (traverse f as ctx).1, (traverse f as ctx).2))
      (fun b => (framed_traverse hf as).map (b :: ·)) ctx

end Context

open Context (Framed reported)

namespace Resolver

variable {r : Resolver} {inner : ShapeValues}

/-! ## Constructors -/

theorem reported_argumentWith (h : ∀ shape, Framed (inner shape)) (ty : TypeName) (ctx : Context) :
    reported (r.argumentWith inner ty) ctx = reported (r.resolveWith inner anyValue ty) ctx.nested := by
  rw [reported, r.argumentWith_eq h]
  rfl

/-- the report of a constructor that is left out -/
def rejection : Except InstantiationError Instantiation → List Diagnostic
  | .ok _ => []
  | .error e => [.ofError e]

theorem reported_constructorValues (h : Regular inner) (info : TypeInfo) (c : Constructor) (ctx : Context) :
    reported (r.constructorValues inner info c) ctx =
      if !ctx.structuralFallback && 0 < c.arity then []
      else (c.parameters.flatMap fun p => reported (r.resolveWith inner anyValue p) ctx.nested) ++
        rejection (info.instantiate r.unit.hierarchy (r.argumentsFor inner c.parameters ctx)) := by
  have hparameters : ((ctx.fork.traverse (r.argumentWith inner) c.parameters).2).diagnostics =
      c.parameters.flatMap fun p => reported (r.resolveWith inner anyValue p) ctx.nested := by
    have htraverse := Context.reported_traverse (r.framed_argumentWith h.framed) c.parameters ctx
    simp only [reported_argumentWith h.framed] at htraverse
    exact htraverse
  have harguments : r.argumentsFor inner c.parameters ctx.fork = r.argumentsFor inner c.parameters ctx := rfl
  have hfallback : ctx.fork.structuralFallback = ctx.structuralFallback := rfl
  rw [← hparameters, reported]
  simp only [constructorValues, r.traverse_argumentWith h.framed, harguments, hfallback]
  split_ifs
  · rfl
  · cases info.instantiate r.unit.hierarchy (r.argumentsFor inner c.parameters ctx) with
    | ok i => exact (List.append_nil _).symm
    | error e => rfl

/-! ## Data types -/

theorem reported_instantiations (h : Regular inner) {ty : TypeName} {info : TypeInfo}
    (hinfo : r.unit.typeInfo? ty = some info) (hi : info.isInstantiable = true) (ctx : Context) :
    reported (r.instantiations inner ty) ctx =
      info.constructors.flatMap fun c => reported (r.constructorValues inner info c) ctx := by
  rw [← Context.reported_traverse (r.framed_constructorValues h.framed info)]
  simp only [reported, instantiations, hinfo, hi, if_true]

theorem reported_instantiations_unknown {ty : TypeName}
    (hunknown : ¬ ∃ info, r.unit.typeInfo? ty = some info ∧ info.isInstantiable = true) (ctx : Context) :
    reported (r.instantiations inner ty) ctx = [] := by
  rw [reported, r.instantiations_unknown fun info hinfo => by simpa using fun hi => hunknown ⟨info, hinfo, hi⟩]
  rfl

theorem reported_dataTypeValues (hbare : r.lookup.Bare) (h : Regular inner) (ty d : TypeName) (ctx : Context) :
    reported (r.dataTypeValues inner ty d) ctx =
      if d == ty then reported (r.instantiations inner d) ctx
      else if ctx.guard.inProgress d then [.cycleTruncated d]
      else reported (r.instantiations inner d) (ctx.marked d) := by
  have hnone := findStrategy_bare hbare d ctx.fork.chain
  simp only [reported, dataTypeValues]
  split_ifs with hsame hp
  · rfl
  · rw [r.subtypeValues_refused hnone hp]
    rfl
  · have hp : ctx.fork.guard.inProgress d = false := Bool.eq_false_iff.2 hp
    rw [r.subtypeValues_expanded h.framed hnone hp]
    rfl

/-! ## Shapes -/

theorem reported_structuredValues (h : Regular inner) (ty : TypeName) (ctx : Context) :
    reported (r.structuredValues inner ty) ctx =
      if ctx.guard.inProgress ty then [.cycleTruncated ty]
      else (r.dataTypes ty ctx).flatMap fun d => reported (r.dataTypeValues inner ty d) (ctx.marked ty) := by
  split_ifs with hp
  · have hp : ctx.fork.guard.inProgress ty = true := hp
    rw [reported, r.structuredValues_refused hp]
    rfl
  · have hp : ctx.fork.guard.inProgress ty = false := Bool.eq_false_iff.2 hp
    rw [reported, r.structuredValues_expanded h.framed hp,
      ← Context.reported_traverse (r.framed_dataTypeValues h.framed ty)]
    rfl

/-- the report of a type without values -/
def uncovered (ty : TypeName) : Sequence Value → List Diagnostic
  | .nil => [.noCoverage ty]
  | _ => []

theorem reported_resolveWith (hbare : r.lookup.Bare) (h : ∀ shape, Framed (inner shape)) (keep : Value → Bool)
    (ty : TypeName) (ctx : Context) :
    reported (r.resolveWith inner keep ty) ctx =
      reported (inner (Shape.ofType r.unit ty)) ctx ++ uncovered ty (r.resolveWith inner keep ty ctx).1 := by
  rw [resolveWith_bare_fst hbare, reported, resolveWith_bare hbare, (h _).fst]
  generalize ((inner (Shape.ofType r.unit ty) ctx).1.filter keep).sampledBy r.config.sampling = values
  cases values with
  | nil => rfl
  | cut => exact (List.append_nil _).symm
  | cons v vs => exact (List.append_nil _).symm

end Resolver

end TestInputs
