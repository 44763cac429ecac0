/-
Marks matter on cycles only. A type depends on the innermost types of the parameters of its constructors, on its
subtypes, and on the types named by literals that are assignable to it. The resolution of a type expands no others than
those it reaches in this way, so it never looks at marks on any other type; and it meets a mark of its own only where
the types depend on each other in a circle. Two expansions of one type that do not lie inside each other, as in a
diamond, do not disturb each other.

Results:
- `any_of_reaches`, `acyclic_of_layered`: a list of types with their dependencies further on shows what they reach, and
  that they reach no circle;
- `agrees_shapeStep`: under guards that agree on the types that a type reaches, a level has the same values and reports;
- `accounted_shapeStep`: a level truncates a type only if it bore a mark before or a circle is reached;
- `guard_transparent_off_cycles`: the statement for every type in every context.
-/
import Mathlib.Logic.Relation
import TestInputs.Proofs.Reports

namespace TestInputs

open Context (Framed reported)

/-! ## Dependencies -/

namespace UnitInfo

/-- what the values of a type are made from: the innermost types of the parameters of its constructors, its subtypes,
and those named types that are assignable to it -/
def dependencies (u : UnitInfo) (named : List TypeName) (ty : TypeName) : List TypeName :=
  ((u.typeInfo? ty).toList.flatMap fun info => info.constructors.flatMap fun c => c.parameters.map TypeName.base) ++
    ((u.typeInfo? ty).toList.flatMap TypeInfo.subtypes ++ named.filter (u.hierarchy.isAssignable ty)).filter
      fun t => !(t == ty)

/-- a type depends on another, whatever the generic part of the latter is -/
def Depends (u : UnitInfo) (named : List TypeName) (ty t : TypeName) : Prop :=
  ∃ d ∈ u.dependencies named ty, (d == t) = true

/-- dependencies lead from a type to another in any number of steps -/
def Reaches (u : UnitInfo) (named : List TypeName) (ty t : TypeName) : Prop :=
  Relation.ReflTransGen (u.Depends named) ty t

variable {u : UnitInfo} {named : List TypeName}

theorem depends_parameter {ty p : TypeName} {info : TypeInfo} {c : Constructor} (known : u.typeInfo? ty = some info)
    (hc : c ∈ info.constructors) (hp : p ∈ c.parameters) : u.Depends named ty p.base := by
  refine ⟨p.base, List.mem_append_left _ ?_, BEq.rfl⟩
  simp only [known, Option.toList_some, List.flatMap_cons, List.flatMap_nil, List.append_nil]
  exact List.mem_flatMap.2 ⟨c, hc, List.mem_map.2 ⟨p, hp, rfl⟩⟩

theorem depends_subtype {ty d : TypeName} {info : TypeInfo} (known : u.typeInfo? ty = some info)
    (hd : d ∈ info.subtypes) (hother : (d == ty) = false) : u.Depends named ty d := by
  refine ⟨d, List.mem_append_right _ (List.mem_filter.2 ⟨List.mem_append_left _ ?_, by simp [hother]⟩), BEq.rfl⟩
  simpa [known] using hd

theorem depends_named {ty d s : TypeName} (hs : s ∈ named) (hsd : (s == d) = true)
    (ha : u.hierarchy.isAssignable ty d = true) (hother : (d == ty) = false) : u.Depends named ty d := by
  have hs : s ∈ named.filter (u.hierarchy.isAssignable ty) := by
    refine List.mem_filter.2 ⟨hs, ?_⟩
    rw [u.hierarchy.isAssignable_congr hsd]
    exact ha
  refine ⟨s, List.mem_append_right _ (List.mem_filter.2 ⟨List.mem_append_right _ hs, ?_⟩), hsd⟩
  rw [TypeName.beq_congr_left hsd, hother]
  rfl

theorem Depends.congr {ty s t : TypeName} (h : u.Depends named ty s) (hst : (s == t) = true) :
    u.Depends named ty t := by
  obtain ⟨d, hd, hds⟩ := h
  exact ⟨d, hd, BEq.trans hds hst⟩

/-- a way back to an equal type is a circle -/
theorem circle_of_beq {s t : TypeName} (h : Relation.TransGen (u.Depends named) s t) (hst : (s == t) = true) :
    Relation.TransGen (u.Depends named) s s := by
  cases h with
  | single hlast => exact .single (hlast.congr (BEq.symm hst))
  | tail hfirst hlast => exact .tail hfirst (hlast.congr (BEq.symm hst))

/-! ## Layers -/

/-- is every dependency of a type in the list equal to one further on? -/
def layered (u : UnitInfo) (named : List TypeName) : List TypeName → Bool
  | [] => true
  | t :: ts => ((u.dependencies named t).all fun d => ts.any (· == d)) && layered u named ts

theorem layered_tail {t : TypeName} {ts : List TypeName} (h : u.layered named (t :: ts) = true) :
    u.layered named ts = true := by
  rw [layered, Bool.and_eq_true] at h
  exact h.2

theorem Depends.congr_left {s t d : TypeName} (h : u.Depends named s d) (hst : (s == t) = true) :
    u.Depends named t d := by
  have hassignable : u.hierarchy.isAssignable s = u.hierarchy.isAssignable t :=
    funext (u.hierarchy.isAssignable_congr_target hst)
  have hsame : u.dependencies named s = u.dependencies named t := by
    simp only [dependencies, typeInfo_congr hst, hassignable, TypeName.beq_congr_right hst]
  obtain ⟨e, he, hed⟩ := h
  exact ⟨e, hsame ▸ he, hed⟩

/-- the dependencies of the first type are further on -/
theorem any_of_depends {t s d : TypeName} {ts : List TypeName} (h : u.layered named (t :: ts) = true)
    (hts : (t == s) = true) (hd : u.Depends named s d) : ts.any (· == d) = true := by
  obtain ⟨e, he, hed⟩ := hd.congr_left (BEq.symm hts)
  simp only [layered, Bool.and_eq_true, List.all_eq_true] at h
  obtain ⟨m, hm, hme⟩ := List.any_eq_true.1 (h.1 e he)
  exact List.any_eq_true.2 ⟨m, hm, BEq.trans hme hed⟩

/-- a layered list holds whatever its members reach -/
theorem any_of_reaches {types : List TypeName} (h : u.layered named types = true) {s t : TypeName}
    (hs : types.any (· == s) = true) (hst : u.Reaches named s t) : types.any (· == t) = true := by
  induction types generalizing s with
  | nil => cases hs
  | cons x types ih =>
    have hrest := layered_tail h
    have hfurther : ∀ d, types.any (· == d) = true → u.Reaches named d t → (x :: types).any (· == t) = true := by
      intro d hd hdt
      rw [List.any_cons, ih hrest hd hdt, Bool.or_true]
    rw [List.any_cons, Bool.or_eq_true] at hs
    rcases hs with hxs | hs
    · rcases Relation.ReflTransGen.cases_head hst with rfl | ⟨d, hd, hdt⟩
      · rw [List.any_cons, hxs, Bool.true_or]
      · exact hfurther d (any_of_depends h hxs hd) hdt
    · exact hfurther s hs hst

/-- the members of a layered list do not depend on each other in a circle -/
theorem acyclic_of_layered {types : List TypeName} (h : u.layered named types = true) {s : TypeName}
    (hs : types.any (· == s) = true) : ¬ Relation.TransGen (u.Depends named) s s := by
  induction types with
  | nil => cases hs
  | cons x types ih =>
    have hrest := layered_tail h
    rw [List.any_cons, Bool.or_eq_true] at hs
    rcases hs with hxs | hs
    · intro hcircle
      obtain ⟨d, hd, hds⟩ := Relation.TransGen.head'_iff.1 hcircle
      exact ih hrest (any_of_reaches hrest (any_of_depends h hxs hd) hds) hcircle
    · exact ih hrest hs

end UnitInfo

theorem TypeName.base_component {ty component : TypeName} (h : ty.component? = some component) :
    component.base = ty.base := by
  unfold component? at h
  split at h
  · cases h
  · cases h
    rfl

/-- every type that literals of the context name is equal to a named one -/
def Context.NamedBy (named : List TypeName) (ctx : Context) : Prop :=
  ∀ t ∈ ctx.referencedTypes, ∃ s ∈ named, (s == t) = true

theorem Context.NamedBy.nested {named : List TypeName} {ctx : Context} (h : ctx.NamedBy named) :
    ctx.nested.NamedBy named := by
  intro t ht
  obtain ⟨s, hs, hst⟩ := Context.referencedTypes_nested ht
  obtain ⟨n, hn, hns⟩ := h s hs
  exact ⟨n, hn, BEq.trans hns hst⟩

theorem Context.NamedBy.marked {named : List TypeName} {ctx : Context} (h : ctx.NamedBy named) (ty : TypeName) :
    (ctx.marked ty).NamedBy named := h

/-- the context under another guard -/
def Context.guarded (ctx : Context) (guard : Guard) : Context := { ctx with guard }

namespace Resolver

open UnitInfo

variable {r : Resolver} {named : List TypeName} {inner : ShapeValues}

theorem depends_dataType {ty d : TypeName} {ctx : Context} (hnamed : ctx.NamedBy named) (hd : d ∈ r.dataTypes ty ctx)
    (hother : (d == ty) = false) : r.unit.Depends named ty d := by
  rcases dataTypes_cases hd with rfl | ⟨info, hinfo, hd⟩ | ⟨hd, ha⟩
  · rw [BEq.rfl] at hother
    cases hother
  · exact depends_subtype hinfo hd hother
  · obtain ⟨s, hs, hsd⟩ := hnamed d hd
    exact depends_named hs hsd ha hother

/-- dependencies lead from a type to the parameters of its data types -/
theorem leads_to_parameter {ty d p : TypeName} {ctx : Context} {info : TypeInfo} {c : Constructor}
    (hnamed : ctx.NamedBy named) (hd : d ∈ r.dataTypes ty ctx) (known : r.unit.typeInfo? d = some info)
    (hc : c ∈ info.constructors) (hp : p ∈ c.parameters) : Relation.TransGen (r.unit.Depends named) ty p.base := by
  cases hsame : d == ty with
  | true =>
    rw [typeInfo_congr hsame] at known
    exact .single (depends_parameter known hc hp)
  | false => exact .tail (.single (depends_dataType hnamed hd hsame)) (depends_parameter known hc hp)

/-! ## Guards that agree -/

/-- two guards refuse the same of the types that a type reaches -/
def AgreeBelow (r : Resolver) (named : List TypeName) (ty : TypeName) (g g' : Guard) : Prop :=
  ∀ t, r.unit.Reaches named ty t → g.inProgress t = g'.inProgress t

theorem AgreeBelow.below {ty t : TypeName} {g g' : Guard} (h : r.AgreeBelow named ty g g')
    (ht : r.unit.Reaches named ty t) : r.AgreeBelow named t g g' := fun s hs => h s (ht.trans hs)

theorem AgreeBelow.mark {ty : TypeName} {g g' : Guard} (h : r.AgreeBelow named ty g g') (t : TypeName) :
    r.AgreeBelow named ty ⟨t :: g.types⟩ ⟨t :: g'.types⟩ := by
  intro s hs
  rw [Guard.inProgress_cons, Guard.inProgress_cons, h s hs]

/-- an action has the same outcome in two contexts: the same values and the same reports -/
def Agrees {α : Type} (f : Context → α × Context) (c d : Context) : Prop :=
  (f c).1 = (f d).1 ∧ reported f c = reported f d

theorem agrees_resolveWith (hbare : r.lookup.Bare) (h : ∀ shape, Framed (inner shape)) (keep : Value → Bool)
    {ty : TypeName} {c d : Context} (ha : Agrees (inner (Shape.ofType r.unit ty)) c d) :
    Agrees (r.resolveWith inner keep ty) c d := by
  have hvalues : (r.resolveWith inner keep ty c).1 = (r.resolveWith inner keep ty d).1 := by
    rw [resolveWith_bare_fst hbare, resolveWith_bare_fst hbare, ha.1]
  refine ⟨hvalues, ?_⟩
  rw [reported_resolveWith hbare h, reported_resolveWith hbare h, hvalues, ha.2]

theorem agrees_constructorValues (h : Regular inner) (info : TypeInfo) (c : Constructor) {ctx : Context} {g : Guard}
    (hparameters : ∀ p ∈ c.parameters, Agrees (r.resolveWith inner anyValue p) ctx.nested (ctx.guarded g).nested) :
    Agrees (r.constructorValues inner info c) ctx (ctx.guarded g) := by
  have hfallback : (ctx.guarded g).structuralFallback = ctx.structuralFallback := rfl
  have harguments : r.argumentsFor inner c.parameters (ctx.guarded g) = r.argumentsFor inner c.parameters ctx :=
    List.map_congr_left fun p hp => by rw [(hparameters p hp).1]
  constructor
  · simp only [constructorValues, r.traverse_argumentWith h.framed, harguments, hfallback]
    split_ifs
    · rfl
    · cases info.instantiate r.unit.hierarchy (r.argumentsFor inner c.parameters ctx) <;> rfl
  · rw [reported_constructorValues h, reported_constructorValues h, harguments, hfallback,
      List.flatMap_congr fun p hp => (hparameters p hp).2]

/-- the values of every type have the same outcome under guards that agree below it -/
def Blind (r : Resolver) (named : List TypeName) (inner : ShapeValues) : Prop :=
  ∀ ty ctx g, Context.NamedBy named ctx → r.AgreeBelow named ty.base ctx.guard g →
    Agrees (r.resolveWith inner anyValue ty) ctx (ctx.guarded g)

theorem agrees_instantiations (h : Regular inner) (ih : r.Blind named inner) {d : TypeName} {ctx : Context}
    (hnamed : ctx.NamedBy named) {g : Guard}
    (hagree : ∀ info c p, r.unit.typeInfo? d = some info → c ∈ info.constructors → p ∈ c.parameters →
      r.AgreeBelow named p.base ctx.guard g) : Agrees (r.instantiations inner d) ctx (ctx.guarded g) := by
  by_cases hk : ∃ info, r.unit.typeInfo? d = some info ∧ info.isInstantiable = true
  · obtain ⟨info, hinfo, hi⟩ := hk
    have hconstructors : ∀ c ∈ info.constructors, Agrees (r.constructorValues inner info c) ctx (ctx.guarded g) := by
      intro c hc
      exact agrees_constructorValues h info c fun p hp => ih p ctx.nested g hnamed.nested (hagree info c p hinfo hc hp)
    constructor
    · rw [r.instantiations_fst h.framed hinfo hi, r.instantiations_fst h.framed hinfo hi,
        List.map_congr_left fun c hc => (hconstructors c hc).1]
    · rw [reported_instantiations h hinfo hi, reported_instantiations h hinfo hi,
        List.flatMap_congr fun c hc => (hconstructors c hc).2]
  · have hunknown : ∀ c, r.instantiations inner d c = (.nil, c) :=
      r.instantiations_unknown fun info hinfo => by simpa using fun hi => hk ⟨info, hinfo, hi⟩
    constructor
    · rw [hunknown, hunknown]
    · rw [reported_instantiations_unknown hk, reported_instantiations_unknown hk]

theorem agrees_dataTypeValues (hbare : r.lookup.Bare) (h : Regular inner) (ih : r.Blind named inner) {ty d : TypeName}
    {ctx : Context} {g : Guard} (hnamed : ctx.NamedBy named) (hagree : r.AgreeBelow named ty ctx.guard g)
    (hd : d ∈ r.dataTypes ty ctx) :
    Agrees (r.dataTypeValues inner ty d) (ctx.marked ty) ((ctx.guarded g).marked ty) := by
  have hparameters : ∀ info c p, r.unit.typeInfo? d = some info → c ∈ info.constructors → p ∈ c.parameters →
      r.AgreeBelow named p.base ctx.guard g :=
    fun info c p known hc hp => hagree.below (leads_to_parameter hnamed hd known hc hp).to_reflTransGen
  have hself : Agrees (r.instantiations inner d) (ctx.marked ty) ((ctx.guarded g).marked ty) :=
    agrees_instantiations h ih (hnamed.marked ty)
      fun info c p known hc hp => (hparameters info c p known hc hp).mark ty
  have hother : Agrees (r.instantiations inner d) ((ctx.marked ty).marked d) (((ctx.guarded g).marked ty).marked d) :=
    agrees_instantiations h ih ((hnamed.marked ty).marked d)
      fun info c p known hc hp => ((hparameters info c p known hc hp).mark ty).mark d
  unfold Agrees
  rw [dataTypeValues_fst hbare h.framed, dataTypeValues_fst hbare h.framed, reported_dataTypeValues hbare h,
    reported_dataTypeValues hbare h]
  cases hsame : d == ty with
  | true => exact hself
  | false =>
    have hguard : (ctx.marked ty).guard.inProgress d = ((ctx.guarded g).marked ty).guard.inProgress d :=
      (hagree.mark ty) d (.single (depends_dataType hnamed hd hsame))
    rw [hguard]
    cases ((ctx.guarded g).marked ty).guard.inProgress d with
    | true => exact ⟨rfl, rfl⟩
    | false => exact hother

theorem agrees_structuredValues (hbare : r.lookup.Bare) (h : Regular inner) (ih : r.Blind named inner) {ty : TypeName}
    {ctx : Context} {g : Guard} (hnamed : ctx.NamedBy named) (hagree : r.AgreeBelow named ty ctx.guard g) :
    Agrees (r.structuredValues inner ty) ctx (ctx.guarded g) := by
  have htypes : r.dataTypes ty (ctx.guarded g) = r.dataTypes ty ctx := rfl
  have hdata : ∀ d ∈ r.dataTypes ty ctx,
      Agrees (r.dataTypeValues inner ty d) (ctx.marked ty) ((ctx.guarded g).marked ty) :=
    fun d hd => agrees_dataTypeValues hbare h ih hnamed hagree hd
  have hguard : (ctx.guarded g).guard.inProgress ty = ctx.guard.inProgress ty := (hagree ty .refl).symm
  constructor
  · cases hp : ctx.guard.inProgress ty with
    | true => rw [r.structuredValues_refused hp, r.structuredValues_refused (hguard.trans hp)]
    | false =>
      rw [r.structuredValues_expanded h.framed hp, r.structuredValues_expanded h.framed (hguard.trans hp), htypes,
        List.map_congr_left fun d hd => (hdata d hd).1]
  · rw [reported_structuredValues h, reported_structuredValues h, hguard, htypes,
      List.flatMap_congr fun d hd => (hdata d hd).2]

/-- **Under guards that agree below a type a level has the same outcome.** -/
theorem agrees_shapeStep (hbare : r.lookup.Bare) (h : Regular inner) (ih : r.Blind named inner) {ty : TypeName}
    {ctx : Context} {g : Guard} (hnamed : ctx.NamedBy named) (hagree : r.AgreeBelow named ty.base ctx.guard g) :
    Agrees (r.shapeStep inner (Shape.ofType r.unit ty)) ctx (ctx.guarded g) := by
  have hspec := Shape.ofType_spec r.unit ty
  cases hshape : Shape.ofType r.unit ty with
  | primitive t k => exact ⟨rfl, rfl⟩
  | boxed t k => exact ⟨rfl, rfl⟩
  | enumeration t constants => exact ⟨rfl, rfl⟩
  | array t maxLength =>
    rw [hshape] at hspec
    obtain ⟨rfl, -⟩ := hspec
    refine ⟨?_, rfl⟩
    cases hc : t.component? with
    | none => simp only [shapeStep, arrayValues, hc]
    | some component =>
      rw [← TypeName.base_component hc] at hagree
      have helements := (ih component ctx.nested g hnamed.nested hagree).1
      have hnested : (ctx.guarded g).nested = ctx.nested.guarded g := rfl
      simp only [shapeStep, arrayValues, hc, helements, hnested]
      rfl
  | structured t =>
    rw [hshape] at hspec
    obtain ⟨rfl, harray, -⟩ := hspec
    rw [TypeName.base_of_not_isArray harray] at hagree
    exact agrees_structuredValues hbare h ih hnamed hagree

theorem agrees_above (hbare : r.lookup.Bare) (n : Nat) (keep : Value → Bool) (ty : TypeName) (ctx : Context) (g : Guard)
    (hnamed : ctx.NamedBy named) (hagree : r.AgreeBelow named ty.base ctx.guard g) :
    Agrees (r.resolveWith (r.above nothing n) keep ty) ctx (ctx.guarded g) := by
  have hregular := r.regular_above regular_nothing
  induction n generalizing keep ty ctx g with
  | zero => exact agrees_resolveWith hbare (hregular 0).framed keep ⟨rfl, rfl⟩
  | succ n ih =>
    have hstep := agrees_shapeStep hbare (hregular n) (fun ty ctx g => ih anyValue ty ctx g) hnamed hagree
    exact agrees_resolveWith hbare (hregular (n + 1)).framed keep hstep

/-! ## Truncated types -/

/-- a truncated type is accounted for: it is reached, and it bore a mark or a circle is reached as well -/
structure Accounted (r : Resolver) (named : List TypeName) (ty : TypeName) (g : Guard) (t : TypeName) : Prop where
  reached : r.unit.Reaches named ty t
  cause : g.inProgress t = true ∨
    ∃ s, r.unit.Reaches named ty s ∧ Relation.TransGen (r.unit.Depends named) s s

/-- marks that were set on the way need no account: whoever meets one has come full circle -/
theorem Accounted.unmark {ty below t : TypeName} (marks : List TypeName) {g : Guard}
    (hbelow : r.unit.Reaches named ty below)
    (hmarks : ∀ m ∈ marks, r.unit.Reaches named ty m ∧ Relation.TransGen (r.unit.Depends named) m below)
    (h : r.Accounted named below ⟨marks ++ g.types⟩ t) : r.Accounted named ty g t := by
  refine ⟨hbelow.trans h.reached, ?_⟩
  rcases h.cause with hmarked | ⟨s, hs, hcircle⟩
  · have hmarked : ((marks ++ g.types).any (· == t)) = true := hmarked
    rw [List.any_append, Bool.or_eq_true] at hmarked
    rcases hmarked with hnew | hold
    · obtain ⟨m, hm, hmt⟩ := List.any_eq_true.1 hnew
      obtain ⟨hreach, hway⟩ := hmarks m hm
      exact Or.inr ⟨m, hreach, circle_of_beq (hway.trans_left h.reached) hmt⟩
    · exact Or.inl hold
  · exact Or.inr ⟨s, hbelow.trans hs, hcircle⟩

theorem not_mem_rejection (t : TypeName) (result : Except InstantiationError Instantiation) :
    Diagnostic.cycleTruncated t ∉ rejection result := by
  intro ht
  cases result with
  | ok i => cases ht
  | error e =>
    have he := List.mem_singleton.1 ht
    cases e <;> cases he

/-- what is truncated among the instances of a type is truncated for a parameter -/
theorem truncated_instantiations (h : Regular inner) {d t : TypeName} {ctx : Context}
    (ht : .cycleTruncated t ∈ reported (r.instantiations inner d) ctx) :
    ∃ info c p, r.unit.typeInfo? d = some info ∧ c ∈ info.constructors ∧ p ∈ c.parameters ∧
      .cycleTruncated t ∈ reported (r.resolveWith inner anyValue p) ctx.nested := by
  by_cases hk : ∃ info, r.unit.typeInfo? d = some info ∧ info.isInstantiable = true
  · obtain ⟨info, hinfo, hi⟩ := hk
    rw [reported_instantiations h hinfo hi] at ht
    obtain ⟨c, hc, ht⟩ := List.mem_flatMap.1 ht
    rw [reported_constructorValues h] at ht
    split_ifs at ht
    · cases ht
    · rcases List.mem_append.1 ht with ht | ht
      · obtain ⟨p, hp, ht⟩ := List.mem_flatMap.1 ht
        exact ⟨info, c, p, hinfo, hc, hp, ht⟩
      · exact absurd ht (not_mem_rejection t _)
  · rw [reported_instantiations_unknown hk] at ht
    cases ht

/-- the types that the next level truncates are accounted for -/
def Accounts (r : Resolver) (named : List TypeName) (inner : ShapeValues) : Prop :=
  ∀ ty ctx t, Context.NamedBy named ctx → .cycleTruncated t ∈ reported (r.resolveWith inner anyValue ty) ctx →
    r.Accounted named ty.base ctx.guard t

theorem accounted_dataTypeValues (hbare : r.lookup.Bare) (h : Regular inner) (ih : r.Accounts named inner)
    {ty d t : TypeName} {ctx : Context} (hnamed : ctx.NamedBy named) (hd : d ∈ r.dataTypes ty ctx)
    (ht : .cycleTruncated t ∈ reported (r.dataTypeValues inner ty d) (ctx.marked ty)) :
    r.Accounted named ty ctx.guard t := by
  rw [reported_dataTypeValues hbare h] at ht
  split_ifs at ht with hsame hmark
  · obtain ⟨info, c, p, known, hc, hp, ht⟩ := truncated_instantiations h ht
    have hway := leads_to_parameter hnamed hd known hc hp
    have haccount := ih p _ t (hnamed.marked ty).nested ht
    refine Accounted.unmark [ty] hway.to_reflTransGen (fun m hm => ?_) haccount
    rw [List.mem_singleton.1 hm]
    exact ⟨.refl, hway⟩
  · have hother : (d == ty) = false := by simpa using hsame
    have hreach : r.unit.Reaches named ty d := .single (depends_dataType hnamed hd hother)
    rw [Diagnostic.cycleTruncated.inj (List.mem_singleton.1 ht)]
    have hmark : (ty == d || ctx.guard.inProgress d) = true := hmark
    rw [BEq.comm, hother, Bool.false_or] at hmark
    exact ⟨hreach, Or.inl hmark⟩
  · have hother : (d == ty) = false := by simpa using hsame
    have hreach : r.unit.Reaches named ty d := .single (depends_dataType hnamed hd hother)
    obtain ⟨info, c, p, known, hc, hp, ht⟩ := truncated_instantiations h ht
    have hway := leads_to_parameter hnamed hd known hc hp
    have haccount := ih p _ t ((hnamed.marked ty).marked d).nested ht
    refine Accounted.unmark [d, ty] hway.to_reflTransGen (fun m hm => ?_) haccount
    rcases List.mem_cons.1 hm with rfl | hm
    · exact ⟨hreach, .single (depends_parameter known hc hp)⟩
    · rw [List.mem_singleton.1 hm]
      exact ⟨.refl, hway⟩

theorem accounted_structuredValues (hbare : r.lookup.Bare) (h : Regular inner) (ih : r.Accounts named inner)
    {ty t : TypeName} {ctx : Context} (hnamed : ctx.NamedBy named)
    (ht : .cycleTruncated t ∈ reported (r.structuredValues inner ty) ctx) : r.Accounted named ty ctx.guard t := by
  rw [reported_structuredValues h] at ht
  split_ifs at ht with hp
  · rw [Diagnostic.cycleTruncated.inj (List.mem_singleton.1 ht)]
    exact ⟨.refl, Or.inl hp⟩
  · obtain ⟨d, hd, ht⟩ := List.mem_flatMap.1 ht
    exact accounted_dataTypeValues hbare h ih hnamed hd ht

/-- **A level truncates a type only if it bore a mark before or a circle is reached.** -/
theorem accounted_shapeStep (hbare : r.lookup.Bare) (h : Regular inner) (ih : r.Accounts named inner)
    {ty t : TypeName} {ctx : Context} (hnamed : ctx.NamedBy named)
    (ht : .cycleTruncated t ∈ reported (r.shapeStep inner (Shape.ofType r.unit ty)) ctx) :
    r.Accounted named ty.base ctx.guard t := by
  have hspec := Shape.ofType_spec r.unit ty
  cases hshape : Shape.ofType r.unit ty with
  | structured s =>
    rw [hshape] at hspec ht
    obtain ⟨rfl, harray, -⟩ := hspec
    rw [TypeName.base_of_not_isArray harray]
    exact accounted_structuredValues hbare h ih hnamed ht
  | _ =>
    -- other shapes report nothing
    rw [hshape] at ht
    cases ht

theorem accounted_resolveWith (hbare : r.lookup.Bare) (h : ∀ shape, Framed (inner shape)) {keep : Value → Bool}
    {ty t : TypeName} {ctx : Context} (ht : .cycleTruncated t ∈ reported (r.resolveWith inner keep ty) ctx) :
    .cycleTruncated t ∈ reported (inner (Shape.ofType r.unit ty)) ctx := by
  rw [reported_resolveWith hbare h] at ht
  rcases List.mem_append.1 ht with ht | ht
  · exact ht
  · generalize (r.resolveWith inner keep ty ctx).1 = values at ht
    cases values with
    | nil => cases List.mem_singleton.1 ht
    | cut => cases ht
    | cons v vs => cases ht

theorem accounted_above (hbare : r.lookup.Bare) (n : Nat) (keep : Value → Bool) (ty : TypeName) (ctx : Context)
    (t : TypeName) (hnamed : ctx.NamedBy named)
    (ht : .cycleTruncated t ∈ reported (r.resolveWith (r.above nothing n) keep ty) ctx) :
    r.Accounted named ty.base ctx.guard t := by
  have hregular := r.regular_above regular_nothing
  induction n generalizing keep ty ctx t with
  | zero => cases accounted_resolveWith hbare (hregular 0).framed ht
  | succ n ih =>
    exact accounted_shapeStep hbare (hregular n) (fun ty ctx t => ih anyValue ty ctx t) hnamed
      (accounted_resolveWith hbare (hregular (n + 1)).framed ht)

/-! ## All types -/

theorem reported_resolve (hbare : r.lookup.Bare) (ty : TypeName) (ctx : Context) :
    reported (r.resolve ty) ctx =
      reported (r.resolveWith (r.above nothing (r.depth ty ctx)) anyValue ty) ctx := by
  have hlevels := r.resolveWith_above hbare.ownTargets nothing anyValue ty ctx.fork
  exact congrArg (fun outcome => outcome.2.diagnostics) hlevels.symm

/-- **Marks matter on cycles only.** Without registered strategies, for every type in every context, whatever the hooks
and settings are: if no type that it reaches bears a mark, a type has the same values and reports as without any marks;
and if moreover the types that it reaches do not depend on each other in a circle, nothing is reported as truncated. The
values meant are all there are. -/
theorem guard_transparent_off_cycles (r : Resolver) (hbare : r.lookup.Bare) (ty : TypeName) (ctx : Context)
    (hfree : ∀ t, r.unit.Reaches ctx.referencedTypes ty.base t → ctx.guard.inProgress t = false) :
    (r.resolve ty ctx).1.Complete ∧
    (r.resolve ty ctx).1 = (r.resolve ty { ctx with guard := .empty }).1 ∧
    (r.resolve ty ctx).2.diagnostics = (r.resolve ty { ctx with guard := .empty }).2.diagnostics ∧
    ((∀ t, r.unit.Reaches ctx.referencedTypes ty.base t →
        ¬ Relation.TransGen (r.unit.Depends ctx.referencedTypes) t t) →
      ∃ reports, (r.resolve ty ctx).2.diagnostics = ctx.diagnostics ++ reports ∧
        ∀ t, .cycleTruncated t ∉ reports) := by
  have hnamed : ctx.NamedBy ctx.referencedTypes := fun t ht => ⟨t, ht, BEq.rfl⟩
  have hagree : r.AgreeBelow ctx.referencedTypes ty.base ctx.guard .empty := fun t ht => hfree t ht
  have hsame := agrees_above hbare (r.depth ty ctx) anyValue ty ctx .empty hnamed hagree
  have hframed := r.framed_resolve ty
  refine ⟨r.complete_resolveWhere hbare.ownTargets anyValue ty ctx, ?_, ?_, fun hacyclic => ?_⟩
  · have hlevels := r.resolveWith_above hbare.ownTargets nothing anyValue ty
    have hvalues := hsame.1
    rw [hlevels] at hvalues
    exact hvalues.trans (congrArg Prod.fst (hlevels (ctx.guarded .empty)))
  · have hreports := hsame.2
    rw [← reported_resolve hbare] at hreports
    rw [hframed.diagnostics, hframed.diagnostics, hreports]
    exact congrArg (ctx.diagnostics ++ ·) (reported_resolve hbare ty (ctx.guarded .empty)).symm
  · refine ⟨reported (r.resolve ty) ctx, hframed.diagnostics ctx, fun t ht => ?_⟩
    rw [reported_resolve hbare] at ht
    have haccount := accounted_above hbare _ anyValue ty ctx t hnamed ht
    rcases haccount.cause with hmarked | ⟨s, hs, hcircle⟩
    · rw [hfree t haccount.reached] at hmarked
      cases hmarked
    · exact hacyclic s hs hcircle

/-! Shipments of parcels with an invoice. Parcels and invoices bear addresses, so the shipment depends on addresses in
two ways, and a crate is named by a literal as a kind of parcel. -/

def shipmentUnit : UnitInfo :=
  { declaring := ⟨"Depot", "", 0⟩
    types :=
      [{ ty := ⟨"Shipment", "", 0⟩, constructors := [⟨[⟨"Parcel", "", 1⟩, ⟨"Invoice", "", 0⟩], none⟩] },
       { ty := ⟨"Parcel", "", 0⟩, constructors := [⟨[⟨"Address", "", 0⟩], none⟩], subtypes := [⟨"Letter", "", 0⟩] },
       { ty := ⟨"Letter", "", 0⟩, constructors := [⟨[], none⟩] },
       { ty := ⟨"Crate", "", 0⟩, constructors := [⟨[⟨"Address", "", 0⟩], none⟩], supertypes := [⟨"Parcel", "", 0⟩] },
       { ty := ⟨"Invoice", "", 0⟩, constructors := [⟨[⟨"Address", "", 0⟩], none⟩] },
       { ty := ⟨"Address", "", 0⟩, constructors := [⟨[⟨"boolean", "", 0⟩], none⟩] }] }

def shipmentResolver : Resolver := .make (fun _ _ => none) shipmentUnit {}

/-- inside an expansion of a depot -/
def depotContext : Context :=
  { Context.forType ⟨"Depot", "", 0⟩ with
    guard := ⟨[⟨"Depot", "", 0⟩]⟩
    typeLiterals := LiteralTable.empty.insertReference ⟨"Crate", "", 0⟩ }

/-- a shipment and what it depends on, each type in front of its dependencies -/
def shipmentTypes : List TypeName :=
  [⟨"Shipment", "", 0⟩, ⟨"Parcel", "", 0⟩, ⟨"Letter", "", 0⟩, ⟨"Crate", "", 0⟩, ⟨"Invoice", "", 0⟩, ⟨"Address", "", 0⟩,
    ⟨"boolean", "", 0⟩]

theorem shipments_off_cycles :
    (shipmentResolver.resolve ⟨"Shipment", "", 0⟩ depotContext).1.toList.length = 41 ∧
    (shipmentResolver.resolve ⟨"Shipment", "", 0⟩ depotContext).1 =
      (shipmentResolver.resolve ⟨"Shipment", "", 0⟩ { depotContext with guard := .empty }).1 ∧
    ∃ reports, (shipmentResolver.resolve ⟨"Shipment", "", 0⟩ depotContext).2.diagnostics =
      depotContext.diagnostics ++ reports ∧ ∀ t, .cycleTruncated t ∉ reports := by
  have hlayered : shipmentResolver.unit.layered depotContext.referencedTypes shipmentTypes = true := by decide +kernel
  have hfree : ∀ t ∈ shipmentTypes, depotContext.guard.inProgress t = false := by decide
  have hreached : ∀ t, shipmentResolver.unit.Reaches depotContext.referencedTypes ⟨"Shipment", "", 0⟩ t →
      shipmentTypes.any (· == t) = true := fun t ht => UnitInfo.any_of_reaches hlayered (by decide) ht
  have hresult := guard_transparent_off_cycles shipmentResolver (fun _ _ => rfl) ⟨"Shipment", "", 0⟩ depotContext
    fun t ht => by
      obtain ⟨s, hs, hst⟩ := List.any_eq_true.1 (hreached t ht)
      rw [← Guard.inProgress_congr hst, hfree s hs]
  exact ⟨by decide +kernel, hresult.2.1,
    hresult.2.2.2 fun t ht => UnitInfo.acyclic_of_layered hlayered (hreached t ht)⟩

end Resolver

end TestInputs
