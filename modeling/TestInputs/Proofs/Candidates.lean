/-
The values of a structured type, said without the procedure that makes them. Its data types are the type itself, its
declared subtypes and the named types that are assignable to it, each at its first place. The type itself gives its
instances; another data type gives what its registered strategy gives without null, or else its instances under a mark
of its own, or nothing if it bears a mark already. Instances come from the constructors that may be used and that are
chosen for the types of their own parameters, over all tuples of values of the parameters, unless the first tuple is
rejected. Null stands in front of all values, but only if there are any.

An expansion explores the values of parameters and the tiers of strategies as far as it was itself told to. `Source`
leaves open where they come from, so that the same description serves both for the exploration as it goes on, with any
registered strategies, and for separate requests, where strategies are registered under their own types.

Results:
- `usable_iff_selected`: the constructors that are used are those that alone accept the types of their parameters;
- `structuredValues_eq`: what is expanded is what is described, whatever strategies are registered;
- `Deep.agreeOn`: two explorations that go deep enough for a type find the same values;
- `candidates_requested`: what an expansion explores is what separate requests give;
- `structural_candidates_as_described`: both together, for sequences and for lists.
-/
import TestInputs.Proofs.Listing
import TestInputs.Proofs.Overloads

namespace TestInputs

namespace Sequence

variable {α β : Type}

/-- parts that are left out count as empty ones -/
theorem concat_filter (keep : β → Bool) (f : β → Sequence α) (parts : List β) :
    concat ((parts.filter keep).map f) = concat (parts.map fun b => if keep b then f b else .nil) := by
  induction parts with
  | nil => rfl
  | cons b parts ih =>
    cases hb : keep b with
    | true => simp only [List.filter_cons, hb, if_true, List.map_cons, concat, ih]
    | false => simp only [List.filter_cons, hb, Bool.false_eq_true, if_false, List.map_cons, concat, append, ih]

theorem complete_of_mem_concat {parts : List (Sequence α)} (h : (concat parts).Complete) {s : Sequence α}
    (hs : s ∈ parts) : s.Complete := by
  induction parts with
  | nil => cases hs
  | cons t parts ih =>
    rw [concat, complete_append] at h
    rcases List.mem_cons.1 hs with rfl | hs
    · exact h.1
    · exact ih h.2 hs

end Sequence

namespace Resolver

variable (r : Resolver) {inner : ShapeValues}

/-! ## Description -/

/-- where the values of types and the tiers of strategies come from -/
structure Source where
  values : TypeName → Context → Sequence Value
  tiers : Strategy → Context → Sequence Value

/-- from an exploration that continues in the given way -/
def explored (inner : ShapeValues) : Source where
  values ty ctx := (r.resolveWith inner anyValue ty ctx).1
  tiers s ctx := (r.union inner s ctx).1

/-- from requests, one for each type and each strategy -/
def requested : Source where
  values ty ctx := (r.resolve ty ctx).1
  tiers s ctx := (r.unionOf s ctx).1

/-- a type, its declared subtypes, and the named types that are assignable to it -/
def namedTypes (ty : TypeName) (ctx : Context) : List TypeName :=
  ty :: if r.config.useSubtypes then
    ((r.unit.typeInfo? ty).map TypeInfo.subtypes).getD [] ++
      ctx.referencedTypes.filter fun t => r.unit.hierarchy.isAssignable ty t
  else []

/-- a constructor with its index is used: arguments are allowed or it has none, and it is the only constructor of the
type that accepts the types of its own parameters -/
structure Selected (info : TypeInfo) (fallback : Bool) (k : Constructor × Nat) : Prop where
  allowed : fallback = true ∨ k.1.arity = 0
  sole : ∀ l ∈ info.constructors.zipIdx, l.1.acceptsTypes r.unit.hierarchy k.1.parameters = true → l.2 = k.2

instance (info : TypeInfo) (fallback : Bool) (k : Constructor × Nat) : Decidable (r.Selected info fallback k) :=
  decidable_of_iff (_ ∧ _) ⟨fun h => ⟨h.1, h.2⟩, fun h => ⟨h.allowed, h.sole⟩⟩

/-- the instances of a type by its constructors in order; unknown and abstract types have none -/
def instances (source : Source) (ty : TypeName) (ctx : Context) : Sequence Value :=
  match r.unit.typeInfo? ty with
  | some info =>
    if info.isAbstract then .nil
    else
      .concat ((info.constructors.zipIdx.filter fun k => r.Selected info ctx.structuralFallback k).map fun k =>
        k.1.instancesFrom info.ty k.2 (k.1.parameters.map fun p => source.values p ctx.nested))
  | none => .nil

/-- what one data type contributes to the values of a type -/
def candidates (source : Source) (ty : TypeName) (ctx : Context) (dataType : TypeName) : Sequence Value :=
  if dataType == ty then r.instances source dataType (ctx.marked ty)
  else
    match r.findStrategy? dataType ctx.chain with
    | some (_, s) => ((source.tiers s (ctx.marked ty)).filter nonNull).sampledBy (s.sampling.or r.config.sampling)
    | none =>
      if ctx.guard.inProgress dataType then .nil
      else r.instances source dataType ((ctx.marked ty).marked dataType)

/-! ## The expansion is as described -/

theorem dataTypes_eq (ty : TypeName) (ctx : Context) : r.dataTypes ty ctx = (r.namedTypes ty ctx).eraseDups := by
  unfold dataTypes namedTypes
  split_ifs
  · rfl
  · rfl

theorem usable_iff_selected {info : TypeInfo} {c : Constructor} {i : Nat} (hc : info.constructors[i]? = some c)
    (fallback : Bool) : r.usable info c fallback = true ↔ r.Selected info fallback (c, i) := by
  -- the constructor is used when it alone accepts what is made for its parameters, whatever that is
  let arguments := r.argumentsFor nothing c.parameters (.forType info.ty)
  have hmatches : ∀ d : Constructor, d.Matches r.unit.hierarchy arguments ↔
      d.acceptsTypes r.unit.hierarchy c.parameters = true := by
    intro d
    rw [← Constructor.accepts_iff, r.accepts_argumentsFor_eq]
  have hsole : info.SoleMatch r.unit.hierarchy arguments c i ↔
      ∀ l ∈ info.constructors.zipIdx, l.1.acceptsTypes r.unit.hierarchy c.parameters = true → l.2 = i := by
    constructor
    · intro h l hl haccepts
      exact h.sole l.2 l.1 (List.mem_zipIdx_iff_getElem?.1 hl) ((hmatches l.1).2 haccepts)
    · intro h
      refine ⟨hc, Constructor.accepts_iff.1 (r.accepts_argumentsFor _ c _), fun j d hd haccepts => ?_⟩
      exact h (d, j) (List.mem_zipIdx_iff_getElem?.2 hd) ((hmatches d).1 haccepts)
  have hcount : info.constructors.countP (·.acceptsTypes r.unit.hierarchy c.parameters) = 1 ↔
      info.accepting r.unit.hierarchy arguments = [(c, i)] := by
    rw [← r.length_accepting_argumentsFor nothing info r.unit.hierarchy c.parameters (.forType info.ty),
      List.length_eq_one_iff]
    constructor
    · rintro ⟨⟨c', j⟩, hone⟩
      obtain ⟨rfl, rfl⟩ := r.chosen_argumentsFor hc hone
      exact hone
    · intro hone
      exact ⟨_, hone⟩
  rw [TypeInfo.accepting_eq_singleton_iff, hsole] at hcount
  rw [usable, Bool.and_eq_true, beq_iff_eq, hcount, Bool.or_eq_true, beq_iff_eq]
  exact ⟨fun h => ⟨h.1, h.2⟩, fun h => ⟨h.allowed, h.sole⟩⟩

/-- a known type that is not abstract gives what its constructors give; without constructors that is nothing -/
theorem instantiations_concrete (h : ∀ shape, Context.Framed (inner shape)) {ty : TypeName} {info : TypeInfo}
    (hinfo : r.unit.typeInfo? ty = some info) (hconcrete : info.isAbstract = false) (ctx : Context) :
    (r.instantiations inner ty ctx).1 =
      .concat (info.constructors.map fun c => (r.constructorValues inner info c ctx).1) := by
  cases hi : info.isInstantiable with
  | true => exact r.instantiations_fst h hinfo hi ctx
  | false =>
    have hnone : info.constructors = [] := by simpa [TypeInfo.isInstantiable, hconcrete] using hi
    simp [instantiations, hinfo, hi, hnone, Sequence.concat]

theorem instantiations_eq (h : ∀ shape, Context.Framed (inner shape)) (ty : TypeName) (ctx : Context) :
    (r.instantiations inner ty ctx).1 = r.instances (r.explored inner) ty ctx := by
  cases hinfo : r.unit.typeInfo? ty with
  | none => simp only [instantiations, instances, hinfo]
  | some info =>
    simp only [instances, hinfo]
    split_ifs with habstract
    · simp [instantiations, hinfo, TypeInfo.isInstantiable, habstract]
    · rw [r.instantiations_concrete h hinfo (by simpa using habstract), Sequence.concat_filter]
      conv_lhs => rw [← List.zipIdx_map_fst 0 info.constructors, List.map_map]
      refine congrArg Sequence.concat (List.map_congr_left fun k hk => ?_)
      have hdeclared := List.mem_zipIdx_iff_getElem?.1 hk
      rw [Function.comp_apply, r.constructorValues_fst h hdeclared]
      simp only [r.usable_iff_selected hdeclared, decide_eq_true_eq]
      rfl

theorem dataTypeValues_eq (h : ∀ shape, Context.Framed (inner shape)) (ty d : TypeName) (ctx : Context) :
    (r.dataTypeValues inner ty d (ctx.marked ty)).1 = r.candidates (r.explored inner) ty ctx d := by
  cases hsame : d == ty with
  | true =>
    simp only [dataTypeValues, candidates, hsame, if_true]
    exact r.instantiations_eq h d (ctx.marked ty)
  | false =>
    have hmark : (ctx.marked ty).guard.inProgress d = ctx.guard.inProgress d := by
      rw [Context.marked, Guard.inProgress_cons, BEq.comm, hsame, Bool.false_or]
    simp only [dataTypeValues, candidates, hsame, Bool.false_eq_true, if_false]
    cases hs : r.findStrategy? d ctx.chain with
    | some found =>
      have hfound : r.findStrategy? d (ctx.marked ty).chain = some found := hs
      rw [r.subtypeValues_registered hfound]
      rfl
    | none =>
      have hfound : r.findStrategy? d (ctx.marked ty).chain = none := hs
      dsimp only
      split_ifs with hp
      · rw [r.subtypeValues_refused hfound (hmark.trans hp)]
      · rw [r.subtypeValues_expanded h hfound (hmark.trans (by simpa using hp)), r.instantiations_eq h]

/-- **The expansion is as described**, with whatever strategies, and however the exploration continues. -/
theorem structuredValues_eq (h : ∀ shape, Context.Framed (inner shape)) {ty : TypeName} {ctx : Context}
    (hp : ctx.guard.inProgress ty = false) :
    (r.structuredValues inner ty ctx).1 =
      orNull (.concat ((r.namedTypes ty ctx).eraseDups.map (r.candidates (r.explored inner) ty ctx))) := by
  rw [r.structuredValues_expanded h hp, r.dataTypes_eq]
  simp only [r.dataTypeValues_eq h]

/-! ## Explorations that go deep enough -/

/-- more levels than a type weighs in a context -/
def Deep (n : Nat) (ty : TypeName) (ctx : Context) : Prop :=
  ∃ types limit, r.Surveys types limit ctx ∧ InRange types limit ty ∧ weight types limit ty ctx < n

theorem deep_depth (ty : TypeName) (ctx : Context) : r.Deep (r.depth ty ctx) ty ctx :=
  ⟨_, _, r.surveys_mentioned ty ctx, r.inRange_mentioned (List.mem_append_left _ List.mem_cons_self),
    r.weight_lt_depth ty ctx⟩

variable {r} {n : Nat} {ty d : TypeName} {ctx : Context}

theorem Deep.congr (h : r.Deep n ty ctx) (hd : (ty == d) = true) : r.Deep n d ctx := by
  obtain ⟨types, limit, hsurveys, hrange, hweight⟩ := h
  have hsame : weight types limit d ctx = weight types limit ty ctx := by
    simp only [weight, ((TypeName.beq_iff _ _).1 hd).2]
  exact ⟨types, limit, hsurveys, hrange.congr hd, hsame ▸ hweight⟩

/-- what is deep enough for a shape is deep enough for all that the shape needs -/
theorem Deep.needs {shape : Shape} {c : Context} {t : TypeName} (h : r.Deep n shape.target ctx)
    (hneeds : r.Needs shape ctx t c) : r.Deep n t c := by
  obtain ⟨types, limit, hsurveys, hrange, hweight⟩ := h
  obtain ⟨hrange', hsurveys'⟩ := needs_range hsurveys hrange hneeds
  exact ⟨types, limit, hsurveys', hrange', Nat.lt_trans (needs_weight hsurveys hrange hneeds) hweight⟩

theorem Deep.agreeOn_above (hown : r.lookup.OwnTargets) (h : r.Deep n ty ctx) (inner : ShapeValues) :
    r.AgreeOn (r.above inner n) (r.shapeValues n) ty ctx := by
  obtain ⟨types, limit, hsurveys, hrange, hweight⟩ := h
  exact r.agreeOn_above hown inner hsurveys hrange hweight

/-- **Deep enough is deep enough.** Two explorations that are deep enough for a type agree on it. -/
theorem Deep.agreeOn (hown : r.lookup.OwnTargets) {m : Nat} (hm : r.Deep m ty ctx) (hn : r.Deep n ty ctx) :
    r.AgreeOn (r.shapeValues m) (r.shapeValues n) ty ctx := by
  intro shape hshape
  calc r.shapeValues m shape ctx
      = r.above (r.above nothing n) m shape ctx := (hm.agreeOn_above hown _ shape hshape).symm
    _ = r.above (r.above nothing m) n shape ctx := by rw [r.above_add, r.above_add, Nat.add_comm]
    _ = r.shapeValues n shape ctx := hn.agreeOn_above hown _ shape hshape

theorem values_explored (hown : r.lookup.OwnTargets) (h : r.Deep n ty ctx) :
    (r.explored (r.shapeValues n)).values ty ctx = r.requested.values ty ctx :=
  congrArg Prod.fst (r.resolveWith_congr (h.agreeOn hown (r.deep_depth ty ctx)) anyValue)

theorem tiers_explored (hown : r.lookup.OwnTargets) (h : r.Deep n d ctx) {key : ScopeKey} {s : Strategy}
    (hs : r.findStrategy? d ctx.chain = some (key, s)) :
    (r.explored (r.shapeValues n)).tiers s ctx = r.requested.tiers s ctx := by
  have hstrategy : r.strategyFor d ctx = s := r.strategyFor_of_findStrategy hs
  have htarget : (s.target == d) = true := by
    rw [← hstrategy]
    exact r.target_strategyFor hown d ctx
  have hdepth : r.Deep (r.depth s.target ctx) d ctx := (r.deep_depth s.target ctx).congr htarget
  refine congrArg Prod.fst (r.union_congr fun shape hshape => ?_)
  exact h.agreeOn hown hdepth shape (by rw [hstrategy]; exact hshape)

/-! ## Requests -/

theorem instances_congr {source source' : Source} {d : TypeName} {ctx : Context}
    (h : ∀ info c p, r.unit.typeInfo? d = some info → c ∈ info.constructors → p ∈ c.parameters →
      source.values p ctx.nested = source'.values p ctx.nested) :
    r.instances source d ctx = r.instances source' d ctx := by
  cases hinfo : r.unit.typeInfo? d with
  | none => simp only [instances, hinfo]
  | some info =>
    have hvalues : ∀ k ∈ info.constructors.zipIdx.filter fun k => r.Selected info ctx.structuralFallback k,
        k.1.parameters.map (fun p => source.values p ctx.nested) =
          k.1.parameters.map fun p => source'.values p ctx.nested := by
      intro k hk
      have hdeclared := List.mem_zipIdx_iff_getElem?.1 (List.mem_filter.1 hk).1
      exact List.map_congr_left fun p hp => h info k.1 p hinfo (List.mem_of_getElem? hdeclared) hp
    simp only [instances, hinfo]
    rw [List.map_congr_left fun k hk => by rw [hvalues k hk]]

/-- **What an expansion explores is what requests give**, for each of its data types. -/
theorem candidates_requested (hown : r.lookup.OwnTargets) (hp : ctx.guard.inProgress ty = false)
    (hd : d ∈ r.dataTypes ty ctx) :
    r.candidates (r.explored (r.levels ty ctx)) ty ctx d = r.candidates r.requested ty ctx d := by
  have hdeep : r.Deep (r.depth ty ctx) (Shape.structured ty).target ctx := r.deep_depth ty ctx
  have hinstances : ∀ opened, Opens ty ctx d opened →
      r.instances (r.explored (r.levels ty ctx)) d opened = r.instances r.requested d opened := by
    intro opened hopens
    refine instances_congr fun info c p hinfo hc hp' => ?_
    exact values_explored hown (hdeep.needs (.argument hp hd hopens hinfo hc hp'))
  cases hsame : d == ty with
  | true =>
    simp only [candidates, hsame, if_true]
    exact hinstances _ (.self hsame)
  | false =>
    simp only [candidates, hsame, Bool.false_eq_true, if_false]
    cases hs : r.findStrategy? d ctx.chain with
    | some found =>
      have htiers := tiers_explored hown (hdeep.needs (.subtype hp hd rfl)) hs
      simp only [levels, htiers]
    | none =>
      dsimp only
      split_ifs with hmarked
      · rfl
      · refine hinstances _ (.subtype hsame ?_)
        rw [Context.marked, Guard.inProgress_cons, BEq.comm, hsame, Bool.false_or]
        simpa using hmarked

/-- an expansion gives nothing up -/
theorem complete_structuralCandidates (hown : r.lookup.OwnTargets) (ty : TypeName) (ctx : Context) :
    (r.structuralCandidates ty ctx).1.Complete := by
  have hdeep : r.Deep (r.depth ty ctx) (Shape.structured ty).target ctx := r.deep_depth ty ctx
  have hlevels : r.shapeStep (r.above nothing (r.depth ty ctx)) (.structured ty) ctx =
      r.structuralCandidates ty ctx :=
    r.shapeStep_congr (r.framed_shapeValues _) fun t c hneeds => (hdeep.needs hneeds).agreeOn_above hown nothing
  rw [← hlevels]
  exact r.complete_shapeStep (r.regular_above regular_nothing _) _ ctx

theorem complete_orNull {values : Sequence Value} : (orNull values).Complete ↔ values.Complete := by
  cases values <;> exact Iff.rfl

theorem toList_orNull {values : Sequence Value} (h : values.Complete) :
    (orNull values).toList = nullFirst values.toList := by
  cases values with
  | nil => rfl
  | cut => exact h.elim
  | cons v t => rfl

theorem structuralCandidates_eq (hp : ctx.guard.inProgress ty = false) :
    (r.structuralCandidates ty ctx).1 = orNull (.concat
      ((r.namedTypes ty ctx).eraseDups.map (r.candidates (r.explored (r.levels ty ctx)) ty ctx))) :=
  r.structuredValues_eq (r.framed_shapeValues (r.depth ty ctx)) hp

theorem toList_structuralCandidates (hp : ctx.guard.inProgress ty = false)
    (hparts : ∀ d ∈ (r.namedTypes ty ctx).eraseDups,
      (r.candidates (r.explored (r.levels ty ctx)) ty ctx d).Complete) :
    (r.structuralCandidates ty ctx).1.toList = nullFirst ((r.namedTypes ty ctx).eraseDups.flatMap fun d =>
      (r.candidates (r.explored (r.levels ty ctx)) ty ctx d).toList) := by
  have hall := List.forall_mem_map.2 hparts
  rw [structuralCandidates_eq hp, toList_orNull (Sequence.complete_concat hall), Sequence.toList_concat hall,
    List.flatMap_map]

theorem toList_instances {source : Source} {d : TypeName} {info : TypeInfo} (hinfo : r.unit.typeInfo? d = some info)
    (hconcrete : info.isAbstract = false) {ctx : Context}
    (hvalues : ∀ c ∈ info.constructors, ∀ p ∈ c.parameters, (source.values p ctx.nested).Complete) :
    (r.instances source d ctx).toList =
      (info.constructors.zipIdx.filter fun k => r.Selected info ctx.structuralFallback k).flatMap fun k =>
        k.1.instancesOver info.ty k.2 (k.1.parameters.map fun p => (source.values p ctx.nested).toList) := by
  have hcomplete : ∀ k ∈ info.constructors.zipIdx.filter fun k => r.Selected info ctx.structuralFallback k,
      ∀ s ∈ k.1.parameters.map (fun p => source.values p ctx.nested), s.Complete := by
    intro k hk s hs
    obtain ⟨p, hp, rfl⟩ := List.mem_map.1 hs
    have hdeclared := List.mem_zipIdx_iff_getElem?.1 (List.mem_filter.1 hk).1
    exact hvalues k.1 (List.mem_of_getElem? hdeclared) p hp
  simp only [instances, hinfo, hconcrete, Bool.false_eq_true, if_false]
  rw [Sequence.toList_concat, List.flatMap_map]
  · refine List.flatMap_congr fun k hk => ?_
    rw [Constructor.toList_instancesFrom _ _ _ (hcomplete k hk), List.map_map]
    rfl
  · intro s hs
    obtain ⟨k, hk, rfl⟩ := List.mem_map.1 hs
    exact k.1.complete_instancesFrom info.ty k.2 (hcomplete k hk)

/-- **The values of a structured type are as described.** Inside an expansion of the type they are null alone, and that
is reported. Otherwise they are null in front of what its data types contribute, nothing if that is nothing; this holds
of the sequences with whatever strategies. It holds of the lists as well if what was explored for the data types is
complete, and the instances of a known type that is not abstract are those of its selected constructors if the values of
their parameters are. With strategies under their own types everything is complete, and the same holds in terms of
separate requests. -/
theorem structural_candidates_as_described (r : Resolver) (ty : TypeName) (ctx : Context) :
    (ctx.guard.inProgress ty = true →
      r.structuralCandidates ty ctx = (.once .null, ctx.report (.cycleTruncated ty))) ∧
    (ctx.guard.inProgress ty = false →
      (r.structuralCandidates ty ctx).1 = orNull (.concat
        ((r.namedTypes ty ctx).eraseDups.map (r.candidates (r.explored (r.levels ty ctx)) ty ctx)))) ∧
    (ctx.guard.inProgress ty = false →
      (∀ d ∈ (r.namedTypes ty ctx).eraseDups, (r.candidates (r.explored (r.levels ty ctx)) ty ctx d).Complete) →
      (r.structuralCandidates ty ctx).1.toList = nullFirst ((r.namedTypes ty ctx).eraseDups.flatMap fun d =>
        (r.candidates (r.explored (r.levels ty ctx)) ty ctx d).toList)) ∧
    (∀ source d c info, r.unit.typeInfo? d = some info → info.isAbstract = false →
      (∀ k ∈ info.constructors, ∀ p ∈ k.parameters, (source.values p c.nested).Complete) →
      (r.instances source d c).toList =
        (info.constructors.zipIdx.filter fun k => r.Selected info c.structuralFallback k).flatMap fun k =>
          k.1.instancesOver info.ty k.2 (k.1.parameters.map fun p => (source.values p c.nested).toList)) ∧
    (r.lookup.OwnTargets →
      (ctx.guard.inProgress ty = false →
        (r.structuralCandidates ty ctx).1.Complete ∧
        (r.structuralCandidates ty ctx).1.toList = nullFirst
          ((r.namedTypes ty ctx).eraseDups.flatMap fun d => (r.candidates r.requested ty ctx d).toList)) ∧
      ∀ d c info, r.unit.typeInfo? d = some info → info.isAbstract = false →
        (r.instances r.requested d c).toList =
          (info.constructors.zipIdx.filter fun k => r.Selected info c.structuralFallback k).flatMap fun k =>
            k.1.instancesOver info.ty k.2 (k.1.parameters.map fun p => (r.resolve p c.nested).1.toList)) := by
  refine ⟨r.structuredValues_refused, structuralCandidates_eq, toList_structuralCandidates, ?_,
    fun hown => ⟨fun hp => ?_, ?_⟩⟩
  · intro source d c info hinfo hconcrete hvalues
    exact toList_instances hinfo hconcrete hvalues
  · have hcomplete := complete_structuralCandidates hown ty ctx
    have hparts : ∀ d ∈ (r.namedTypes ty ctx).eraseDups,
        (r.candidates (r.explored (r.levels ty ctx)) ty ctx d).Complete := by
      intro d hd
      rw [structuralCandidates_eq hp, complete_orNull] at hcomplete
      exact Sequence.complete_of_mem_concat hcomplete (List.mem_map_of_mem hd)
    refine ⟨hcomplete, ?_⟩
    rw [toList_structuralCandidates hp hparts]
    refine congrArg nullFirst (List.flatMap_congr fun d hd => ?_)
    rw [← r.dataTypes_eq] at hd
    rw [candidates_requested hown hp hd]
  · intro d c info hinfo hconcrete
    exact toList_instances hinfo hconcrete fun _ _ p _ => r.complete_resolveWhere hown anyValue p c.nested

/-! Vehicles of a garage. A vehicle is made from nothing or from another vehicle; one constructor rejects its arguments,
and two others accept the same ones. Bikes have a strategy, trucks are being expanded, and a van is named by a
literal. -/

def vehicleUnit : UnitInfo :=
  { declaring := ⟨"Garage", "", 0⟩
    types :=
      [{ ty := ⟨"Vehicle", "", 0⟩
         constructors :=
          [⟨[], none⟩, ⟨[⟨"boolean", "", 0⟩], some fun _ => .error ⟨"no engine"⟩⟩, ⟨[⟨"Vehicle", "", 0⟩], none⟩,
            ⟨[⟨"char", "", 0⟩], none⟩, ⟨[⟨"char", "", 0⟩], none⟩]
         subtypes := [⟨"Bike", "", 0⟩, ⟨"Truck", "", 0⟩, ⟨"Trailer", "", 0⟩] },
       { ty := ⟨"Bike", "", 0⟩, constructors := [⟨[⟨"int", "", 0⟩], none⟩] },
       { ty := ⟨"Truck", "", 0⟩, constructors := [⟨[], none⟩] },
       { ty := ⟨"Trailer", "", 0⟩, constructors := [⟨[], none⟩], supertypes := [⟨"Vehicle", "", 0⟩] },
       { ty := ⟨"Van", "", 0⟩, constructors := [⟨[⟨"Vehicle", "", 0⟩], none⟩], supertypes := [⟨"Vehicle", "", 0⟩] }] }

/-- null and a bike of size three -/
def bikeCatalog : Catalog :=
  ⟨[.ofStrategy .everywhere <| .custom
    { target := ⟨"Bike", "", 0⟩, localValues := [.null, .object ⟨"Bike", "", 0⟩ 0 [.int 3]], useDefaults := false }]⟩

def vehicleResolver : Resolver := .make bikeCatalog.lookup vehicleUnit {}

/-- inside an expansion of a truck -/
def truckContext : Context :=
  { Context.forType ⟨"Garage", "", 0⟩ with
    guard := ⟨[⟨"Truck", "", 0⟩]⟩
    typeLiterals := LiteralTable.empty.insertReference ⟨"Van", "", 0⟩ }

theorem vehicles_as_described :
    truckContext.guard.inProgress ⟨"Truck", "", 0⟩ = true ∧
    vehicleResolver.structuralCandidates ⟨"Truck", "", 0⟩ truckContext =
      (.once .null, truckContext.report (.cycleTruncated ⟨"Truck", "", 0⟩)) ∧
    truckContext.guard.inProgress ⟨"Vehicle", "", 0⟩ = false ∧ vehicleResolver.lookup.OwnTargets ∧
    (vehicleResolver.structuralCandidates ⟨"Vehicle", "", 0⟩ truckContext).1.toList = nullFirst
      ((vehicleResolver.namedTypes ⟨"Vehicle", "", 0⟩ truckContext).eraseDups.flatMap fun d =>
        (vehicleResolver.candidates vehicleResolver.requested ⟨"Vehicle", "", 0⟩ truckContext d).toList) ∧
    ((vehicleResolver.structuralCandidates ⟨"Vehicle", "", 0⟩ truckContext).1.toList ==
      [.null, .object ⟨"Vehicle", "", 0⟩ 0 [], .object ⟨"Vehicle", "", 0⟩ 2 [.null], .object ⟨"Bike", "", 0⟩ 0 [.int 3],
        .object ⟨"Trailer", "", 0⟩ 0 [], .object ⟨"Van", "", 0⟩ 0 [.null]]) = true ∧
    ((vehicleResolver.instances vehicleResolver.requested ⟨"Truck", "", 0⟩ truckContext).toList ==
      [.object ⟨"Truck", "", 0⟩ 0 []]) = true := by
  have hown : vehicleResolver.lookup.OwnTargets := Catalog.ownTargets (List.forall_mem_singleton.2 (.ofStrategy _ _))
  obtain ⟨hrefused, -⟩ := structural_candidates_as_described vehicleResolver ⟨"Truck", "", 0⟩ truckContext
  obtain ⟨-, -, -, -, hlists⟩ := structural_candidates_as_described vehicleResolver ⟨"Vehicle", "", 0⟩ truckContext
  obtain ⟨hvalues, hinstances⟩ := hlists hown
  refine ⟨by decide, hrefused (by decide), by decide, hown, (hvalues (by decide)).2, by decide +kernel, ?_⟩
  rw [hinstances ⟨"Truck", "", 0⟩ truckContext _ rfl rfl]
  decide +kernel

end Resolver

end TestInputs
