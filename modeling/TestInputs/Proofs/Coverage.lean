/-
Sampling never costs coverage. Whether a constructor can be used, whether a type has values and what is reported are all
decided before any cursor moves, from the elements in front. A sample keeps the element in front, and where null is not
wanted it is filtered out before the sample is taken. So two runs that differ in the sampling of the settings show the
same in front of every sequence, although behind it they may have nothing in common.

One thing has to be carried along: the values of a structured type have null in front, and a receiver or a subtype with
a strategy of its own asks for the first value that is not null. `LooksAlike` therefore compares two sequences twice,
with and without their nulls. It holds for the default values on every level, but not for samples of them, and need not:
no sample is filtered again.

Results:
- `sameHead_product`, `sameHead_sampledBy`: products and samples show what their parts show;
- `instantiate_alike`: a constructor fails alike, or its first instances are the same;
- `looksAlike_shapeValues`: on every level two runs look alike and report the same, whatever strategies are registered;
- `sampling_keeps_coverage`: the statement for the tuples of every operation.
-/
import TestInputs.Hook
import TestInputs.Proofs.Levels
import TestInputs.Tuples

namespace TestInputs

variable {α β γ : Type}

/-! ## Heads -/

namespace Sequence

/-- two sequences that cannot be told apart before the first move -/
inductive SameHead : Sequence α → Sequence α → Prop
  | nil : SameHead nil nil
  | cut : SameHead cut cut
  | cons (a : α) (t u : Unit → Sequence α) : SameHead (cons a t) (cons a u)

theorem SameHead.refl (s : Sequence α) : SameHead s s := by
  cases s with
  | nil => exact .nil
  | cut => exact .cut
  | cons a t => exact .cons a t t

theorem SameHead.symm {s t : Sequence α} (h : SameHead s t) : SameHead t s := by
  cases h with
  | nil => exact .nil
  | cut => exact .cut
  | cons a t u => exact .cons a u t

theorem SameHead.trans {s t u : Sequence α} (h : SameHead s t) (k : SameHead t u) : SameHead s u := by
  cases h with
  | nil => exact k
  | cut => exact k
  | cons a t _ =>
    cases k with
    | cons _ _ v => exact .cons a t v

theorem SameHead.element? {s t : Sequence α} (h : SameHead s t) : s.element? = t.element? := by
  cases h <;> rfl

theorem SameHead.map {s t : Sequence α} (h : SameHead s t) (f : α → β) : SameHead (s.map f) (t.map f) := by
  cases h with
  | nil => exact .nil
  | cut => exact .cut
  | cons a t u => exact .cons _ _ _

theorem SameHead.append {s t : Sequence α} (h : SameHead s t) {rest rest' : Unit → Sequence α}
    (hr : SameHead (rest ()) (rest' ())) : SameHead (s.append rest) (t.append rest') := by
  cases h with
  | nil => exact hr
  | cut => exact .cut
  | cons a t u => exact .cons _ _ _

theorem filter_append (p : α → Bool) (s : Sequence α) (rest : Unit → Sequence α) :
    (s.append rest).filter p = (s.filter p).append fun _ => (rest ()).filter p := by
  induction s with
  | nil => rfl
  | cut => rfl
  | cons a t ih =>
    simp only [append, filter]
    split_ifs with hp
    · simp only [append, ih]
    · exact ih ()

/-- the element in front stays in front of a sample -/
theorem sameHead_sampledBy (sampling : Option Sampling) (s : Sequence α) : SameHead (s.sampledBy sampling) s := by
  cases sampling with
  | none => exact .refl s
  | some sampling =>
    cases s with
    | nil => exact .nil
    | cut => exact .cut
    | cons a t =>
      simp only [sampledBy, sampled]
      split_ifs
      · exact .refl _
      · exact .cons _ _ _

end Sequence

open Sequence (SameHead sameHead_sampledBy filter_append)

namespace Odometer

/-- dimensions with equal heads are mounted alike and show the same reading -/
theorem mount_alike {ds es : List (Dimension α)} (h : List.Forall₂ (fun d e => SameHead d.first e.first) ds es) :
    (mount ds = .stopped ∧ mount es = .stopped) ∨ (mount ds = .cut ∧ mount es = .cut) ∨
      ∃ ws vs, mount ds = .running ws ∧ mount es = .running vs ∧ reading ws = reading vs := by
  induction h with
  | nil => exact Or.inr (Or.inr ⟨[], [], rfl, rfl, rfl⟩)
  | @cons d e ds es hde _ ih =>
    simp only [mount]
    generalize d.first = s at hde
    generalize e.first = t at hde
    cases hde with
    | nil => exact Or.inl ⟨rfl, rfl⟩
    | cut => exact Or.inr (Or.inl ⟨rfl, rfl⟩)
    | cons a t u =>
      rcases ih with ⟨hd, he⟩ | ⟨hd, he⟩ | ⟨ws, vs, hd, he, hread⟩
      · exact Or.inl ⟨by rw [hd]; rfl, by rw [he]; rfl⟩
      · exact Or.inr (Or.inl ⟨by rw [hd]; rfl, by rw [he]; rfl⟩)
      · refine Or.inr (Or.inr ⟨_, _, by rw [hd]; rfl, by rw [he]; rfl, ?_⟩)
        simp only [reading, List.map_cons] at hread ⊢
        rw [hread]

end Odometer

theorem Sequence.sameHead_product {ds es : List (Dimension α)}
    (h : List.Forall₂ (fun d e => SameHead d.first e.first) ds es) : SameHead (product ds) (product es) := by
  unfold product
  rcases Odometer.mount_alike h with ⟨hd, he⟩ | ⟨hd, he⟩ | ⟨ws, vs, hd, he, hread⟩
  · rw [hd, he]
    exact .nil
  · rw [hd, he]
    exact .cut
  · rw [hd, he]
    simp only
    rw [Odometer.readings_eq ws, Odometer.readings_eq vs, hread]
    exact .cons _ _ _

/-! ## Heads without null -/

open Resolver (nonNull anyValue)

/-- null is not in front -/
def StartsNonNull (s : Sequence Value) : Prop := ∀ v, s.element? = some v → v.isNull = false

/-- equal heads, and not null -/
def SameStart (s t : Sequence Value) : Prop := SameHead s t ∧ StartsNonNull s

/-- equal heads, also without the nulls -/
def LooksAlike (s t : Sequence Value) : Prop :=
  SameHead s t ∧ SameHead (s.filter nonNull) (t.filter nonNull)

theorem LooksAlike.refl (s : Sequence Value) : LooksAlike s s := ⟨.refl s, .refl _⟩

theorem LooksAlike.append (s : Sequence Value) {rest rest' : Unit → Sequence Value}
    (h : LooksAlike (rest ()) (rest' ())) : LooksAlike (s.append rest) (s.append rest') := by
  refine ⟨(SameHead.refl s).append h.1, ?_⟩
  rw [filter_append, filter_append]
  exact (SameHead.refl _).append h.2

/-- a head that is not null is the head without the nulls, too -/
theorem SameStart.looksAlike {s t : Sequence Value} (h : SameStart s t) : LooksAlike s t := by
  refine ⟨h.1, ?_⟩
  obtain ⟨hhead, hstart⟩ := h
  cases hhead with
  | nil => exact .nil
  | cut => exact .cut
  | cons a t u =>
    have ha : nonNull a = true := by simp [nonNull, hstart a rfl]
    simp only [Sequence.filter, ha, if_true]
    exact .cons _ _ _

theorem sameStart_nil : SameStart .nil .nil := ⟨.nil, fun v hv => by cases hv⟩

theorem SameStart.append {s t : Sequence Value} (h : SameStart s t) {rest rest' : Unit → Sequence Value}
    (hr : SameStart (rest ()) (rest' ())) : SameStart (s.append rest) (t.append rest') := by
  refine ⟨h.1.append hr.1, ?_⟩
  obtain ⟨hhead, hstart⟩ := h
  cases hhead with
  | nil => exact hr.2
  | cut => exact hstart
  | cons a t u => exact hstart

theorem sameStart_concat {parts parts' : List (Sequence Value)} (h : List.Forall₂ SameStart parts parts') :
    SameStart (.concat parts) (.concat parts') := by
  induction h with
  | nil => exact sameStart_nil
  | cons hs _ ih => exact hs.append ih

theorem startsNonNull_filter (s : Sequence Value) : StartsNonNull (s.filter nonNull) := by
  intro v hv
  rw [Sequence.element?_eq_head?, Sequence.toList_filter] at hv
  have hmem := List.mem_of_head? hv
  simpa [nonNull] using (List.mem_filter.1 hmem).2

/-- putting null in front of values hides nothing -/
theorem SameStart.looksAlike_orNull {s t : Sequence Value} (h : SameStart s t) :
    LooksAlike (Resolver.orNull s) (Resolver.orNull t) := by
  have hvalues := h.looksAlike.2
  obtain ⟨hhead, -⟩ := h
  cases hhead with
  | nil => exact .refl _
  | cut => exact .refl _
  | cons a t u => exact ⟨.cons _ _ _, hvalues⟩

/-- predicates under which sequences that look alike have equal heads -/
def Respectful (keep : Value → Bool) : Prop := ∀ s t, LooksAlike s t → SameHead (s.filter keep) (t.filter keep)

theorem respectful_nonNull : Respectful nonNull := fun _ _ h => h.2

theorem respectful_anyValue : Respectful anyValue := by
  intro s t h
  cases h.1 with
  | nil => exact .nil
  | cut => exact .cut
  | cons a t u => exact .cons _ _ _

/-! ## Actions -/

namespace Context

/-- two actions that lead to the same context from everywhere, with results that are related -/
def Alike (R : α → β → Prop) (f : Context → α × Context) (g : Context → β × Context) : Prop :=
  ∀ ctx, R (f ctx).1 (g ctx).1 ∧ (f ctx).2 = (g ctx).2

theorem alike_traverse {R : α → β → Prop} {f : γ → Context → α × Context} {g : γ → Context → β × Context}
    (as : List γ) (h : ∀ a ∈ as, Alike R (f a) (g a)) : Alike (List.Forall₂ R) (traverse f as) (traverse g as) := by
  induction as with
  | nil => exact fun ctx => ⟨.nil, rfl⟩
  | cons a as ih =>
    intro ctx
    obtain ⟨hhead, hctx⟩ := h a List.mem_cons_self ctx
    have htail := ih (fun b hb => h b (List.mem_cons_of_mem _ hb)) (f a ctx).2
    simp only [traverse]
    rw [← hctx]
    exact ⟨.cons hhead htail.1, htail.2⟩

/-- an expansion is refused in both actions or runs in both -/
theorem alike_expand {R : α → β → Prop} {f : Context → α × Context} {g : Context → β × Context} (h : Alike R f g)
    (ty : TypeName) (ctx : Context) :
    (ctx.expand ty f = (none, ctx) ∧ ctx.expand ty g = (none, ctx)) ∨
      ∃ a b c, ctx.expand ty f = (some a, c) ∧ ctx.expand ty g = (some b, c) ∧ R a b := by
  unfold expand
  cases ctx.guard.enter? ty with
  | none => exact Or.inl ⟨rfl, rfl⟩
  | some guard =>
    obtain ⟨hvalues, hctx⟩ := h { ctx with guard }
    refine Or.inr ⟨_, _, _, rfl, ?_, hvalues⟩
    simp only [hctx]

end Context

open Context (Alike alike_traverse alike_expand)

/-! ## Instances -/

/-- arguments that match alike and have equal heads -/
def Argument.Alike (x y : Argument) : Prop := x.type? = y.type? ∧ SameHead x.dimension.first y.dimension.first

theorem Argument.Alike.fits {x y : Argument} (h : Argument.Alike x y) (hierarchy : Hierarchy) (parameter : TypeName) :
    x.fits hierarchy parameter = y.fits hierarchy parameter := by
  simp only [Argument.fits, h.1]

namespace TypeInfo

variable {arguments arguments' : List Argument}

theorem describe_alike (h : List.Forall₂ Argument.Alike arguments arguments') :
    Argument.describe arguments = Argument.describe arguments' := by
  have htypes : (arguments.map fun a => (a.type?.map TypeName.text).getD "null") =
      arguments'.map fun a => (a.type?.map TypeName.text).getD "null" := by
    induction h with
    | nil => rfl
    | cons hxy _ ih => rw [List.map_cons, List.map_cons, hxy.1, ih]
  rw [Argument.describe, htypes, Argument.describe]

theorem accepting_alike (info : TypeInfo) (h : Hierarchy) (ha : List.Forall₂ Argument.Alike arguments arguments') :
    info.accepting h arguments = info.accepting h arguments' := by
  have hfits : ∀ parameters : List TypeName, ((parameters.zip arguments).all fun p => p.2.fits h p.1) =
      (parameters.zip arguments').all fun p => p.2.fits h p.1 := by
    induction ha with
    | nil => exact fun _ => rfl
    | cons hxy _ ih =>
      intro parameters
      cases parameters with
      | nil => rfl
      | cons p parameters => simp only [List.zip_cons_cons, List.all_cons, hxy.fits, ih]
  unfold accepting
  congr 1
  funext c
  simp only [Constructor.accepts, ha.length_eq, hfits]

/-- **A constructor fails alike, or its first instances are the same.** It is tried on the first tuple, and that is the
same in both runs. -/
theorem instantiate_alike (info : TypeInfo) (h : Hierarchy) (ha : List.Forall₂ Argument.Alike arguments arguments') :
    (∃ e, info.instantiate h arguments = .error e ∧ info.instantiate h arguments' = .error e) ∨
      ∃ i j, info.instantiate h arguments = .ok i ∧ info.instantiate h arguments' = .ok j ∧
        SameHead i.instances j.instances := by
  have hproduct : SameHead (.product (arguments.map Argument.dimension))
      (.product (arguments'.map Argument.dimension)) := by
    refine Sequence.sameHead_product ?_
    rw [List.forall₂_map_left_iff, List.forall₂_map_right_iff]
    exact ha.imp fun _ _ hxy => hxy.2
  unfold instantiate
  rw [accepting_alike info h ha, describe_alike ha]
  split
  · exact Or.inl ⟨_, rfl, rfl⟩
  · rename_i c index _
    unfold instancesOf
    generalize Sequence.product (arguments.map Argument.dimension) = s at hproduct
    generalize Sequence.product (arguments'.map Argument.dimension) = t at hproduct
    cases hproduct with
    | nil => exact Or.inl ⟨_, rfl, rfl⟩
    | cut => exact Or.inr ⟨_, _, rfl, rfl, .cut⟩
    | cons first t u =>
      dsimp only
      cases hb : c.build info.ty index first with
      | error failure => exact Or.inl ⟨_, rfl, rfl⟩
      | ok v =>
        refine Or.inr ⟨_, _, rfl, rfl, ?_⟩
        simp only [Sequence.filterMap, hb, Except.toOption]
        exact .cons _ _ _
  · exact Or.inl ⟨_, rfl, rfl⟩

end TypeInfo

/-- no construct hook of the unit makes null -/
def UnitInfo.HooksNonNull (u : UnitInfo) : Prop :=
  ∀ info ∈ u.types, ∀ c ∈ info.constructors, ∀ hook, c.hook = some hook →
    ∀ arguments v, hook arguments = .ok v → v.isNull = false

theorem Constructor.nonNull_of_build {c : Constructor} {ty : TypeName} {index : Nat} {arguments : List Value}
    {v : Value} (hhook : ∀ hook, c.hook = some hook → ∀ arguments v, hook arguments = .ok v → v.isNull = false)
    (hb : c.build ty index arguments = .ok v) : v.isNull = false := by
  unfold build at hb
  split at hb
  · rename_i hook hc
    exact hhook hook hc arguments v hb
  · cases hb
    rfl

theorem startsNonNull_instances {info : TypeInfo} {h : Hierarchy} {arguments : List Argument} {i : Instantiation}
    (hhooks : ∀ c ∈ info.constructors, ∀ hook, c.hook = some hook →
      ∀ arguments v, hook arguments = .ok v → v.isNull = false)
    (hi : info.instantiate h arguments = .ok i) : StartsNonNull i.instances := by
  obtain ⟨c, index, haccept, hi⟩ := Resolver.instantiate_ok hi
  have hmem : (c, index) ∈ info.accepting h arguments := by
    rw [haccept]
    exact List.mem_singleton_self _
  have hc : c ∈ info.constructors := by
    have hz := List.mem_zipIdx_iff_getElem?.1 (List.mem_filter.1 hmem).1
    exact List.mem_of_getElem? hz
  intro v hv
  rw [Resolver.instances_eq hi, Sequence.element?_eq_head?, Sequence.toList_filterMap] at hv
  obtain ⟨tuple, _, hb⟩ := List.mem_filterMap.1 (List.mem_of_head? hv)
  cases hbuild : c.build info.ty index tuple with
  | error failure => simp [hbuild, Except.toOption] at hb
  | ok w =>
    have hw : w = v := by simpa [hbuild, Except.toOption] using hb
    rw [← hw]
    exact Constructor.nonNull_of_build (hhooks c hc) hbuild

/-! ## One level -/

namespace Resolver

/-- the resolver with another sampling in its settings -/
def withSampling (r : Resolver) (sampling : Option Sampling) : Resolver :=
  { r with config := { r.config with sampling } }

variable (r : Resolver) (a b : Option Sampling) {inner inner' : ShapeValues}

theorem alike_union (h : ∀ shape, Alike LooksAlike (inner shape) (inner' shape)) (s : Strategy) :
    Alike LooksAlike ((r.withSampling a).union inner s) ((r.withSampling b).union inner' s) := by
  have hdefaults : Alike LooksAlike ((r.withSampling a).defaultValues inner s)
      ((r.withSampling b).defaultValues inner' s) := by
    intro ctx
    simp only [defaultValues, withSampling]
    split
    · exact h _ ctx
    · exact ⟨.refl _, rfl⟩
  intro ctx
  obtain ⟨hvalues, hctx⟩ := hdefaults ctx
  refine ⟨?_, hctx⟩
  -- the explicit tiers are the same in both runs
  simp only [union, Sequence.concat, Sequence.append_nil]
  exact .append _ (.append _ (.append _ hvalues))

theorem alike_strategyValues (h : ∀ shape, Alike LooksAlike (inner shape) (inner' shape)) {keep : Value → Bool}
    (hkeep : Respectful keep) (s : Strategy) :
    Alike SameHead ((r.withSampling a).strategyValues inner s keep)
      ((r.withSampling b).strategyValues inner' s keep) := by
  intro ctx
  obtain ⟨hvalues, hctx⟩ := r.alike_union a b h s ctx
  refine ⟨?_, hctx⟩
  have hfiltered := hkeep _ _ hvalues
  exact (sameHead_sampledBy _ _).trans (hfiltered.trans (sameHead_sampledBy _ _).symm)

theorem alike_resolveWith (h : ∀ shape, Alike LooksAlike (inner shape) (inner' shape)) {keep : Value → Bool}
    (hkeep : Respectful keep) (ty : TypeName) :
    Alike SameHead ((r.withSampling a).resolveWith inner keep ty) ((r.withSampling b).resolveWith inner' keep ty) := by
  intro ctx
  have hvalues := r.alike_strategyValues a b h hkeep (r.strategyFor ty ctx) ctx
  have hcheck : ∀ {s t : Sequence Value} {c d : Context}, SameHead s t → c = d →
      SameHead (checkCoverage ty s c).1 (checkCoverage ty t d).1 ∧
        (checkCoverage ty s c).2 = (checkCoverage ty t d).2 := by
    rintro s t c d hst rfl
    cases hst with
    | nil => exact ⟨.nil, rfl⟩
    | cut => exact ⟨.cut, rfl⟩
    | cons v t u => exact ⟨.cons _ _ _, rfl⟩
  exact hcheck hvalues.1 hvalues.2

theorem alike_argumentWith (h : ∀ shape, Alike LooksAlike (inner shape) (inner' shape)) (ty : TypeName) :
    Alike Argument.Alike ((r.withSampling a).argumentWith inner ty) ((r.withSampling b).argumentWith inner' ty) := by
  intro ctx
  obtain ⟨hvalues, hafter⟩ := r.alike_resolveWith a b h respectful_anyValue ty ctx.nested
  refine ⟨⟨rfl, hvalues⟩, ?_⟩
  simp only [argumentWith, hafter]

theorem alike_constructorValues (h : ∀ shape, Alike LooksAlike (inner shape) (inner' shape)) {info : TypeInfo}
    (hhooks : ∀ c ∈ info.constructors, ∀ hook, c.hook = some hook →
      ∀ arguments v, hook arguments = .ok v → v.isNull = false) (c : Constructor) :
    Alike SameStart ((r.withSampling a).constructorValues inner info c)
      ((r.withSampling b).constructorValues inner' info c) := by
  intro ctx
  simp only [constructorValues]
  split_ifs
  · exact ⟨sameStart_nil, rfl⟩
  · obtain ⟨hargs, hctx⟩ := alike_traverse c.parameters (fun p _ => r.alike_argumentWith a b h p) ctx
    rcases info.instantiate_alike r.unit.hierarchy hargs with ⟨e, he, he'⟩ | ⟨i, j, hi, hj, hij⟩
    · simp only [withSampling] at he he' hctx ⊢
      simp only [he, he', hctx]
      exact ⟨sameStart_nil, trivial⟩
    · have hstart := startsNonNull_instances hhooks hi
      simp only [withSampling] at hi hj hctx ⊢
      simp only [hi, hj, hctx]
      exact ⟨⟨hij, hstart⟩, trivial⟩

theorem alike_instantiations (hhooks : r.unit.HooksNonNull)
    (h : ∀ shape, Alike LooksAlike (inner shape) (inner' shape)) (ty : TypeName) :
    Alike SameStart ((r.withSampling a).instantiations inner ty) ((r.withSampling b).instantiations inner' ty) := by
  intro ctx
  by_cases hk : ∃ info, r.unit.typeInfo? ty = some info ∧ info.isInstantiable = true
  · obtain ⟨info, hinfo, hi⟩ := hk
    have hmem : info ∈ r.unit.types := List.mem_of_find?_eq_some hinfo
    obtain ⟨hparts, hctx⟩ := alike_traverse info.constructors
      (fun c _ => r.alike_constructorValues a b h (hhooks info hmem) c) ctx
    simp only [instantiations, withSampling, hinfo, hi, if_true] at hparts hctx ⊢
    exact ⟨sameStart_concat hparts, hctx⟩
  · have hunknown : ∀ info, r.unit.typeInfo? ty = some info → info.isInstantiable = false :=
      fun info hinfo => by simpa using fun hi => hk ⟨info, hinfo, hi⟩
    rw [(r.withSampling a).instantiations_unknown hunknown, (r.withSampling b).instantiations_unknown hunknown]
    exact ⟨sameStart_nil, rfl⟩

/-- a subtype has the values of its strategy, from which the nulls were taken before the sample, or its instances -/
theorem alike_subtypeValues (hhooks : r.unit.HooksNonNull)
    (h : ∀ shape, Alike LooksAlike (inner shape) (inner' shape)) (subtype : TypeName) :
    Alike SameStart ((r.withSampling a).subtypeValues inner subtype)
      ((r.withSampling b).subtypeValues inner' subtype) := by
  intro ctx
  cases hs : r.findStrategy? subtype ctx.chain with
  | some found =>
    have hsa : (r.withSampling a).findStrategy? subtype ctx.chain = some found := hs
    have hsb : (r.withSampling b).findStrategy? subtype ctx.chain = some found := hs
    rw [subtypeValues_registered _ hsa, subtypeValues_registered _ hsb]
    obtain ⟨hvalues, hctx⟩ := r.alike_strategyValues a b h respectful_nonNull found.2 ctx
    refine ⟨⟨hvalues, fun v hv => ?_⟩, hctx⟩
    rw [strategyValues, (sameHead_sampledBy _ _).element?] at hv
    exact startsNonNull_filter _ v hv
  | none =>
    have hsa : (r.withSampling a).findStrategy? subtype ctx.chain = none := hs
    have hsb : (r.withSampling b).findStrategy? subtype ctx.chain = none := hs
    have hinst := r.alike_instantiations a b hhooks h subtype
    simp only [subtypeValues, hsa, hsb]
    rcases alike_expand hinst subtype ctx with ⟨hl, hr⟩ | ⟨s, t, c, hl, hr, hst⟩
    · rw [hl, hr]
      exact ⟨sameStart_nil, rfl⟩
    · rw [hl, hr]
      exact ⟨hst, rfl⟩

theorem alike_structuredValues (hhooks : r.unit.HooksNonNull)
    (h : ∀ shape, Alike LooksAlike (inner shape) (inner' shape)) (ty : TypeName) :
    Alike LooksAlike ((r.withSampling a).structuredValues inner ty)
      ((r.withSampling b).structuredValues inner' ty) := by
  have hdata : ∀ d, Alike SameStart ((r.withSampling a).dataTypeValues inner ty d)
      ((r.withSampling b).dataTypeValues inner' ty d) := by
    intro d ctx
    simp only [dataTypeValues]
    split_ifs
    · exact r.alike_instantiations a b hhooks h d ctx
    · exact r.alike_subtypeValues a b hhooks h d ctx
  intro ctx
  have htypes : (r.withSampling b).dataTypes ty ctx = (r.withSampling a).dataTypes ty ctx := rfl
  have hparts := alike_traverse ((r.withSampling a).dataTypes ty ctx) fun d _ => hdata d
  simp only [structuredValues, htypes]
  rcases alike_expand hparts ty ctx with ⟨hl, hr⟩ | ⟨ss, ts, c, hl, hr, hst⟩
  · rw [hl, hr]
    exact ⟨.refl _, rfl⟩
  · rw [hl, hr]
    have hstart := sameStart_concat hst
    have hnull := hstart.looksAlike_orNull
    obtain ⟨hhead, -⟩ := hstart
    dsimp only
    generalize Sequence.concat ss = s at hhead hnull ⊢
    generalize Sequence.concat ts = t at hhead hnull ⊢
    cases hhead with
    | nil => exact ⟨hnull, rfl⟩
    | cut => exact ⟨hnull, rfl⟩
    | cons v t u => exact ⟨hnull, rfl⟩

/-- null and the empty array stand in front of all arrays, whatever the elements are -/
theorem looksAlike_arrayValues (ty : TypeName) (maxLength : Option Nat) (ctx : Context) :
    LooksAlike ((r.withSampling a).arrayValues inner ty maxLength ctx)
      ((r.withSampling b).arrayValues inner' ty maxLength ctx) := by
  simp only [arrayValues]
  split
  · exact .refl _
  · exact ⟨.cons _ _ _, .cons _ _ _⟩

theorem alike_shapeStep (hhooks : r.unit.HooksNonNull) (h : ∀ shape, Alike LooksAlike (inner shape) (inner' shape))
    (shape : Shape) :
    Alike LooksAlike ((r.withSampling a).shapeStep inner shape) ((r.withSampling b).shapeStep inner' shape) := by
  cases shape with
  | primitive ty k => exact fun ctx => ⟨.refl _, rfl⟩
  | boxed ty k => exact fun ctx => ⟨.refl _, rfl⟩
  | enumeration ty constants => exact fun ctx => ⟨.refl _, rfl⟩
  | array ty maxLength => exact fun ctx => ⟨r.looksAlike_arrayValues a b ty maxLength ctx, rfl⟩
  | structured ty => exact r.alike_structuredValues a b hhooks h ty

/-- **On every level two runs look alike** and report the same. -/
theorem looksAlike_shapeValues (hhooks : r.unit.HooksNonNull) (n : Nat) (shape : Shape) :
    Alike LooksAlike ((r.withSampling a).shapeValues n shape) ((r.withSampling b).shapeValues n shape) := by
  induction n generalizing shape with
  | zero => exact fun ctx => ⟨.refl _, rfl⟩
  | succ n ih => exact r.alike_shapeStep a b hhooks ih shape

end Resolver

/-! ## Tuples -/

/-- positions with equal heads for which the same was reported -/
def ResolvedPosition.Alike (p q : ResolvedPosition) : Prop :=
  SameHead p.values.first q.values.first ∧ p.diagnostics = q.diagnostics

namespace Resolver

variable (r : Resolver) (a b : Option Sampling)

theorem alike_resolveWhere (hhooks : r.unit.HooksNonNull) {keep : Value → Bool} (hkeep : Respectful keep)
    (ty : TypeName) :
    Alike SameHead ((r.withSampling a).resolveWhere keep ty) ((r.withSampling b).resolveWhere keep ty) :=
  fun ctx => r.alike_resolveWith a b (r.looksAlike_shapeValues a b hhooks (r.depth ty ctx)) hkeep ty ctx

theorem alike_positions (hhooks : r.unit.HooksNonNull) (op : Operation) :
    List.Forall₂ ResolvedPosition.Alike ((r.withSampling a).positions op) ((r.withSampling b).positions op) := by
  have hslots : List.Forall₂ ResolvedPosition.Alike (op.parameters.map ((r.withSampling a).slotPosition op))
      (op.parameters.map ((r.withSampling b).slotPosition op)) := by
    rw [List.forall₂_map_left_iff, List.forall₂_map_right_iff, List.forall₂_same]
    intro slot _
    obtain ⟨hvalues, hctx⟩ := r.alike_resolveWhere a b hhooks respectful_anyValue slot.ty (r.slotContext op slot)
    exact ⟨hvalues, congrArg Context.diagnostics hctx⟩
  simp only [positions]
  split_ifs
  · obtain ⟨hvalues, hctx⟩ := r.alike_resolveWhere a b hhooks respectful_nonNull r.unit.declaring r.receiverContext
    exact .cons ⟨hvalues, congrArg Context.diagnostics hctx⟩ hslots
  · exact hslots

theorem diagnostics_alike {ps qs : List ResolvedPosition} (h : List.Forall₂ ResolvedPosition.Alike ps qs) :
    ps.flatMap ResolvedPosition.diagnostics = qs.flatMap ResolvedPosition.diagnostics := by
  induction h with
  | nil => rfl
  | cons hpq _ ih => rw [List.flatMap_cons, List.flatMap_cons, hpq.2, ih]

theorem sameHead_positions {ps qs : List ResolvedPosition} (h : List.Forall₂ ResolvedPosition.Alike ps qs) :
    SameHead (.product (ps.map ResolvedPosition.values)) (.product (qs.map ResolvedPosition.values)) := by
  refine Sequence.sameHead_product ?_
  rw [List.forall₂_map_left_iff, List.forall₂_map_right_iff]
  exact h.imp fun _ _ hpq => hpq.1

/-- **Sampling never costs coverage.** For every unit whose construct hooks never make null, with any registered
strategies and settings, an operation has no coverage with sampling exactly if it has none without, the same is
reported, and the first tuple is the same if there is one. A fault in the slots of an operation is the same fault. -/
theorem sampling_keeps_coverage (lookup : Lookup) (unit : UnitInfo) (config : Config) (hhooks : unit.HooksNonNull)
    (sampling : Sampling) (op : Operation) :
    match (Resolver.make lookup unit { config with sampling := some sampling }).tuples op,
      (Resolver.make lookup unit { config with sampling := none }).tuples op with
    | .ok t, .ok u =>
      t.noCoverage = u.noCoverage ∧ t.diagnostics = u.diagnostics ∧ t.tuples.element? = u.tuples.element?
    | .error e, .error e' => e = e'
    | _, _ => False := by
  have hpositions := (Resolver.make lookup unit config).alike_positions (some sampling) none hhooks op
  have hheads := sameHead_positions hpositions
  simp only [tuples]
  cases op.fault? with
  | some fault => rfl
  | none =>
    refine ⟨?_, diagnostics_alike hpositions, (hheads.map _).element?⟩
    exact congrArg (fun e => !Option.isSome e) hheads.element?

/-! A shop whose carts hold items: books, which have no zeroth edition, and gifts, which have a strategy of their
own. -/

def shopUnit : UnitInfo :=
  { declaring := ⟨"Cart", "", 0⟩
    types :=
      [{ ty := ⟨"Cart", "", 0⟩, constructors := [⟨[⟨"Item", "", 1⟩], none⟩] },
       { ty := ⟨"Item", "", 0⟩, isAbstract := true, subtypes := [⟨"Book", "", 0⟩, ⟨"Gift", "", 0⟩] },
       { ty := ⟨"Book", "", 0⟩,
         constructors := [⟨[⟨"int", "", 0⟩], some (Hook.passing ⟨"Book", "", 0⟩ 0 "no edition" (!· == [.int 0]))⟩] }] }

def shopCatalog : Catalog :=
  .ofList [.ofStrategy .everywhere
    (.custom { target := ⟨"Gift", "", 0⟩, typeValues := [.null, .str "card", .str "ribbon"], useDefaults := false })]

def addOperation : Operation :=
  { id := "add", name := "add", kind := .method
    parameters := [⟨"add", ⟨"Item", "", 0⟩, 0, "p0"⟩, ⟨"add", ⟨"int", "", 0⟩, 1, "p1"⟩] }

/-- about half of the values behind the first -/
def halfSampling : Sampling := { fraction := .ofBits 0x3fe0000000000000, seed := 7, valid := by decide }

theorem hooksNonNull_shop : shopUnit.HooksNonNull := by
  intro info hinfo c hc hook hhook arguments v hv
  simp only [shopUnit, List.mem_cons, List.not_mem_nil, or_false] at hinfo
  rcases hinfo with rfl | rfl | rfl
  · simp only [List.mem_singleton] at hc
    subst hc
    cases hhook
  · cases hc
  · simp only [List.mem_singleton] at hc
    subst hc
    cases hhook
    simp only [Hook.passing] at hv
    split_ifs at hv
    cases hv
    rfl

theorem shop_keeps_coverage :
    ((Resolver.make shopCatalog.lookup shopUnit { sampling := some halfSampling }).tuples addOperation).toOption.map
      (fun t => t.tuples.toList.length) = some 48 ∧
    ((Resolver.make shopCatalog.lookup shopUnit { sampling := none }).tuples addOperation).toOption.map
      (fun t => t.tuples.toList.length) = some 105 ∧
    match (Resolver.make shopCatalog.lookup shopUnit { sampling := some halfSampling }).tuples addOperation,
      (Resolver.make shopCatalog.lookup shopUnit { sampling := none }).tuples addOperation with
    | .ok t, .ok u =>
      t.noCoverage = u.noCoverage ∧ t.diagnostics = u.diagnostics ∧ t.tuples.element? = u.tuples.element?
    | .error e, .error e' => e = e'
    | _, _ => False :=
  ⟨by decide +kernel, by decide +kernel,
    sampling_keeps_coverage shopCatalog.lookup shopUnit {} hooksNonNull_shop halfSampling addOperation⟩

end Resolver

end TestInputs
