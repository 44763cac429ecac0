/-
Wider limits lose nothing. Settings that allow longer arrays, constructors with arguments or subtypes give every tuple
that narrower ones gave, in the same order, with further tuples in between.

For most lists this is the sublist order, which products, arrays and hooks keep. It is not enough at constructors: one
that rejects its first tuple of arguments is left out whole, so a value that is new at the head of a parameter could
take all instances away. `Extends` therefore also asks that a list that is not empty keeps its head. Every shape has
this property: constants do not depend on the limits, an array type starts with null, and so does a structured type with
any instance.

Results:
- `extends_lexicographic`, `extends_instancesOver`: products and the instances over them keep the order and the head;
- `extends_shapeStep`: a level above values that grow has values that grow;
- `sublist_resolveWhere`: under wider settings a type has all values it had;
- `wider_limits_keep_tuples`: the same for the tuples of an operation.
-/
import Mathlib.Data.List.Flatten
import TestInputs.Hook
import TestInputs.Proofs.Listing
import TestInputs.Proofs.Tuples

namespace TestInputs

/-! ## Lists that grow -/

section Lists

variable {α β : Type}

/-- the members of the first list stand in the second in the same order, and the first of them in front -/
structure Extends (xs ys : List α) : Prop where
  sublist : xs.Sublist ys
  first : ∀ a, xs.head? = some a → ys.head? = some a

theorem Extends.refl (xs : List α) : Extends xs xs := ⟨.refl xs, fun _ h => h⟩

theorem Extends.nil (ys : List α) : Extends [] ys := ⟨List.nil_sublist ys, fun _ h => by cases h⟩

theorem Extends.cons (a : α) {xs ys : List α} (h : xs.Sublist ys) : Extends (a :: xs) (a :: ys) :=
  ⟨h.cons_cons a, fun _ h => h⟩

theorem sublist_flatMap {xs ys : List α} {f g : α → List β} (h : xs.Sublist ys) (hfg : ∀ a, (f a).Sublist (g a)) :
    (xs.flatMap f).Sublist (ys.flatMap g) :=
  (List.Sublist.flatMap_right xs fun a _ => hfg a).trans (h.flatMap g)

theorem sublist_lexicographic {ls ms : List (List α)} (h : List.Forall₂ List.Sublist ls ms) :
    (lexicographic ls).Sublist (lexicographic ms) := by
  induction h with
  | nil => exact .refl _
  | cons hxs _ ih => exact sublist_flatMap hxs fun a => ih.map (a :: ·)

/-- the first tuple is made of the first members -/
theorem head?_lexicographic {ls : List (List α)} {t : List α} :
    (lexicographic ls).head? = some t ↔ List.Forall₂ (fun a l => l.head? = some a) t ls := by
  induction ls generalizing t with
  | nil => simp [lexicographic, eq_comm]
  | cons xs ls ih =>
    cases xs with
    | nil =>
      constructor
      · intro h
        cases h
      · intro h
        cases h with
        | cons ha _ => cases ha
    | cons x xs =>
      cases hls : lexicographic ls with
      | nil =>
        have hempty : lexicographic ((x :: xs) :: ls) = [] := by simp [lexicographic, hls]
        rw [hempty]
        constructor
        · intro h
          cases h
        · intro h
          cases h with
          | cons _ hrest =>
            have hhead := ih.2 hrest
            rw [hls] at hhead
            cases hhead
      | cons u us =>
        have hhead : (lexicographic ((x :: xs) :: ls)).head? = some (x :: u) := by simp [lexicographic, hls]
        have hu := ih.1 (by rw [hls]; rfl : (lexicographic ls).head? = some u)
        rw [hhead]
        constructor
        · intro h
          cases h
          exact .cons rfl hu
        · intro h
          cases h with
          | @cons a _ s _ ha hrest =>
            have hs := ih.2 hrest
            rw [hls] at hs
            cases ha
            cases hs
            rfl

theorem extends_lexicographic {ls ms : List (List α)} (h : List.Forall₂ Extends ls ms) :
    Extends (lexicographic ls) (lexicographic ms) := by
  have hfirst : ∀ t, List.Forall₂ (fun a l => l.head? = some a) t ls →
      List.Forall₂ (fun a l => l.head? = some a) t ms := by
    induction h with
    | nil => exact fun t ht => ht
    | cons hxs _ ih =>
      intro t ht
      cases ht with
      | cons ha hrest => exact .cons (hxs.first _ ha) (ih _ hrest)
  refine ⟨sublist_lexicographic (h.imp fun _ _ h => h.sublist), fun t ht => ?_⟩
  exact head?_lexicographic.2 (hfirst t (head?_lexicographic.1 ht))

/-- tuples up to a greater length over more members -/
theorem sublist_lengths {xs ys : List α} (h : xs.Sublist ys) {m n : Nat} (hmn : m ≤ n) :
    ((List.range' 1 m).flatMap fun k => lexicographic (List.replicate k xs)).Sublist
      ((List.range' 1 n).flatMap fun k => lexicographic (List.replicate k ys)) := by
  have hsame : ∀ k, List.Forall₂ List.Sublist (List.replicate k xs) (List.replicate k ys) := by
    intro k
    induction k with
    | zero => exact .nil
    | succ k ih => exact .cons h ih
  exact sublist_flatMap (List.range'_sublist_right.2 hmn) fun k => sublist_lexicographic (hsame k)

end Lists

/-- the instances over lists that grow: the first tuple stays, and so does the verdict on it -/
theorem Constructor.extends_instancesOver (c : Constructor) (ty : TypeName) (i : Nat) {values more : List (List Value)}
    (h : List.Forall₂ Extends values more) : Extends (c.instancesOver ty i values) (c.instancesOver ty i more) := by
  have htuples := extends_lexicographic h
  unfold instancesOver
  cases hv : lexicographic values with
  | nil => exact .nil _
  | cons first rest =>
    rw [hv] at htuples
    cases hm : lexicographic more with
    | nil =>
      have hfirst := htuples.first first rfl
      rw [hm] at hfirst
      cases hfirst
    | cons first' rest' =>
      have hfirst := htuples.first first rfl
      rw [hm] at hfirst htuples
      cases hfirst
      cases hb : c.build ty i first with
      | error _ =>
        simp only [hb]
        exact .nil _
      | ok v =>
        have hbuilt : ∀ tuples,
            ((first :: tuples).filterMap fun tuple => (c.build ty i tuple).toOption).head? = some v := by
          intro tuples
          simp [hb, Except.toOption]
        simp only [hb]
        refine ⟨htuples.sublist.filterMap _, fun a ha => ?_⟩
        rw [hbuilt] at ha ⊢
        exact ha

/-! ## Settings -/

/-- settings with the same literals and no wider limits -/
structure Config.Within (narrow wide : Config) : Prop where
  arrays : narrow.maxArrayLength ≤ wide.maxArrayLength
  fallback : narrow.structuralFallback = true → wide.structuralFallback = true
  subtypes : narrow.useSubtypes = true → wide.useSubtypes = true
  literals : wide.useLiterals = narrow.useLiterals
  specLiterals : wide.useSpecLiterals = narrow.useSpecLiterals

/-- the context with constructors that take arguments allowed or not -/
def Context.allowing (ctx : Context) (allowed : Bool) : Context := { ctx with structuralFallback := allowed }

namespace Resolver

/-- the same resolver under other settings -/
def withConfig (r : Resolver) (config : Config) : Resolver := { r with config }

variable {r : Resolver} {wide : Config} {allowed : Bool} {inner inner' : ShapeValues}

/-- under wider settings every type keeps its values, in contexts that allow no less -/
def Grows (r : Resolver) (wide : Config) (allowed : Bool) (inner inner' : ShapeValues) : Prop :=
  ∀ ty (ctx : Context), (ctx.structuralFallback = true → allowed = true) →
    Extends (r.resolveWith inner anyValue ty ctx).1.toList
      ((r.withConfig wide).resolveWith inner' anyValue ty (ctx.allowing allowed)).1.toList

/-! ## One level -/

theorem extends_nullFirst {vs ws : List Value} (h : vs.Sublist ws) : Extends (nullFirst vs) (nullFirst ws) := by
  cases vs with
  | nil => exact .nil _
  | cons v vs =>
    cases ws with
    | nil => cases h
    | cons w ws => exact .cons .null h

theorem extends_constructorValues (h : Regular inner) (h' : Regular inner') (ih : Grows r wide allowed inner inner')
    {info : TypeInfo} {c : Constructor} {i : Nat} (hc : info.constructors[i]? = some c) {ctx : Context}
    (ha : ctx.structuralFallback = true → allowed = true) :
    Extends (r.constructorValues inner info c ctx).1.toList
      ((r.withConfig wide).constructorValues inner' info c (ctx.allowing allowed)).1.toList := by
  rw [r.toList_constructorValues h hc, (r.withConfig wide).toList_constructorValues h' hc]
  by_cases hu : r.usable info c ctx.structuralFallback = true
  · have hu' : (r.withConfig wide).usable info c (ctx.allowing allowed).structuralFallback = true := by
      simp only [usable, Bool.and_eq_true, Bool.or_eq_true] at hu ⊢
      exact ⟨hu.1.imp_left ha, hu.2⟩
    rw [if_pos hu, if_pos hu']
    refine c.extends_instancesOver info.ty i ?_
    simp only [parameterLists, List.forall₂_map_left_iff, List.forall₂_map_right_iff, List.forall₂_same]
    exact fun p _ => ih p ctx.nested ha
  · rw [if_neg hu]
    exact .nil _

/-- an unusable constructor may become usable, so a type by its constructors need not keep its first instance -/
theorem sublist_instantiations (h : Regular inner) (h' : Regular inner') (ih : Grows r wide allowed inner inner')
    (ty : TypeName) (ctx : Context) (ha : ctx.structuralFallback = true → allowed = true) :
    (r.instantiations inner ty ctx).1.toList.Sublist
      ((r.withConfig wide).instantiations inner' ty (ctx.allowing allowed)).1.toList := by
  by_cases hk : ∃ info, r.unit.typeInfo? ty = some info ∧ info.isInstantiable = true
  · obtain ⟨info, hinfo, hi⟩ := hk
    rw [r.toList_instantiations h hinfo hi, (r.withConfig wide).toList_instantiations h' hinfo hi]
    refine List.Sublist.flatMap_right _ fun k hk => ?_
    exact (extends_constructorValues h h' ih (List.mem_zipIdx_iff_getElem?.1 hk) ha).sublist
  · rw [r.toList_instantiations_unknown hk]
    exact List.nil_sublist _

theorem sublist_dataTypeValues (hbare : r.lookup.Bare) (h : Regular inner) (h' : Regular inner')
    (ih : Grows r wide allowed inner inner') (ty d : TypeName) (ctx : Context)
    (ha : ctx.structuralFallback = true → allowed = true) :
    (r.dataTypeValues inner ty d ctx).1.toList.Sublist
      ((r.withConfig wide).dataTypeValues inner' ty d (ctx.allowing allowed)).1.toList := by
  have hguard : (ctx.allowing allowed).guard = ctx.guard := rfl
  rw [toList_dataTypeValues hbare h, toList_dataTypeValues (r := r.withConfig wide) hbare h', hguard]
  split_ifs
  · exact sublist_instantiations h h' ih d ctx ha
  · exact List.nil_sublist _
  · exact sublist_instantiations h h' ih d (ctx.marked d) ha

theorem sublist_dataTypes (hsub : r.config.useSubtypes = true → wide.useSubtypes = true) (ty : TypeName)
    (ctx : Context) : (r.dataTypes ty ctx).Sublist ((r.withConfig wide).dataTypes ty (ctx.allowing allowed)) := by
  by_cases hu : r.config.useSubtypes = true
  · have hsame : (r.withConfig wide).dataTypes ty (ctx.allowing allowed) = r.dataTypes ty ctx := by
      simp only [dataTypes, withConfig, hu, hsub hu, if_true]
      rfl
    rw [hsame]
  · -- the type itself comes first among its data types
    have hself : r.dataTypes ty ctx = [ty] := by simp [dataTypes, hu]
    rw [hself, List.singleton_sublist]
    simp only [dataTypes, List.cons_append, List.eraseDups_cons]
    split_ifs
    · exact List.mem_cons_self
    · exact List.mem_cons_self

theorem extends_structuredValues (hbare : r.lookup.Bare) (hwithin : r.config.Within wide) (h : Regular inner)
    (h' : Regular inner') (ih : Grows r wide allowed inner inner') (ty : TypeName) {ctx : Context}
    (ha : ctx.structuralFallback = true → allowed = true) :
    Extends (r.structuredValues inner ty ctx).1.toList
      ((r.withConfig wide).structuredValues inner' ty (ctx.allowing allowed)).1.toList := by
  cases hp : ctx.guard.inProgress ty with
  | true =>
    have hp' : (ctx.allowing allowed).guard.inProgress ty = true := hp
    rw [r.structuredValues_refused hp, (r.withConfig wide).structuredValues_refused hp']
    exact .refl _
  | false =>
    have hp' : (ctx.allowing allowed).guard.inProgress ty = false := hp
    rw [toList_structuredValues h hp, toList_structuredValues h' hp']
    refine extends_nullFirst (sublist_flatMap (sublist_dataTypes hwithin.subtypes ty ctx) fun d => ?_)
    exact sublist_dataTypeValues hbare h h' ih ty d (ctx.marked ty) ha

theorem extends_arrayValues (hwithin : r.config.Within wide) (h : Regular inner) (h' : Regular inner')
    (ih : Grows r wide allowed inner inner') (ty : TypeName) (maxLength : Option Nat) {ctx : Context}
    (ha : ctx.structuralFallback = true → allowed = true) :
    Extends (r.arrayValues inner ty maxLength ctx).toList
      ((r.withConfig wide).arrayValues inner' ty maxLength (ctx.allowing allowed)).toList := by
  cases hc : ty.component? with
  | none =>
    simp only [arrayValues, hc]
    exact .nil _
  | some component =>
    have hlongest : maxLength.getD (if ctx.structuralFallback then r.config.maxArrayLength else 0) ≤
        maxLength.getD (if allowed then wide.maxArrayLength else 0) := by
      cases maxLength with
      | some n => exact Nat.le_refl n
      | none =>
        cases hf : ctx.structuralFallback with
        | false => exact Nat.zero_le _
        | true =>
          simp only [ha hf, if_true, Option.getD_none]
          exact hwithin.arrays
    rw [toList_arrayValues h hc, toList_arrayValues h' hc]
    have hfilled := sublist_lengths (ih component ctx.nested ha).sublist hlongest
    exact .cons Value.null ((List.Sublist.map _ hfilled).cons_cons _)

/-- **A level above values that grow has values that grow**, and every shape keeps its first value. -/
theorem extends_shapeStep (hbare : r.lookup.Bare) (hwithin : r.config.Within wide) (h : Regular inner)
    (h' : Regular inner') (ih : Grows r wide allowed inner inner') (shape : Shape) {ctx : Context}
    (ha : ctx.structuralFallback = true → allowed = true) :
    Extends (r.shapeStep inner shape ctx).1.toList
      ((r.withConfig wide).shapeStep inner' shape (ctx.allowing allowed)).1.toList := by
  cases shape with
  | primitive ty k => exact .refl _
  | boxed ty k => exact .refl _
  | enumeration ty constants => exact .refl _
  | array ty maxLength => exact extends_arrayValues hwithin h h' ih ty maxLength ha
  | structured ty => exact extends_structuredValues hbare hwithin h h' ih ty ha

/-! ## All values -/

theorem toList_resolveWith_unsampled (hbare : r.lookup.Bare) (hsampling : r.config.sampling = none)
    (keep : Value → Bool) (ty : TypeName) (ctx : Context) :
    (r.resolveWith inner keep ty ctx).1.toList = (inner (Shape.ofType r.unit ty) ctx).1.toList.filter keep := by
  rw [resolveWith_bare_fst hbare, hsampling]
  exact Sequence.toList_filter keep _

theorem grows_of_extends (hbare : r.lookup.Bare) (hsampling : r.config.sampling = none)
    (hsampling' : wide.sampling = none)
    (h : ∀ ty (ctx : Context), (ctx.structuralFallback = true → allowed = true) →
      Extends (inner (Shape.ofType r.unit ty) ctx).1.toList
        (inner' (Shape.ofType r.unit ty) (ctx.allowing allowed)).1.toList) : Grows r wide allowed inner inner' := by
  have hall : ∀ vs : List Value, vs.filter anyValue = vs := fun vs => List.filter_eq_self.2 fun _ _ => rfl
  intro ty ctx ha
  rw [toList_resolveWith_unsampled hbare hsampling,
    toList_resolveWith_unsampled (r := r.withConfig wide) hbare hsampling', hall, hall]
  exact h ty ctx ha

theorem extends_above (hbare : r.lookup.Bare) (hwithin : r.config.Within wide) (hsampling : r.config.sampling = none)
    (hsampling' : wide.sampling = none) (n : Nat) (ty : TypeName) (ctx : Context)
    (ha : ctx.structuralFallback = true → allowed = true) :
    Extends (r.above nothing n (Shape.ofType r.unit ty) ctx).1.toList
      ((r.withConfig wide).above nothing n (Shape.ofType r.unit ty) (ctx.allowing allowed)).1.toList := by
  induction n generalizing ty ctx with
  | zero => exact .nil _
  | succ n ih =>
    have hgrows := grows_of_extends hbare hsampling hsampling' ih
    exact extends_shapeStep hbare hwithin (r.regular_above regular_nothing n)
      ((r.withConfig wide).regular_above regular_nothing n) hgrows _ ha

/-- under wider settings a type has all values that it had, whatever values are asked for -/
theorem sublist_resolveWhere (hbare : r.lookup.Bare) (hwithin : r.config.Within wide)
    (hsampling : r.config.sampling = none) (hsampling' : wide.sampling = none) (keep : Value → Bool) (ty : TypeName)
    (ctx : Context) (ha : ctx.structuralFallback = true → allowed = true) :
    (r.resolveWhere keep ty ctx).1.toList.Sublist
      ((r.withConfig wide).resolveWhere keep ty (ctx.allowing allowed)).1.toList := by
  have hdepth : (r.withConfig wide).depth ty (ctx.allowing allowed) = r.depth ty ctx := rfl
  rw [← r.resolveWith_above hbare.ownTargets nothing, ← (r.withConfig wide).resolveWith_above hbare.ownTargets nothing,
    hdepth, toList_resolveWith_unsampled hbare hsampling,
    toList_resolveWith_unsampled (r := r.withConfig wide) hbare hsampling']
  exact (extends_above hbare hwithin hsampling hsampling' _ ty ctx ha).sublist.filter keep

/-! ## Tuples -/

theorem declaringLiterals_withConfig (hwithin : r.config.Within wide) :
    (r.withConfig wide).declaringLiterals = r.declaringLiterals := by
  simp only [declaringLiterals, enabledLiterals, withConfig, hwithin.literals, hwithin.specLiterals]

theorem receiverContext_withConfig (hwithin : r.config.Within wide) :
    (r.withConfig wide).receiverContext = r.receiverContext.allowing wide.structuralFallback := by
  simp only [receiverContext, declaringLiterals_withConfig hwithin]
  rfl

theorem slotContext_withConfig (hwithin : r.config.Within wide) (op : Operation) (slot : Slot) :
    (r.withConfig wide).slotContext op slot = (r.slotContext op slot).allowing wide.structuralFallback := by
  simp only [slotContext, declaringLiterals_withConfig hwithin]
  simp only [enabledLiterals, withConfig, hwithin.literals, hwithin.specLiterals]
  rfl

theorem sublist_positions (hbare : r.lookup.Bare) (hwithin : r.config.Within wide)
    (hsampling : r.config.sampling = none) (hsampling' : wide.sampling = none) (op : Operation) :
    List.Forall₂ List.Sublist ((r.positions op).map fun p => p.values.first.toList)
      (((r.withConfig wide).positions op).map fun p => p.values.first.toList) := by
  have hreceiver : r.receiverPosition.values.first.toList.Sublist
      (r.withConfig wide).receiverPosition.values.first.toList := by
    simp only [receiverPosition, receiverContext_withConfig hwithin]
    exact sublist_resolveWhere hbare hwithin hsampling hsampling' nonNull _ r.receiverContext hwithin.fallback
  have hslots : List.Forall₂ List.Sublist
      ((op.parameters.map (r.slotPosition op)).map fun p => p.values.first.toList)
      ((op.parameters.map ((r.withConfig wide).slotPosition op)).map fun p => p.values.first.toList) := by
    simp only [List.map_map, List.forall₂_map_left_iff, List.forall₂_map_right_iff, List.forall₂_same]
    intro slot _
    simp only [Function.comp_apply, slotPosition, slotContext_withConfig hwithin]
    exact sublist_resolveWhere hbare hwithin hsampling hsampling' anyValue slot.ty _ hwithin.fallback
  unfold positions
  split_ifs
  · exact .cons hreceiver hslots
  · exact hslots

/-- **Wider limits keep all tuples.** Without registered strategies and sampling, construct hooks allowed: the tuples of
an operation under some settings are, in their order, among those under any settings with the same literals and no
narrower limits. In both cases the tuples meant are all there are, and an operation with a malformed slot is rejected in
the same way. -/
theorem wider_limits_keep_tuples (r : Resolver) (hbare : r.lookup.Bare) (wide : Config)
    (hwithin : r.config.Within wide) (hsampling : r.config.sampling = none) (hsampling' : wide.sampling = none)
    (op : Operation) :
    match r.tuples op, (r.withConfig wide).tuples op with
    | .ok t, .ok t' => t.tuples.Complete ∧ t'.tuples.Complete ∧ t.tuples.toList.Sublist t'.tuples.toList
    | .error e, .error e' => e = e'
    | _, _ => False := by
  cases hfault : op.fault? with
  | some fault => simp only [tuples, hfault]
  | none =>
    obtain ⟨t, ht, hc, hlist⟩ := r.tuples_of_ownTargets hbare.ownTargets hfault
    obtain ⟨t', ht', hc', hlist'⟩ := (r.withConfig wide).tuples_of_ownTargets hbare.ownTargets hfault
    rw [ht, ht']
    refine ⟨hc, hc', ?_⟩
    rw [hlist, hlist']
    exact (sublist_lexicographic (sublist_positions hbare hwithin hsampling hsampling' op)).map _

/-! Routes over stops, some of which are depots; a route is not made from an empty array. -/

def routeUnit : UnitInfo :=
  { declaring := ⟨"Route", "", 0⟩
    types :=
      [{ ty := ⟨"Route", "", 0⟩
         constructors :=
          [⟨[], none⟩,
           ⟨[⟨"Stop", "", 1⟩],
            some (Hook.passing ⟨"Route", "", 0⟩ 1 "no stops" (!· == [.array ⟨"Stop", "", 0⟩ []]))⟩] },
       { ty := ⟨"Stop", "", 0⟩, constructors := [⟨[], none⟩, ⟨[⟨"boolean", "", 0⟩], none⟩],
         subtypes := [⟨"Depot", "", 0⟩] },
       { ty := ⟨"Depot", "", 0⟩, constructors := [⟨[], none⟩] }] }

def visitOperation : Operation :=
  { id := "visit", name := "visit", kind := .method, parameters := [⟨"visit", ⟨"Stop", "", 0⟩, 0, "p0"⟩] }

def shortRoutes : Resolver :=
  .make (fun _ _ => none) routeUnit { structuralFallback := false, useSubtypes := false }

theorem routes_keep_tuples :
    (shortRoutes.tuples visitOperation).toOption.map (fun t => t.tuples.toList.length) = some 2 ∧
    ((shortRoutes.withConfig { maxArrayLength := 2 }).tuples visitOperation).toOption.map
      (fun t => t.tuples.toList.length) = some 160 ∧
    match shortRoutes.tuples visitOperation, (shortRoutes.withConfig { maxArrayLength := 2 }).tuples visitOperation with
    | .ok t, .ok t' => t.tuples.Complete ∧ t'.tuples.Complete ∧ t.tuples.toList.Sublist t'.tuples.toList
    | .error e, .error e' => e = e'
    | _, _ => False :=
  ⟨by decide +kernel, by decide +kernel,
    wider_limits_keep_tuples shortRoutes (fun _ _ => rfl) { maxArrayLength := 2 }
      ⟨by decide, by decide, by decide, rfl, rfl⟩ rfl rfl visitOperation⟩

end Resolver

end TestInputs
