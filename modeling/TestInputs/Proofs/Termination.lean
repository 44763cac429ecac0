/-
Exploration ends on every graph of types. Constructor parameters, subtypes and referenced types may lead back to each
other in any way, through arrays of any number of dimensions. An expansion marks a type that had no mark, and only
finitely many types can be marked: those with a name that is mentioned somewhere and no more dimensions than are
mentioned somewhere. Between two expansions an array loses a dimension on each level. The weight of a type in a context
counts the unmarked types first and the dimensions second; whatever a level needs has less weight than what it is needed
for, provided that every registered strategy makes values of the type that it is registered for.

Results:
- `needs_weight`: what a shape needs weighs less than its target;
- `resolveWith_above`: within the depth that the resolver explores nothing is left to explore, so what would come after
  it makes no difference;
- `complete_resolveWhere`: the values of every type in every context are a finite sequence with nothing given up.
-/
import TestInputs.Proofs.Assignability
import TestInputs.Proofs.Levels
import TestInputs.Tuples

namespace TestInputs

/-! ## Lists without repeated members -/

section Repeated

variable {α : Type} [BEq α]

theorem mem_of_mem_eraseDups {a : α} {l : List α} (h : a ∈ l.eraseDups) : a ∈ l := by
  match l with
  | [] => exact h
  | b :: l =>
    rw [List.eraseDups_cons] at h
    rcases List.mem_cons.1 h with rfl | h
    · exact List.mem_cons_self
    · exact List.mem_cons_of_mem _ (List.mem_filter.1 (mem_of_mem_eraseDups h)).1
termination_by l.length
decreasing_by
  have := List.length_filter_le (fun c => !c == b) l
  simp only [List.length_cons]
  omega

/-- of members that are equal one is kept -/
theorem exists_mem_eraseDups [EquivBEq α] {a : α} {l : List α} (h : a ∈ l) : ∃ b ∈ l.eraseDups, (b == a) = true := by
  match l with
  | [] => simp at h
  | b :: l =>
    rw [List.eraseDups_cons]
    by_cases hb : (a == b) = true
    · exact ⟨b, List.mem_cons_self, BEq.symm hb⟩
    · rcases List.mem_cons.1 h with rfl | h
      · exact absurd BEq.rfl hb
      · have hkept : a ∈ l.filter fun c => !c == b := List.mem_filter.2 ⟨h, by simpa using hb⟩
        obtain ⟨c, hc, hca⟩ := exists_mem_eraseDups hkept
        exact ⟨c, List.mem_cons_of_mem _ hc, hca⟩
termination_by l.length
decreasing_by
  have := List.length_filter_le (fun c => !c == b) l
  simp only [List.length_cons]
  omega

end Repeated

/-! ## Marks and the types that can bear one -/

namespace Guard

theorem inProgress_cons (ty t : TypeName) (ts : List TypeName) :
    inProgress ⟨ty :: ts⟩ t = (ty == t || inProgress ⟨ts⟩ t) := rfl

theorem inProgress_congr {a b : TypeName} (h : (a == b) = true) (g : Guard) : g.inProgress a = g.inProgress b := by
  obtain ⟨ts⟩ := g
  induction ts with
  | nil => rfl
  | cons t ts ih => rw [inProgress_cons, inProgress_cons, TypeName.beq_congr_right h, ih]

end Guard

/-- a type with one of the given names and a limited number of dimensions -/
def InRange (types : List TypeName) (limit : Nat) (t : TypeName) : Prop :=
  (∃ m ∈ types, m.name = t.name) ∧ t.dimensions ≤ limit

theorem InRange.congr {types : List TypeName} {limit : Nat} {a b : TypeName} (h : InRange types limit a)
    (hab : (a == b) = true) : InRange types limit b := by
  obtain ⟨hname, hdim⟩ := (TypeName.beq_iff a b).1 hab
  obtain ⟨⟨m, hm, hma⟩, hlimit⟩ := h
  exact ⟨⟨m, hm, hma.trans hname⟩, hdim ▸ hlimit⟩

/-- all types in range -/
def grid (types : List TypeName) (limit : Nat) : List TypeName :=
  types.flatMap fun m => (List.range (limit + 1)).map fun d => { m with dimensions := d }

theorem exists_mem_grid {types : List TypeName} {limit : Nat} {t : TypeName} (h : InRange types limit t) :
    ∃ u ∈ grid types limit, (u == t) = true := by
  obtain ⟨⟨m, hm, hname⟩, hlimit⟩ := h
  refine ⟨{ m with dimensions := t.dimensions }, ?_, (TypeName.beq_iff _ _).2 ⟨hname, rfl⟩⟩
  exact List.mem_flatMap.2 ⟨m, hm, List.mem_map.2 ⟨t.dimensions, List.mem_range.2 (by omega), rfl⟩⟩

theorem length_grid (types : List TypeName) (limit : Nat) : (grid types limit).length = types.length * (limit + 1) := by
  induction types with
  | nil => simp [grid]
  | cons m types ih =>
    simp only [grid, List.flatMap_cons, List.length_append, List.length_map, List.length_range, List.length_cons,
      Nat.succ_mul] at ih ⊢
    omega

/-- the types in range without a mark -/
def unmarked (types : List TypeName) (limit : Nat) (g : Guard) : List TypeName :=
  (grid types limit).filter fun t => !g.inProgress t

theorem length_unmarked_le (types : List TypeName) (limit : Nat) (g : Guard) :
    (unmarked types limit g).length ≤ types.length * (limit + 1) := by
  rw [← length_grid]
  exact List.length_filter_le _ _

theorem unmarked_cons (types : List TypeName) (limit : Nat) (g : Guard) (ty : TypeName) :
    unmarked types limit ⟨ty :: g.types⟩ = (unmarked types limit g).filter fun t => !(ty == t) := by
  simp only [unmarked, List.filter_filter, Guard.inProgress_cons, Bool.not_or]

theorem length_unmarked_cons_le (types : List TypeName) (limit : Nat) (g : Guard) (ty : TypeName) :
    (unmarked types limit ⟨ty :: g.types⟩).length ≤ (unmarked types limit g).length := by
  rw [unmarked_cons]
  exact List.length_filter_le _ _

theorem length_unmarked_cons_lt {types : List TypeName} {limit : Nat} {g : Guard} {ty : TypeName}
    (hr : InRange types limit ty) (hp : g.inProgress ty = false) :
    (unmarked types limit ⟨ty :: g.types⟩).length < (unmarked types limit g).length := by
  obtain ⟨u, hu, hut⟩ := exists_mem_grid hr
  rw [unmarked_cons, List.length_filter_lt_length_iff_exists]
  refine ⟨u, List.mem_filter.2 ⟨hu, ?_⟩, by simp [BEq.symm hut]⟩
  rw [Guard.inProgress_congr hut, hp]
  rfl

/-! ## Weights -/

/-- unmarked types count first, dimensions second -/
def weight (types : List TypeName) (limit : Nat) (ty : TypeName) (ctx : Context) : Nat :=
  (unmarked types limit ctx.guard).length * (limit + 1) + ty.dimensions

/-- with one mark more a type weighs less, whatever type it is -/
theorem weight_lt_of_mark {types : List TypeName} {limit : Nat} {t ty : TypeName} {c ctx : Context}
    (ht : InRange types limit t)
    (h : (unmarked types limit c.guard).length < (unmarked types limit ctx.guard).length) :
    weight types limit t c < weight types limit ty ctx := by
  have hmul := Nat.mul_le_mul_right (limit + 1) h
  have hdim := ht.2
  simp only [weight, Nat.succ_mul] at hmul ⊢
  omega

namespace Context

theorem referencedTypes_nested {ctx : Context} {t : TypeName} (h : t ∈ ctx.nested.referencedTypes) :
    ∃ u ∈ ctx.referencedTypes, (u == t) = true := by
  apply exists_mem_eraseDups
  have ht := mem_of_mem_eraseDups h
  simp only [literalTables, nested, Option.toList_none, List.nil_append, List.flatMap_cons, List.flatMap_nil,
    List.append_nil] at ht
  exact List.mem_flatMap.2 ⟨ctx.typeLiterals, List.mem_append_right _ List.mem_cons_self, ht⟩

end Context

namespace Resolver

variable (r : Resolver)

/-- the types that the unit and a context mention are in range -/
structure Surveys (types : List TypeName) (limit : Nat) (ctx : Context) : Prop where
  subtypes : ∀ info ∈ r.unit.types, ∀ t ∈ info.subtypes, InRange types limit t
  parameters : ∀ info ∈ r.unit.types, ∀ c ∈ info.constructors, ∀ p ∈ c.parameters, InRange types limit p
  references : ∀ t ∈ ctx.referencedTypes, InRange types limit t

variable {r} {types : List TypeName} {limit : Nat}

theorem Surveys.nested {ctx : Context} (h : r.Surveys types limit ctx) : r.Surveys types limit ctx.nested := by
  refine ⟨h.subtypes, h.parameters, fun t ht => ?_⟩
  obtain ⟨u, hu, hut⟩ := Context.referencedTypes_nested ht
  exact (h.references u hu).congr hut

theorem Surveys.marked {ctx : Context} (h : r.Surveys types limit ctx) (ty : TypeName) :
    r.Surveys types limit (ctx.marked ty) :=
  ⟨h.subtypes, h.parameters, h.references⟩

theorem Surveys.congr {c d : Context} (h : r.Surveys types limit c) (hcd : d.fork = c.fork) :
    r.Surveys types limit d := by
  have hrefs : d.fork.referencedTypes = c.fork.referencedTypes := by rw [hcd]
  exact ⟨h.subtypes, h.parameters, fun t ht => h.references t (hrefs ▸ ht)⟩

theorem mem_types_of_typeInfo {u : UnitInfo} {ty : TypeName} {info : TypeInfo} (h : u.typeInfo? ty = some info) :
    info ∈ u.types ∧ (info.ty == ty) = true :=
  ⟨List.mem_of_find?_eq_some h, by simpa using List.find?_some h⟩

/-- the data types of a type are the type itself, its declared subtypes, and referenced types that are assignable -/
theorem dataTypes_cases {ty d : TypeName} {ctx : Context} (hd : d ∈ r.dataTypes ty ctx) :
    d = ty ∨ (∃ info, r.unit.typeInfo? ty = some info ∧ d ∈ info.subtypes) ∨
      (d ∈ ctx.referencedTypes ∧ r.unit.hierarchy.isAssignable ty d = true) := by
  unfold dataTypes at hd
  split_ifs at hd
  · have hd := mem_of_mem_eraseDups hd
    rw [List.mem_append, List.mem_cons, List.mem_filter] at hd
    rcases hd with (rfl | hd) | hd
    · exact Or.inl rfl
    · cases hinfo : r.unit.typeInfo? ty with
      | none => simp [hinfo] at hd
      | some info =>
        rw [hinfo] at hd
        exact Or.inr (Or.inl ⟨info, rfl, hd⟩)
    · exact Or.inr (Or.inr hd)
  · exact Or.inl (List.mem_singleton.1 hd)

theorem inRange_dataTypes {ctx : Context} {ty d : TypeName} (hs : r.Surveys types limit ctx)
    (ht : InRange types limit ty) (hd : d ∈ r.dataTypes ty ctx) : InRange types limit d := by
  rcases dataTypes_cases hd with rfl | ⟨info, hinfo, hd⟩ | ⟨hd, _⟩
  · exact ht
  · exact hs.subtypes info (mem_types_of_typeInfo hinfo).1 d hd
  · exact hs.references d hd

theorem needs_range {shape : Shape} {ctx c : Context} {t : TypeName} (hs : r.Surveys types limit ctx)
    (ht : InRange types limit shape.target) (hn : r.Needs shape ctx t c) :
    InRange types limit t ∧ r.Surveys types limit c := by
  cases hn with
  | @element ty component _ _ harray =>
    obtain ⟨⟨m, hm, hname⟩, hlimit⟩ := ht
    unfold TypeName.component? at harray
    split at harray
    · cases harray
    · rename_i n hdim
      cases harray
      simp only [Shape.target] at hname hlimit
      exact ⟨⟨⟨m, hm, hname⟩, by simp only; omega⟩, hs.nested⟩
  | argument _ _ hopens hknown hc hp =>
    refine ⟨hs.parameters _ (mem_types_of_typeInfo hknown).1 _ hc _ hp, Surveys.nested ?_⟩
    cases hopens with
    | self _ => exact hs.marked _
    | subtype _ _ => exact (hs.marked _).marked _
  | subtype _ hd hopens => exact ⟨inRange_dataTypes hs ht hd, (hs.marked _).congr hopens⟩

/-- **Each need weighs less.** Arrays lose a dimension, expansions gain a mark. -/
theorem needs_weight {shape : Shape} {ctx c : Context} {t : TypeName} (hs : r.Surveys types limit ctx)
    (ht : InRange types limit shape.target) (hn : r.Needs shape ctx t c) :
    weight types limit t c < weight types limit shape.target ctx := by
  have hrange := (needs_range hs ht hn).1
  cases hn with
  | @element ty component _ _ harray =>
    unfold TypeName.component? at harray
    split at harray
    · cases harray
    · rename_i n hdim
      cases harray
      simp only [weight, Shape.target, Context.nested, hdim]
      omega
  | argument hfree _ hopens _ _ _ =>
    have hlt := length_unmarked_cons_lt ht hfree
    cases hopens with
    | self _ => exact weight_lt_of_mark hrange hlt
    | subtype _ _ => exact weight_lt_of_mark hrange (Nat.lt_of_le_of_lt (length_unmarked_cons_le _ _ _ _) hlt)
  | subtype hfree _ hopens =>
    have hguard : c.fork.guard = (ctx.marked _).fork.guard := congrArg Context.guard hopens
    refine weight_lt_of_mark hrange ?_
    show (unmarked types limit c.fork.guard).length < _
    rw [hguard]
    exact length_unmarked_cons_lt ht hfree

end Resolver

/-! ## Strategies under their own types -/

/-- every strategy that is found makes values of the type that it is found for -/
def Lookup.OwnTargets (lookup : Lookup) : Prop :=
  ∀ key ty s, lookup key ty = some s → (s.target == ty) = true

/-- what is registered for a type makes strategies of that type -/
def Registration.OwnTarget (e : Registration) : Prop :=
  ∀ ty, (e.ty == ty) = true → ((e.make ty).target == ty) = true

theorem Registration.OwnTarget.ofStrategy (scope : ScopeKey) (s : Strategy) :
    (Registration.ofStrategy scope s).OwnTarget :=
  fun _ hty => hty

/-- a catalog in which every strategy is registered under its own type -/
theorem Catalog.ownTargets {c : Catalog} (h : ∀ e ∈ c.entries, e.OwnTarget) : Lookup.OwnTargets c.lookup := by
  intro key ty s hs
  obtain ⟨e, he, rfl⟩ := Option.map_eq_some_iff.1 hs
  have hfor := List.find?_some he
  simp only [Registration.isFor, Bool.and_eq_true] at hfor
  exact h e (List.mem_of_find?_eq_some he) ty hfor.2

theorem Shape.target_ofType (u : UnitInfo) (ty : TypeName) : (ofType u ty).target = ty := by
  unfold ofType
  split_ifs
  · rfl
  · split
    · rfl
    · rfl
    · split_ifs <;> rfl
    · rfl

theorem Strategy.target_defaultShape {u : UnitInfo} {s : Strategy} {shape : Shape}
    (h : s.defaultShape? u = some shape) : shape.target = s.target := by
  cases s with
  | builtin own =>
    cases h
    rfl
  | custom s =>
    simp only [defaultShape?] at h
    split_ifs at h
    cases h
    have hw : ∀ own : Shape, (own.withMaxLength s.maxArrayLength).target = own.target := by
      intro own
      cases own <;> rfl
    rw [hw, Shape.target_ofType]
    rfl

namespace Resolver

variable (r : Resolver) {types : List TypeName} {limit : Nat}

theorem target_strategyFor (hown : r.lookup.OwnTargets) (ty : TypeName) (ctx : Context) :
    ((r.strategyFor ty ctx).target == ty) = true := by
  unfold strategyFor
  split
  · rename_i key s hs
    obtain ⟨_, _, hk⟩ := List.exists_of_findSome?_eq_some hs
    obtain ⟨_, hs', heq⟩ := Option.map_eq_some_iff.1 hk
    cases heq
    exact hown key ty s hs'
  · simp [Strategy.target, Shape.target_ofType]

/-! ## Nothing is left to explore -/

/-- with more levels than the weight of a type, it makes no difference how the exploration would continue -/
theorem agreeOn_above (hown : r.lookup.OwnTargets) (inner : ShapeValues) {n : Nat} {ty : TypeName} {ctx : Context}
    (hs : r.Surveys types limit ctx) (ht : InRange types limit ty) (hw : weight types limit ty ctx < n) :
    r.AgreeOn (r.above inner n) (r.shapeValues n) ty ctx := by
  induction n generalizing ty ctx with
  | zero => omega
  | succ n ih =>
    intro shape hshape
    have htarget : (ty == shape.target) = true := by
      rw [Strategy.target_defaultShape hshape]
      exact BEq.symm (r.target_strategyFor hown ty ctx)
    have hrange : InRange types limit shape.target := ht.congr htarget
    have hweight : weight types limit shape.target ctx = weight types limit ty ctx := by
      simp only [weight, ((TypeName.beq_iff _ _).1 htarget).2]
    refine r.shapeStep_congr (r.framed_shapeValues n) fun t c hn => ?_
    have hlt := needs_weight hs hrange hn
    obtain ⟨ht', hs'⟩ := needs_range hs hrange hn
    exact ih hs' ht' (by omega)

theorem le_foldl_max (l : List Nat) (b : Nat) : b ≤ l.foldl max b ∧ ∀ n ∈ l, n ≤ l.foldl max b := by
  induction l generalizing b with
  | nil => simp
  | cons a l ih =>
    obtain ⟨h1, h2⟩ := ih (max b a)
    refine ⟨by simp only [List.foldl_cons]; omega, fun n hn => ?_⟩
    rcases List.mem_cons.1 hn with rfl | hn
    · simp only [List.foldl_cons]; omega
    · exact h2 n hn

/-- the most dimensions that are mentioned -/
def mostDimensions (ty : TypeName) (ctx : Context) : Nat :=
  ((r.mentioned ty ctx).map TypeName.dimensions).foldl max 0

theorem inRange_mentioned {ty t : TypeName} {ctx : Context} (h : t ∈ r.mentioned ty ctx) :
    InRange (r.mentioned ty ctx) (r.mostDimensions ty ctx) t :=
  ⟨⟨t, h, rfl⟩, (le_foldl_max _ 0).2 _ (List.mem_map.2 ⟨t, h, rfl⟩)⟩

theorem surveys_mentioned (ty : TypeName) (ctx : Context) :
    r.Surveys (r.mentioned ty ctx) (r.mostDimensions ty ctx) ctx := by
  refine ⟨fun info hi t ht => ?_, fun info hi c hc p hp => ?_, fun t ht => ?_⟩
  · refine r.inRange_mentioned (List.mem_append_left _ (List.mem_cons_of_mem _ (List.mem_flatMap.2 ⟨info, hi, ?_⟩)))
    exact List.mem_append_left _ ht
  · refine r.inRange_mentioned (List.mem_append_left _ (List.mem_cons_of_mem _ (List.mem_flatMap.2 ⟨info, hi, ?_⟩)))
    exact List.mem_append_right _ (List.mem_flatMap.2 ⟨c, hc, hp⟩)
  · exact r.inRange_mentioned (List.mem_append_right _ ht)

theorem weight_lt_depth (ty : TypeName) (ctx : Context) :
    weight (r.mentioned ty ctx) (r.mostDimensions ty ctx) ty ctx < r.depth ty ctx := by
  have hmem : ty ∈ r.mentioned ty ctx := List.mem_append_left _ List.mem_cons_self
  have hdim := (r.inRange_mentioned hmem).2
  have hmul := Nat.mul_le_mul_right (r.mostDimensions ty ctx + 1)
    (length_unmarked_le (r.mentioned ty ctx) (r.mostDimensions ty ctx) ctx.guard)
  have hdepth : r.depth ty ctx =
      ((r.mentioned ty ctx).length * (r.mostDimensions ty ctx + 1) + 1) * (r.mostDimensions ty ctx + 1) + reserve := rfl
  rw [hdepth, Nat.succ_mul]
  unfold weight
  omega

/-- **The depth suffices.** Whatever would follow after the explored levels makes no difference. -/
theorem resolveWith_above (hown : r.lookup.OwnTargets) (inner : ShapeValues) (keep : Value → Bool) (ty : TypeName)
    (ctx : Context) :
    r.resolveWith (r.above inner (r.depth ty ctx)) keep ty ctx = r.resolveWhere keep ty ctx :=
  have hmem : ty ∈ r.mentioned ty ctx := List.mem_append_left _ List.mem_cons_self
  r.resolveWith_congr (r.agreeOn_above hown inner (r.surveys_mentioned ty ctx) (r.inRange_mentioned hmem)
    (r.weight_lt_depth ty ctx)) keep

theorem complete_resolveWhere (hown : r.lookup.OwnTargets) (keep : Value → Bool) (ty : TypeName) (ctx : Context) :
    (r.resolveWhere keep ty ctx).1.Complete := by
  rw [← r.resolveWith_above hown nothing keep ty ctx]
  exact r.complete_resolveWith (r.regular_above regular_nothing _) keep ty ctx

end Resolver

end TestInputs
