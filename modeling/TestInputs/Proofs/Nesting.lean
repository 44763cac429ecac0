/-
No generated value nests a type inside itself. A branch of a value leads from its root through elements and arguments to
a leaf. An object is made under a mark on its type, and its arguments are resolved under all marks that stood when it
was made, so the objects further down a branch have other types, and none of them has a type that was marked at the start.

Results:
- `fresh_branch`: the types of the objects on a branch are pairwise different, unmarked, and instantiable;
- `Fresh.length_le`: there are no more of them than instantiable types in the unit;
- `branches_never_repeat`: the statement for every type in every context.
-/
import Mathlib.Data.List.Perm.Subperm
import TestInputs.Proofs.Generated

namespace TestInputs

/-! ## Branches -/

namespace Value

/-- the elements of an array, the arguments of an object -/
def parts : Value → List Value
  | array _ elements => elements
  | object _ _ arguments => arguments
  | _ => []

/-- the type of an object -/
def objectType? : Value → Option TypeName
  | object ty _ _ => some ty
  | _ => none

/-- the values on a way from the root of a value down to a leaf -/
inductive Branch : Value → List Value → Prop
  | leaf {v : Value} (bare : v.parts = []) : Branch v [v]
  | down {v w : Value} {path : List Value} (part : w ∈ v.parts) (rest : Branch w path) : Branch v (v :: path)

/-- the types of the objects on a way, outermost first -/
def objectTypes (path : List Value) : List TypeName := path.filterMap objectType?

theorem objectTypes_cons (v : Value) (path : List Value) :
    objectTypes (v :: path) = v.objectType?.toList ++ objectTypes path := by
  cases h : v.objectType? <;> simp [objectTypes, h]

/-- a value without parts that is no object has no objects on its branch -/
theorem objectTypes_of_bare {v : Value} {path : List Value} (hp : v.parts = []) (ho : v.objectType? = none)
    (hb : v.Branch path) : objectTypes path = [] := by
  cases hb with
  | leaf _ => rw [objectTypes_cons, ho]; rfl
  | down hw _ => simp [hp] at hw

theorem bare_of_kind {v : Value} {k : Kind} (h : v.kind? = some k) : v.parts = [] ∧ v.objectType? = none := by
  cases v <;> simp_all [kind?, parts, objectType?]

end Value

/-! ## Fresh types -/

/-- the types that have a description by which they can be instantiated, each once -/
def UnitInfo.instantiableTypes (u : UnitInfo) : List TypeName :=
  ((u.types.filter TypeInfo.isInstantiable).map TypeInfo.ty).eraseDups

/-- types of objects that may follow each other down a branch -/
structure Fresh (u : UnitInfo) (g : Guard) (types : List TypeName) : Prop where
  distinct : types.Pairwise fun a b => (a == b) = false
  unmarked : ∀ t ∈ types, g.inProgress t = false
  instantiable : ∀ t ∈ types, ∃ b ∈ u.instantiableTypes, (b == t) = true

theorem fresh_nil (u : UnitInfo) (g : Guard) : Fresh u g [] := ⟨.nil, by simp, by simp⟩

/-- types that differ pairwise are no more than the types among which they are found -/
theorem Fresh.length_le {u : UnitInfo} {g : Guard} {types : List TypeName} (h : Fresh u g types) :
    types.length ≤ u.instantiableTypes.length := by
  let key (t : TypeName) : String × Nat := (t.name, t.dimensions)
  have hnodup : (types.map key).Nodup := by
    rw [List.Nodup, List.pairwise_map]
    refine h.distinct.imp fun {a b} hab he => ?_
    rw [Prod.mk.injEq, ← TypeName.beq_iff] at he
    rw [he] at hab
    cases hab
  have hsub : types.map key ⊆ u.instantiableTypes.map key := by
    intro k hk
    obtain ⟨t, ht, rfl⟩ := List.mem_map.1 hk
    obtain ⟨b, hb, hbt⟩ := h.instantiable t ht
    refine List.mem_map.2 ⟨b, hb, ?_⟩
    rw [Prod.mk.injEq, ← TypeName.beq_iff]
    exact hbt
  simpa using (hnodup.subperm hsub).length_le

namespace Resolver

variable {r : Resolver}

/-! ## Marks along a branch -/

theorem Opens.unmarked {ty d : TypeName} {ctx opened : Context} (h : Opens ty ctx d opened)
    (hfree : ctx.guard.inProgress ty = false) : ctx.guard.inProgress d = false := by
  cases h with
  | self hsame => rw [Guard.inProgress_congr hsame, hfree]
  | subtype _ hd =>
    have hd : (ty == d || ctx.guard.inProgress d) = false := hd
    exact (Bool.or_eq_false_iff.1 hd).2

theorem Opens.marks {ty d : TypeName} {ctx opened : Context} (h : Opens ty ctx d opened) :
    opened.guard.inProgress d = true := by
  cases h with
  | self hsame =>
    show (ty == d || ctx.guard.inProgress d) = true
    rw [BEq.symm hsame, Bool.true_or]
  | subtype _ _ =>
    show (d == d || (ctx.marked ty).guard.inProgress d) = true
    rw [BEq.rfl, Bool.true_or]

theorem Opens.keeps {ty d t : TypeName} {ctx opened : Context} (h : Opens ty ctx d opened)
    (ht : opened.guard.inProgress t = false) : ctx.guard.inProgress t = false := by
  cases h with
  | self _ =>
    have ht : (ty == t || ctx.guard.inProgress t) = false := ht
    exact (Bool.or_eq_false_iff.1 ht).2
  | subtype _ _ =>
    have ht : (d == t || (ty == t || ctx.guard.inProgress t)) = false := ht
    exact (Bool.or_eq_false_iff.1 (Bool.or_eq_false_iff.1 ht).2).2

/-- below an object of a data type all types are fresh if they are fresh under its marks -/
theorem Fresh.object {ty d : TypeName} {ctx opened : Context} {info : TypeInfo} {types : List TypeName}
    (hopens : Opens ty ctx d opened) (hfree : ctx.guard.inProgress ty = false) (hknown : r.unit.typeInfo? d = some info)
    (hinst : info.isInstantiable = true) (h : Fresh r.unit opened.guard types) :
    Fresh r.unit ctx.guard (info.ty :: types) := by
  obtain ⟨hmem, hty⟩ := mem_types_of_typeInfo hknown
  refine ⟨List.pairwise_cons.2 ⟨fun t ht => ?_, h.distinct⟩, fun t ht => ?_, fun t ht => ?_⟩
  · -- a type equal to that of the object would bear its mark
    by_contra hc
    have he : (info.ty == t) = true := by simpa using hc
    have hmarked := h.unmarked t ht
    rw [← Guard.inProgress_congr (BEq.trans (BEq.symm hty) he), hopens.marks] at hmarked
    cases hmarked
  · rcases List.mem_cons.1 ht with rfl | ht
    · rw [Guard.inProgress_congr hty]
      exact hopens.unmarked hfree
    · exact hopens.keeps (h.unmarked t ht)
  · rcases List.mem_cons.1 ht with rfl | ht
    · exact exists_mem_eraseDups (List.mem_map.2 ⟨info, List.mem_filter.2 ⟨hmem, hinst⟩, rfl⟩)
    · exact h.instantiable t ht

theorem fresh_branch (hplain : r.Plain) {keep : Value → Bool} {ty : TypeName} {ctx : Context} {v : Value}
    (hv : v ∈ (r.resolveWhere keep ty ctx).1.toList) :
    ∀ path, v.Branch path → Fresh r.unit ctx.guard (Value.objectTypes path) := by
  refine generated_induction hplain
    (motive := fun _ ctx v => ∀ path, v.Branch path → Fresh r.unit ctx.guard (Value.objectTypes path)) ?_ hv
  intro inner ty ctx v ih hy path hb
  have hnone : v.parts = [] → v.objectType? = none → Fresh r.unit ctx.guard (Value.objectTypes path) := by
    intro hp ho
    rw [Value.objectTypes_of_bare hp ho hb]
    exact fresh_nil _ _
  generalize Shape.ofType r.unit ty = shape at hy
  cases hy with
  | primitive hv =>
    rcases Shape.kind?_of_mem_primitiveValues hv with hk | ⟨rfl, _⟩
    · exact hnone (Value.bare_of_kind hk).1 (Value.bare_of_kind hk).2
    · exact hnone rfl rfl
  | boxed hv =>
    rcases Shape.kind?_of_mem_boxedValues hv with hk | rfl
    · exact hnone (Value.bare_of_kind hk).1 (Value.bare_of_kind hk).2
    · exact hnone rfl rfl
  | constant _ => exact hnone rfl rfl
  | noArray => exact hnone rfl rfl
  | array _ helements =>
    cases hb with
    | leaf hbare => exact hnone hbare rfl
    | down hw hrest =>
      rw [Value.objectTypes_cons]
      exact ih _ _ _ (helements _ hw) _ hrest
  | noObject => exact hnone rfl rfl
  | object hfree _ hopens hknown hinst _ hargs =>
    cases hb with
    | leaf _ => exact Fresh.object hopens hfree hknown hinst (fresh_nil _ _)
    | down hw hrest =>
      obtain ⟨p, _, hp⟩ := exists_partner hargs hw
      exact Fresh.object hopens hfree hknown hinst (ih _ _ _ hp _ hrest)

/-- **No type inside itself.** Without construct hooks and registered strategies, for every type in every context: on
no branch of a value, be it resolved first or derived again, stand two objects of equal types or an object whose type
was marked, and no branch holds more objects than there are instantiable types. The values meant are all there are: nothing
is given up. -/
theorem branches_never_repeat (r : Resolver) (hplain : r.Plain) (ty : TypeName) (ctx : Context) :
    (r.resolve ty ctx).1.Complete ∧
    ∀ v, (v ∈ (r.resolve ty ctx).1.toList ∨ v ∈ (r.factory ty ctx ()).toList) → ∀ path, v.Branch path →
      (Value.objectTypes path).Pairwise (fun a b => (a == b) = false) ∧
      (∀ t ∈ Value.objectTypes path, ctx.guard.inProgress t = false) ∧
      (Value.objectTypes path).length ≤ r.unit.instantiableTypes.length := by
  refine ⟨r.complete_resolveWhere (ownTargets_plain hplain) anyValue ty ctx, fun v hv path hb => ?_⟩
  have hfresh : Fresh r.unit ctx.guard (Value.objectTypes path) := by
    rcases hv with hv | hv
    · exact fresh_branch hplain hv path hb
    · have hv : v ∈ (r.resolveWhere anyValue ty ctx.fork).1.toList := hv
      exact fresh_branch hplain hv path hb
  exact ⟨hfresh.distinct, hfresh.unmarked, hfresh.length_le⟩

/-! Leaves hold trees, and trees and forests are leaves. -/

def forestUnit : UnitInfo :=
  { declaring := ⟨"Forest", "", 0⟩
    types :=
      [{ ty := ⟨"Forest", "", 0⟩, constructors := [⟨[⟨"Tree", "", 1⟩], none⟩] },
       { ty := ⟨"Tree", "", 0⟩, constructors := [⟨[⟨"Leaf", "", 0⟩, ⟨"Tree", "", 1⟩], none⟩] },
       { ty := ⟨"Leaf", "", 0⟩, constructors := [⟨[], none⟩, ⟨[⟨"Tree", "", 0⟩], none⟩],
         subtypes := [⟨"Tree", "", 0⟩, ⟨"Forest", "", 0⟩] }] }

def forestResolver : Resolver := .make (fun _ _ => none) forestUnit {}

/-- inside an expansion of the forest -/
def inForest : Context := (Context.forType ⟨"Forest", "", 0⟩).marked ⟨"Forest", "", 0⟩

theorem leaves_never_repeat :
    (forestResolver.resolve ⟨"Leaf", "", 0⟩ inForest).1.toList.length = 9 ∧
    ∀ v ∈ (forestResolver.resolve ⟨"Leaf", "", 0⟩ inForest).1.toList, ∀ path, v.Branch path →
      (Value.objectTypes path).Pairwise (fun a b => (a == b) = false) ∧
      (∀ t ∈ Value.objectTypes path, inForest.guard.inProgress t = false) ∧
      (Value.objectTypes path).length ≤ 3 :=
  ⟨by decide +kernel, fun v hv => (branches_never_repeat forestResolver ⟨fun _ _ => rfl, by decide⟩ ⟨"Leaf", "", 0⟩
    inForest).2 v (Or.inl hv)⟩

end Resolver

end TestInputs
