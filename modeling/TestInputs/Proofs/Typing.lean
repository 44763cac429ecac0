/-
Generated values are well typed to any depth. `WellTyped` says what a value of a declared type may be: null where the
type may be null, a constant of the kind that the type names or wraps, an array over its component, one of its declared
constants, or an object of an assignable type that one of the constructors of that type makes from well-typed arguments.

Results:
- `isAssignable_dataTypes`: in a linked unit every data type of a structured type is assignable to it;
- `wellTyped_of_yields`: one level keeps typing;
- `generated_wellTyped`: every value that is generated for a type is well typed at it.
-/
import TestInputs.Proofs.Generated

namespace TestInputs

/-! ## Well-typed values -/

/-- the values that may stand where a type is declared -/
inductive WellTyped (u : UnitInfo) : Value → TypeName → Prop
  | null {ty : TypeName} (nullable : ty.isNullable = true) : WellTyped u .null ty
  /-- a constant of a value-like kind, for a type of that kind or for its wrapper -/
  | ofKind {v : Value} {k : Kind} {ty : TypeName} (kind : v.kind? = some k)
      (fits : ty.kind? = some k ∨ (u.hierarchy.wrappers k).any (· == ty) = true) : WellTyped u v ty
  | array {component c ty : TypeName} {elements : List Value} (array : ty.component? = some c)
      (same : (component == c) = true) (each : ∀ e ∈ elements, WellTyped u e component) :
      WellTyped u (.array component elements) ty
  | enum {own ty : TypeName} {constant : String} {info : TypeInfo} (same : (own == ty) = true)
      (known : u.typeInfo? ty = some info) (declared : constant ∈ info.constants) : WellTyped u (.enum own constant) ty
  | object {own ty : TypeName} {index : Nat} {arguments : List Value} {info : TypeInfo} {c : Constructor}
      (assignable : u.hierarchy.isAssignable ty own = true) (known : u.typeInfo? own = some info)
      (concrete : info.isAbstract = false) (constructor : info.constructors[index]? = some c)
      (arity : arguments.length = c.arity) (each : ∀ x ∈ arguments.zip c.parameters, WellTyped u x.1 x.2) :
      WellTyped u (.object own index arguments) ty

/-! ## Declared types -/

theorem TypeName.isNullable_of_kind_none {ty : TypeName} (h : ty.kind? = none) : ty.isNullable = true := by
  simp [isNullable, h]

theorem TypeName.kind_none_of_isArray {ty : TypeName} (h : ty.isArray = true) : ty.kind? = none := by
  simp [kind?, h]

theorem TypeInfo.isAbstract_of_isInstantiable {info : TypeInfo} (h : info.isInstantiable = true) :
    info.isAbstract = false := by
  simp only [isInstantiable, Bool.and_eq_true, Bool.not_eq_true'] at h
  exact h.1

/-! ## Objects -/

/-- a unit in which an edge leads from each declared subtype, none of them an array, to its type -/
structure UnitInfo.Linked (u : UnitInfo) : Prop where
  leads : ∀ info ∈ u.types, ∀ sub ∈ info.subtypes, u.hierarchy.edges.Leads sub info.ty
  noArrays : ∀ info ∈ u.types, ∀ sub ∈ info.subtypes, sub.isArray = false

theorem UnitInfo.linked_linkTypes {u : UnitInfo}
    (hsubs : ∀ info ∈ u.types, ∀ sub ∈ info.subtypes, sub.isArray = false) : u.linkTypes.Linked := by
  refine ⟨fun info hinfo sub hsub => ?_, hsubs⟩
  -- linking changes the hierarchy and keeps the types
  have hmem : info ∈ u.types := hinfo
  exact leads_linkTypes hmem hsub

namespace Resolver

variable {r : Resolver}

/-- a data type of a type that is no array is assignable to it, unless it is an array and a declared subtype -/
theorem isAssignable_dataType
    (hleads : ∀ info ∈ r.unit.types, ∀ sub ∈ info.subtypes, r.unit.hierarchy.edges.Leads sub info.ty)
    {ty d : TypeName} {ctx : Context} (hty : ty.isArray = false) (hd : d ∈ r.dataTypes ty ctx)
    (hsub : ∀ info ∈ r.unit.types, d ∈ info.subtypes → d.isArray = false) :
    r.unit.hierarchy.isAssignable ty d = true := by
  rcases dataTypes_cases hd with rfl | ⟨info, hinfo, hd⟩ | ⟨_, hd⟩
  · exact r.unit.hierarchy.isAssignable_of_beq BEq.rfl
  · obtain ⟨hmem, hsame⟩ := mem_types_of_typeInfo hinfo
    obtain ⟨p, hp, hpi⟩ := hleads info hmem d hd
    exact r.unit.hierarchy.isAssignable_of_leads ⟨p, hp, BEq.trans hpi hsame⟩ (hsub info hmem hd) hty
  · exact hd

/-- every data type of a type that is no array is assignable to it -/
theorem isAssignable_dataTypes (hlinked : r.unit.Linked) {ty d : TypeName} {ctx : Context} (hty : ty.isArray = false)
    (hd : d ∈ r.dataTypes ty ctx) : r.unit.hierarchy.isAssignable ty d = true :=
  isAssignable_dataType hlinked.leads hty hd fun info hinfo hsub => hlinked.noArrays info hinfo d hsub

/-- arguments that are values of their parameters are well typed at them -/
theorem wellTyped_arguments {inner : ShapeValues} {opened : Context} {arguments : List Value}
    {parameters : List TypeName}
    (ih : ∀ t c w, w ∈ (r.resolveWith inner anyValue t c).1.toList → WellTyped r.unit w t)
    (hvalues : List.Forall₂ (fun a p => a ∈ (r.resolveWith inner anyValue p opened.nested).1.toList) arguments
      parameters) : ∀ x ∈ arguments.zip parameters, WellTyped r.unit x.1 x.2 := by
  induction hvalues with
  | nil => simp
  | @cons a p _ _ ha _ hrest =>
    intro x hx
    rcases List.mem_cons.1 hx with rfl | hx
    · exact ih p opened.nested a ha
    · exact hrest x hx

/-! ## One level -/

/-- **One level keeps typing.** What a level yields is well typed if the values it is made from are. -/
theorem wellTyped_of_yields (hlinked : r.unit.Linked) {inner : ShapeValues} {ty : TypeName} {ctx : Context} {v : Value}
    (ih : ∀ t c w, w ∈ (r.resolveWith inner anyValue t c).1.toList → WellTyped r.unit w t)
    (hv : r.Yields inner (Shape.ofType r.unit ty) ctx v) : WellTyped r.unit v ty := by
  have hspec := Shape.ofType_spec r.unit ty
  generalize Shape.ofType r.unit ty = shape at hv hspec
  cases hv with
  | primitive value =>
    obtain ⟨rfl, hkind⟩ := hspec
    rcases Shape.kind?_of_mem_primitiveValues value with hv | ⟨rfl, rfl⟩
    · exact .ofKind hv (Or.inl hkind)
    · exact .null (by simp [TypeName.isNullable, hkind, Kind.isNullable])
  | boxed value =>
    obtain ⟨rfl, hkind, hunboxed⟩ := hspec
    rcases Shape.kind?_of_mem_boxedValues value with hv | rfl
    · exact .ofKind hv (Or.inr (Hierarchy.wraps_of_unboxed hunboxed))
    · exact .null (TypeName.isNullable_of_kind_none hkind)
  | constant declared =>
    obtain ⟨rfl, info, hinfo, rfl⟩ := hspec
    exact .enum BEq.rfl hinfo declared
  | noArray =>
    obtain ⟨rfl, harray⟩ := hspec
    exact .null (TypeName.isNullable_of_kind_none (TypeName.kind_none_of_isArray harray))
  | array array values =>
    obtain ⟨rfl, _⟩ := hspec
    exact .array array BEq.rfl fun e he => ih _ _ e (values e he)
  | noObject =>
    obtain ⟨rfl, _, hkind, _⟩ := hspec
    exact .null (TypeName.isNullable_of_kind_none hkind)
  | object _ dataType _ known instantiable constructor values =>
    obtain ⟨rfl, hty, _, _⟩ := hspec
    have hsame := (mem_types_of_typeInfo known).2
    -- the object bears the name its type was declared with, which may differ from the data type in its generic part
    have hassignable := isAssignable_dataTypes hlinked hty dataType
    rw [← r.unit.hierarchy.isAssignable_congr hsame] at hassignable
    have hknown := (UnitInfo.typeInfo_congr hsame).trans known
    have hconcrete := TypeInfo.isAbstract_of_isInstantiable instantiable
    exact .object hassignable hknown hconcrete constructor values.length_eq (wellTyped_arguments ih values)

/-! ## All values -/

/-- **Generated values are well typed to any depth.** Without construct hooks and registered strategies, and with
declared subtypes that are no arrays: for every type in every context, each value is well typed at the type, and the
values meant are all there are. -/
theorem generated_wellTyped (lookup : Lookup) (unit : UnitInfo) (config : Config)
    (hplain : (Resolver.make lookup unit config).Plain)
    (hsubs : ∀ info ∈ unit.types, ∀ sub ∈ info.subtypes, sub.isArray = false) (ty : TypeName) (ctx : Context) :
    ((Resolver.make lookup unit config).resolve ty ctx).1.Complete ∧
      ∀ v ∈ ((Resolver.make lookup unit config).resolve ty ctx).1.toList,
        WellTyped (Resolver.make lookup unit config).unit v ty := by
  refine ⟨complete_resolveWhere _ (ownTargets_plain hplain) anyValue ty ctx, fun v hv => ?_⟩
  exact generated_induction hplain (motive := fun t _ w => WellTyped _ w t)
    (fun _ _ _ _ ih hy => wellTyped_of_yields (UnitInfo.linked_linkTypes hsubs) ih hy) hv

/-! A scene of circles, which are shapes and hold shapes. -/

def sceneUnit : UnitInfo :=
  { declaring := ⟨"Scene", "", 0⟩
    types :=
      [{ ty := ⟨"Shape", "", 0⟩, isAbstract := true, subtypes := [⟨"Circle", "", 0⟩] },
       { ty := ⟨"Circle", "", 0⟩,
         constructors := [⟨[⟨"Color", "", 0⟩, ⟨"Shape", "", 1⟩, ⟨"boolean", "", 0⟩], none⟩] },
       { ty := ⟨"Color", "", 0⟩, constants := ["RED", "GREEN"] }] }

def sceneResolver : Resolver := .make (fun _ _ => none) sceneUnit {}

theorem shapes_wellTyped :
    (sceneResolver.resolve ⟨"Shape", "", 0⟩ (.forType ⟨"Scene", "", 0⟩)).1.toList.length = 13 ∧
      ∀ v ∈ (sceneResolver.resolve ⟨"Shape", "", 0⟩ (.forType ⟨"Scene", "", 0⟩)).1.toList,
        WellTyped sceneResolver.unit v ⟨"Shape", "", 0⟩ :=
  ⟨by decide +kernel, (generated_wellTyped (fun _ _ => none) sceneUnit {} ⟨fun _ _ => rfl, by decide⟩ (by decide)
    ⟨"Shape", "", 0⟩ (.forType ⟨"Scene", "", 0⟩)).2⟩

end Resolver

end TestInputs
