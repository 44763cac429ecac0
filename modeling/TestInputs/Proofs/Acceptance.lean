/-
Generated values as fixed arguments. A value is generated by the shape of a declared type; passed as a fixed argument it
is matched by its type at run time. The two views agree on null, on numbers, characters and truth values under the name
of their kind or behind a wrapper, on constants of enumerations, on arrays and on objects of types without dimensions.

They part in two places. Strings are generated for every name of their kind and for its wrapper, but at run time their
type is `String`, which is not boxed: another type takes them if declared edges lead there. And a unit may declare an
array type as a subtype and give it constructors; its objects are generated, but types that differ in their dimensions
are never assignable.

Results:
- `isAssignable_string_iff`: where the type of strings is assignable;
- `accepted_of_yields`: what one level yields is accepted, with the exceptions above;
- `generated_accepted_at_own_type`: every generated value is accepted where its type is declared, with these exceptions;
- `generated_refused_at_own_type`: the exceptions occur.
-/
import TestInputs.Proofs.Literals
import TestInputs.Proofs.Overloads
import TestInputs.Proofs.Reachability
import TestInputs.Proofs.Typing

namespace TestInputs

/-! ## Types at run time -/

theorem Value.type_of_kind {v : Value} {k : Kind} (h : v.kind? = some k) : v.type? = some (.ofKind k) := by
  cases v with
  | null | array | enum | object => cases h
  | _ =>
    cases h
    rfl

/-- one step of a search that ends with the first condition that holds -/
theorem Kind.of_ite {p : Prop} [Decidable p] {j k : Kind} {rest : Option Kind}
    (h : (if p then some j else rest) = some k) : (p ∧ j = k) ∨ rest = some k := by
  by_cases hp : p
  · rw [if_pos hp] at h
    exact Or.inl ⟨hp, Option.some.inj h⟩
  · rw [if_neg hp] at h
    exact Or.inr h

/-- only strings have a second name -/
theorem Kind.eq_name_of_ofName {name : String} {k : Kind} (h : ofName? name = some k) (hk : k ≠ .string) :
    name = k.name := by
  unfold ofName? at h
  iterate 8
    rcases of_ite h with ⟨hn, rfl⟩ | h
    · exact hn
  rcases of_ite h with ⟨-, rfl⟩ | h
  · exact absurd rfl hk
  · cases h

theorem TypeName.beq_ofKind {ty : TypeName} {k : Kind} (h : ty.kind? = some k) (hk : k ≠ .string) :
    (ty == ofKind k) = true := by
  have harray := isArray_of_kind h
  rw [kind?, harray, if_neg Bool.false_ne_true] at h
  exact (beq_iff _ _).2 ⟨Kind.eq_name_of_ofName h hk, dimensions_of_not_isArray harray⟩

theorem TypeName.beq_arrayOf {ty component : TypeName} (h : ty.component? = some component) :
    (ty == component.arrayOf) = true := by
  unfold component? at h
  split at h
  · cases h
  · rename_i n hn
    cases h
    exact (beq_iff _ _).2 ⟨rfl, hn⟩

namespace Hierarchy

variable {h : Hierarchy} {ty own : TypeName}

theorem Wraps.kind_eq {primitive wrapper : TypeName} {k : Kind} (hwraps : h.Wraps primitive wrapper k) :
    primitive.kind? = some k := by
  rw [TypeName.kind?, hwraps.single, if_neg Bool.false_ne_true, hwraps.kind]

/-- a wrapper takes the constants of its kind -/
theorem isAssignable_of_wraps {k : Kind} (hk : k ≠ .string) (hwraps : (h.wrappers k).any (· == ty) = true) :
    h.isAssignable ty (.ofKind k) = true := by
  obtain ⟨w, hw, hsame⟩ := (Option.any_eq_true _ _).1 hwraps
  have hname : Kind.ofName? (TypeName.ofKind k).name = some k := TypeName.kind_ofKind k
  exact isAssignable_iff.2 (.boxed ⟨rfl, hname, hk, w, hw, hsame⟩)

/-- **Where strings are taken**: at a type that is not value-like or is one of strings, if declared edges lead there. -/
theorem isAssignable_string_iff (harray : ty.isArray = false) (hkind : ty.kind? = none ∨ ty.kind? = some .string) :
    h.isAssignable ty (.ofKind .string) = true ↔ h.edges.Path (.ofKind .string) ty := by
  have hnone := TypeName.dimensions_of_not_isArray harray
  have hbase := TypeName.base_of_not_isArray harray
  rw [isAssignable_iff]
  constructor
  · intro hassignable
    cases hassignable with
    | same hsame => exact .done (BEq.symm hsame)
    | unboxed hwraps =>
      -- only a value-like type other than strings unboxes
      rw [hwraps.kind_eq] at hkind
      rcases hkind with hkind | hkind
      · cases hkind
      · exact absurd (Option.some.inj hkind) hwraps.noString
    | boxed hwraps => exact absurd (Option.some.inj hwraps.kind).symm hwraps.noString
    | widened _ hpath _ =>
      rw [hbase] at hpath
      exact hpath
  · intro hpath
    refine .widened hnone ?_ fun hpositive => absurd hpositive (by omega)
    rw [hbase]
    exact hpath

/-- an array is not assignable to a structured type -/
theorem not_isAssignable_array (harray : ty.isArray = false) (hkind : ty.kind? = none) (hown : own.isArray = true) :
    h.isAssignable ty own = false := by
  have hdimensions : ty.dimensions ≠ own.dimensions := by
    have hpositive : 0 < own.dimensions := of_decide_eq_true hown
    rw [TypeName.dimensions_of_not_isArray harray]
    omega
  refine Bool.eq_false_iff.2 fun hassignable => ?_
  cases isAssignable_iff.1 hassignable with
  | same hsame => exact hdimensions ((TypeName.beq_iff _ _).1 hsame).2
  | unboxed hwraps =>
    rw [hwraps.kind_eq] at hkind
    cases hkind
  | boxed hwraps =>
    rw [hwraps.single] at hown
    cases hown
  | widened hequal _ _ => exact hdimensions hequal

end Hierarchy

/-! ## Accepted values -/

/-- when a value that is generated for a type is accepted, as a fixed argument, where this type is declared -/
structure Value.AcceptedAt (h : Hierarchy) (ty : TypeName) (v : Value) : Prop where
  /-- always, if it is neither a string nor an object of an array type -/
  usual : v.kind? ≠ some .string → (∀ own i arguments, v = .object own i arguments → own.isArray = false) →
    (Argument.concrete v).fits h ty = true
  /-- a string wherever declared edges lead from the type of strings, and so where this type itself is declared -/
  string : v.kind? = some .string → h.edges.Path (.ofKind .string) ty → (Argument.concrete v).fits h ty = true
  /-- strings are not boxed: their wrapper takes them for no other reason -/
  boxedString : v.kind? = some .string → ty.kind? = none → (Argument.concrete v).fits h ty = true →
    h.edges.Path (.ofKind .string) ty
  /-- objects of array types never -/
  array : ∀ own i arguments, v = .object own i arguments → own.isArray = true → (Argument.concrete v).fits h ty = false

namespace Value

variable {h : Hierarchy} {ty : TypeName} {v : Value}

/-- a value that is neither a string nor an object of an array type has only to be accepted -/
theorem acceptedAt_of_fits (hkind : v.kind? ≠ some .string)
    (hobject : ∀ own i arguments, v = .object own i arguments → own.isArray = false)
    (hfits : (Argument.concrete v).fits h ty = true) : AcceptedAt h ty v where
  usual _ _ := hfits
  string hstring := absurd hstring hkind
  boxedString hstring := absurd hstring hkind
  array own i arguments hv harray := by
    rw [hobject own i arguments hv] at harray
    cases harray

theorem acceptedAt_null (hnullable : ty.isNullable = true) : AcceptedAt h ty .null := by
  refine acceptedAt_of_fits (by simp [kind?]) (fun own i arguments hv => ?_) hnullable
  cases hv

theorem fits_of_type {own : TypeName} (htype : v.type? = some own) :
    (Argument.concrete v).fits h ty = h.isAssignable ty own := by
  simp only [Argument.fits, Argument.type?, htype]

/-- a constant is accepted under the name of its kind and behind its wrapper, a string where edges lead -/
theorem acceptedAt_of_kind {k : Kind} (hv : v.kind? = some k) (harray : ty.isArray = false)
    (hty : ty.kind? = some k ∨ (ty.kind? = none ∧ (h.wrappers k).any (· == ty) = true)) : AcceptedAt h ty v := by
  have hfits : (Argument.concrete v).fits h ty = h.isAssignable ty (.ofKind k) := fits_of_type (type_of_kind hv)
  have hobject : ∀ own i arguments, v ≠ .object own i arguments := by
    rintro own i arguments rfl
    cases hv
  by_cases hstring : k = .string
  · subst hstring
    have hiff : (Argument.concrete v).fits h ty = true ↔ h.edges.Path (.ofKind .string) ty := by
      rw [hfits]
      exact Hierarchy.isAssignable_string_iff harray (hty.symm.imp_left And.left)
    exact {
      usual := fun hne _ => absurd hv hne
      string := fun _ hpath => hiff.2 hpath
      boxedString := fun _ _ haccepted => hiff.1 haccepted
      array := fun own i arguments hv => absurd hv (hobject own i arguments) }
  · have hassignable : h.isAssignable ty (.ofKind k) = true := by
      rcases hty with hkind | ⟨-, hwraps⟩
      · exact h.isAssignable_of_beq (TypeName.beq_ofKind hkind hstring)
      · exact Hierarchy.isAssignable_of_wraps hstring hwraps
    refine acceptedAt_of_fits ?_ (fun own i arguments hv => absurd hv (hobject own i arguments)) ?_
    · rw [hv]
      exact fun hk => hstring (Option.some.inj hk)
    · rw [hfits]
      exact hassignable

/-- an object is accepted at a structured type if its type is no array and is assignable -/
theorem acceptedAt_object {own : TypeName} {i : Nat} {arguments : List Value} (harray : ty.isArray = false)
    (hkind : ty.kind? = none) (hassignable : own.isArray = false → h.isAssignable ty own = true) :
    AcceptedAt h ty (.object own i arguments) := by
  have hnoString : (object own i arguments).kind? ≠ some .string := by simp [kind?]
  cases hown : own.isArray with
  | false =>
    refine acceptedAt_of_fits hnoString (fun own' j others hv => ?_) (hassignable hown)
    cases hv
    exact hown
  | true =>
    refine ⟨fun _ hobject => ?_, fun hstring => absurd hstring hnoString, fun hstring => absurd hstring hnoString,
      fun own' j others hv _ => ?_⟩
    · rw [hobject own i arguments rfl] at hown
      cases hown
    · cases hv
      exact Hierarchy.not_isAssignable_array harray hkind hown

end Value

theorem Shape.isArray_of_boxed {u : UnitInfo} {ty t : TypeName} {k : Kind} (hshape : ofType u ty = .boxed t k) :
    ty.isArray = false := by
  refine Bool.eq_false_iff.2 fun harray => ?_
  rw [ofType, if_pos harray] at hshape
  cases hshape

/-! ## One level -/

namespace Resolver

variable {r : Resolver}

/-- **What one level yields is accepted**, with the exceptions of strings and of objects of array types. -/
theorem accepted_of_yields
    (hleads : ∀ info ∈ r.unit.types, ∀ sub ∈ info.subtypes, r.unit.hierarchy.edges.Leads sub info.ty)
    {inner : ShapeValues} {ty : TypeName} {ctx : Context} {v : Value}
    (hv : r.Yields inner (Shape.ofType r.unit ty) ctx v) : v.AcceptedAt r.unit.hierarchy ty := by
  have hspec := Shape.ofType_spec r.unit ty
  generalize hshape : Shape.ofType r.unit ty = shape at hv hspec
  cases hv with
  | primitive value =>
    obtain ⟨rfl, hkind⟩ := hspec
    rcases Shape.kind?_of_mem_primitiveValues value with hv | ⟨rfl, rfl⟩
    · exact Value.acceptedAt_of_kind hv (TypeName.isArray_of_kind hkind) (Or.inl hkind)
    · exact Value.acceptedAt_null (by simp [TypeName.isNullable, hkind, Kind.isNullable])
  | boxed value =>
    obtain ⟨rfl, hkind, hunboxed⟩ := hspec
    rcases Shape.kind?_of_mem_boxedValues value with hv | rfl
    · exact Value.acceptedAt_of_kind hv (Shape.isArray_of_boxed hshape)
        (Or.inr ⟨hkind, Hierarchy.wraps_of_unboxed hunboxed⟩)
    · exact Value.acceptedAt_null (TypeName.isNullable_of_kind_none hkind)
  | constant declared =>
    obtain ⟨rfl, -⟩ := hspec
    refine Value.acceptedAt_of_fits (by simp [Value.kind?]) (fun own i arguments hv => ?_)
      (r.unit.hierarchy.isAssignable_of_beq BEq.rfl)
    cases hv
  | noArray =>
    obtain ⟨rfl, harray⟩ := hspec
    exact Value.acceptedAt_null (TypeName.isNullable_of_kind_none (TypeName.kind_none_of_isArray harray))
  | array array values =>
    obtain ⟨rfl, -⟩ := hspec
    refine Value.acceptedAt_of_fits (by simp [Value.kind?]) (fun own i arguments hv => ?_)
      (r.unit.hierarchy.isAssignable_of_beq (TypeName.beq_arrayOf array))
    cases hv
  | noObject =>
    obtain ⟨rfl, _, hkind, _⟩ := hspec
    exact Value.acceptedAt_null (TypeName.isNullable_of_kind_none hkind)
  | object _ dataType _ known instantiable constructor values =>
    obtain ⟨rfl, hty, hkind, -⟩ := hspec
    have hsame := (mem_types_of_typeInfo known).2
    refine Value.acceptedAt_object hty hkind fun hown => ?_
    rw [r.unit.hierarchy.isAssignable_congr hsame]
    exact isAssignable_dataType hleads hty dataType fun _ _ _ => (TypeName.isArray_congr hsame).symm.trans hown

/-! ## All values -/

/-- **Generated values are accepted where their own type is declared.** Without construct hooks and registered
strategies, for every type in every context: each generated value is accepted as a fixed argument for a parameter of
the type, null if the type is nullable and any other value if its type at run time is assignable. There are two
exceptions. A string is accepted at `String` and wherever declared edges lead from there; a wrapper of strings accepts
it for no other reason. An object of an array type, which a unit may declare as a subtype, is refused. The values meant
are all there are. -/
theorem generated_accepted_at_own_type (lookup : Lookup) (unit : UnitInfo) (config : Config)
    (hplain : (Resolver.make lookup unit config).Plain) (ty : TypeName) (ctx : Context) :
    ((Resolver.make lookup unit config).resolve ty ctx).1.Complete ∧
      ∀ v ∈ ((Resolver.make lookup unit config).resolve ty ctx).1.toList,
        v.AcceptedAt (Resolver.make lookup unit config).unit.hierarchy ty := by
  refine ⟨complete_resolveWhere _ (ownTargets_plain hplain) anyValue ty ctx, fun v hv => ?_⟩
  have hleads : ∀ info ∈ (Resolver.make lookup unit config).unit.types, ∀ sub ∈ info.subtypes,
      (Resolver.make lookup unit config).unit.hierarchy.edges.Leads sub info.ty := by
    intro info hinfo sub hsub
    have hmem : info ∈ unit.types := hinfo
    exact UnitInfo.leads_linkTypes hmem hsub
  exact generated_induction hplain (motive := fun t _ w => w.AcceptedAt _ t)
    (fun _ _ _ _ _ hy => accepted_of_yields hleads hy) hv

/-! A sheet with figures. Texts wrap strings, and besides dots, which bear a text, rows of lines were declared figures. -/

def sheetUnit : UnitInfo :=
  { declaring := ⟨"Sheet", "", 0⟩
    types :=
      [{ ty := ⟨"Figure", "", 0⟩, isAbstract := true, subtypes := [⟨"Line", "", 1⟩, ⟨"Dot", "", 0⟩] },
       { ty := ⟨"Line", "", 1⟩, constructors := [⟨[], none⟩] },
       { ty := ⟨"Dot", "", 0⟩, constructors := [⟨[⟨"Text", "", 0⟩], none⟩] }]
    hierarchy := Hierarchy.empty.addWrapper .string ⟨"Text", "", 0⟩ }

def sheetResolver : Resolver := .make (fun _ _ => none) sheetUnit {}

theorem sheet_accepted_at_own_type :
    (sheetResolver.resolve ⟨"Figure", "", 0⟩ (.forType ⟨"Sheet", "", 0⟩)).1.toList.length = 4 ∧
      ∀ v ∈ (sheetResolver.resolve ⟨"Figure", "", 0⟩ (.forType ⟨"Sheet", "", 0⟩)).1.toList,
        v.AcceptedAt sheetResolver.unit.hierarchy ⟨"Figure", "", 0⟩ :=
  ⟨by decide +kernel, (generated_accepted_at_own_type (fun _ _ => none) sheetUnit {} ⟨fun _ _ => rfl, by decide⟩
    ⟨"Figure", "", 0⟩ (.forType ⟨"Sheet", "", 0⟩)).2⟩

/-- Not every generated value is accepted: a string is refused by its wrapper and under its second name, and a row of
lines is refused as a figure. -/
theorem generated_refused_at_own_type :
    sheetResolver.Plain ∧ ∀ ty ∈ [⟨"Text", "", 0⟩, ⟨"java.lang.String", "", 0⟩, ⟨"Figure", "", 0⟩],
      ∃ v ∈ (sheetResolver.resolve ty (.forType ⟨"Sheet", "", 0⟩)).1.toList,
        (Argument.concrete v).fits sheetResolver.unit.hierarchy ty = false := by
  have hrefused : ∀ ty ∈ [⟨"Text", "", 0⟩, ⟨"java.lang.String", "", 0⟩, ⟨"Figure", "", 0⟩],
      ((sheetResolver.resolve ty (.forType ⟨"Sheet", "", 0⟩)).1.toList.any fun v =>
        !(Argument.concrete v).fits sheetResolver.unit.hierarchy ty) = true := by
    decide +kernel
  refine ⟨⟨fun _ _ => rfl, by decide⟩, fun ty hty => ?_⟩
  obtain ⟨v, hv, hfits⟩ := List.any_eq_true.1 (hrefused ty hty)
  exact ⟨v, hv, by simpa using hfits⟩

end Resolver

end TestInputs
