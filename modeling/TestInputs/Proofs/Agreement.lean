/-
Two resolvers side by side. A resolver reads its unit in a few places only: what is known about a type, which kind a
type boxes, and which types are assignable. It reads the registered strategies at the scopes of the chain alone, and
for constructor arguments and array elements not at the scopes of single parameters. Two resolvers that agree on this
much give the same values and the same diagnostics, through all levels of exploration.

The relation is carried through the steps of the resolver one by one. Registered strategies may differ at the scope of
a parameter, as long as no step looks there: below the first step nothing does, and in the first step only the subtypes
do, so that switching these off is enough.

Results:
- `shapeStep_agree`, `shapeValues_agree`: default values agree level by level;
- `resolveWhere_agree`: so do the values of a type, if its own strategy is the same;
- `receiverPosition_agree`, `slotPosition_agree`, `tuples_agree`: and the positions and tuples of operations.
-/
import Mathlib.Data.List.Perm.Basic
import TestInputs.Proofs.Levels
import TestInputs.Tuples

namespace TestInputs

theorem TypeInfo.instantiate_agree {g h : Hierarchy}
    (hassignable : ∀ target source, g.isAssignable target source = h.isAssignable target source) (info : TypeInfo)
    (arguments : List Argument) : info.instantiate g arguments = info.instantiate h arguments := by
  have hfits : ∀ p a, Argument.fits g p a = Argument.fits h p a := by
    intro p a
    simp only [Argument.fits, hassignable]
  simp only [instantiate, accepting, Constructor.accepts, hfits]

namespace Resolver

open Context (Framed)

/-! ## What two resolvers have in common -/

/-- the settings are the same, and the units tell the same about every type -/
structure SameView (r r' : Resolver) : Prop where
  config : r.config = r'.config
  declaring : r.unit.declaring = r'.unit.declaring
  types : r.unit.types.Perm r'.unit.types
  typeInfo : ∀ ty, r.unit.typeInfo? ty = r'.unit.typeInfo? ty
  unboxed : ∀ ty, r.unit.hierarchy.unboxed? ty = r'.unit.hierarchy.unboxed? ty
  assignable : ∀ target source,
    r.unit.hierarchy.isAssignable target source = r'.unit.hierarchy.isAssignable target source

/-- the same strategies are registered at the scopes of a chain -/
def SameAlong (r r' : Resolver) (chain : List ScopeKey) : Prop :=
  ∀ key ∈ chain, ∀ ty, r.lookup key ty = r'.lookup key ty

/-- the same strategies are found for all types that are resolved in order to make the default values of a type: those
of constructor arguments and array elements, and with the context itself those of subtypes -/
structure SameBelow (r r' : Resolver) (ctx : Context) : Prop where
  nested : SameAlong r r' ctx.nested.chain
  subtypes : r.config.useSubtypes = true → SameAlong r r' ctx.chain

variable {r r' : Resolver} {ctx : Context}

theorem SameAlong.sameBelow (h : SameAlong r r' ctx.chain) : SameBelow r r' ctx :=
  ⟨fun key hkey => h key (List.mem_filter.1 hkey).1, fun _ => h⟩

theorem SameBelow.congr {c d : Context} (h : SameBelow r r' c) (hchain : d.chain = c.chain) : SameBelow r r' d := by
  have hnested : d.nested.chain = c.nested.chain := by simp only [Context.nested, hchain]
  exact ⟨hnested ▸ h.nested, fun hs => hchain ▸ h.subtypes hs⟩

/-! ## Strategies -/

theorem SameView.shape (h : SameView r r') (ty : TypeName) : Shape.ofType r.unit ty = Shape.ofType r'.unit ty := by
  simp only [Shape.ofType, h.unboxed, h.typeInfo]

theorem SameView.defaultShape (h : SameView r r') (s : Strategy) :
    s.defaultShape? r.unit = s.defaultShape? r'.unit := by
  cases s with
  | builtin shape => rfl
  | custom s => simp only [Strategy.defaultShape?, h.shape]

theorem findStrategy_agree {ty : TypeName} {chain : List ScopeKey}
    (h : ∀ key ∈ chain, r.lookup key ty = r'.lookup key ty) : r.findStrategy? ty chain = r'.findStrategy? ty chain := by
  unfold findStrategy?
  induction chain with
  | nil => rfl
  | cons key chain ih =>
    have hrest := ih fun k hk => h k (List.mem_cons_of_mem _ hk)
    simp only [List.findSome?_cons, h key List.mem_cons_self, hrest]

theorem strategyFor_agree (hview : SameView r r') {ty : TypeName}
    (h : ∀ key ∈ ctx.chain, r.lookup key ty = r'.lookup key ty) : r.strategyFor ty ctx = r'.strategyFor ty ctx := by
  simp only [strategyFor, findStrategy_agree h, hview.shape]

variable {inner inner' : ShapeValues}

theorem strategyValues_agree (hview : SameView r r') (hinner : ∀ shape, inner shape ctx = inner' shape ctx)
    (s : Strategy) (keep : Value → Bool) :
    r.strategyValues inner s keep ctx = r'.strategyValues inner' s keep ctx := by
  simp only [strategyValues, union, defaultValues, hview.defaultShape, hinner, samplingOf, hview.config]

theorem resolveWith_agree (hview : SameView r r') {ty : TypeName}
    (h : ∀ key ∈ ctx.chain, r.lookup key ty = r'.lookup key ty) (hinner : ∀ shape, inner shape ctx = inner' shape ctx)
    (keep : Value → Bool) : r.resolveWith inner keep ty ctx = r'.resolveWith inner' keep ty ctx := by
  simp only [resolveWith, strategyFor_agree hview h, strategyValues_agree hview hinner]

/-! ## One level -/

/-- two ways to continue agree wherever the same strategies are found -/
structure Continues (r r' : Resolver) (inner inner' : ShapeValues) : Prop where
  left : ∀ shape, Framed (inner shape)
  right : ∀ shape, Framed (inner' shape)
  agree : ∀ shape ctx, SameBelow r r' ctx → inner shape ctx = inner' shape ctx

theorem nested_agree (hview : SameView r r') (hinner : Continues r r' inner inner')
    (hnested : SameAlong r r' ctx.nested.chain) (ty : TypeName) :
    r.resolveWith inner anyValue ty ctx.nested = r'.resolveWith inner' anyValue ty ctx.nested :=
  resolveWith_agree hview (fun key hkey => hnested key hkey ty)
    (fun shape => hinner.agree shape ctx.nested hnested.sameBelow) anyValue

theorem argumentWith_agree (hview : SameView r r') (hinner : Continues r r' inner inner')
    (hnested : SameAlong r r' ctx.nested.chain) (ty : TypeName) :
    r.argumentWith inner ty ctx = r'.argumentWith inner' ty ctx := by
  rw [r.argumentWith_eq hinner.left, r'.argumentWith_eq hinner.right, nested_agree hview hinner hnested]

theorem constructorValues_agree (hview : SameView r r') (hinner : Continues r r' inner inner')
    (hnested : SameAlong r r' ctx.nested.chain) (info : TypeInfo) (c : Constructor) :
    r.constructorValues inner info c ctx = r'.constructorValues inner' info c ctx := by
  have harguments :
      ctx.traverse (r.argumentWith inner) c.parameters = ctx.traverse (r'.argumentWith inner') c.parameters := by
    apply Context.traverse_congr (r'.framed_argumentWith hinner.right)
    intro p _ d hd
    apply argumentWith_agree hview hinner
    rw [Context.nested_congr hd]
    exact hnested
  simp only [constructorValues, harguments, TypeInfo.instantiate_agree hview.assignable]

theorem instantiations_agree (hview : SameView r r') (hinner : Continues r r' inner inner')
    (hnested : SameAlong r r' ctx.nested.chain) (ty : TypeName) :
    r.instantiations inner ty ctx = r'.instantiations inner' ty ctx := by
  have hparts : ∀ info : TypeInfo, ctx.traverse (r.constructorValues inner info) info.constructors =
      ctx.traverse (r'.constructorValues inner' info) info.constructors := by
    intro info
    apply Context.traverse_congr (r'.framed_constructorValues hinner.right info)
    intro c _ d hd
    apply constructorValues_agree hview hinner
    rw [Context.nested_congr hd]
    exact hnested
  simp only [instantiations, hview.typeInfo, hparts]

theorem subtypeValues_agree (hview : SameView r r') (hinner : Continues r r' inner inner')
    (hchain : SameAlong r r' ctx.chain) (ty : TypeName) :
    r.subtypeValues inner ty ctx = r'.subtypeValues inner' ty ctx := by
  have hbelow := hchain.sameBelow
  have hmarked : (ctx.marked ty).nested.chain = ctx.nested.chain := rfl
  have hinstances : r.instantiations inner ty (ctx.marked ty) = r'.instantiations inner' ty (ctx.marked ty) := by
    apply instantiations_agree hview hinner
    rw [hmarked]
    exact hbelow.nested
  simp only [subtypeValues, findStrategy_agree fun key hkey => hchain key hkey ty, Context.expand_congr hinstances,
    strategyValues_agree hview fun shape => hinner.agree shape ctx hbelow]

theorem dataTypes_agree (hview : SameView r r') (ty : TypeName) : r.dataTypes ty ctx = r'.dataTypes ty ctx := by
  simp only [dataTypes, hview.config, hview.typeInfo, hview.assignable]

/-- without subtypes a type is its only data type, and no strategy is looked up for it -/
theorem dataTypeValues_agree (hview : SameView r r') (hinner : Continues r r' inner inner') (h : SameBelow r r' ctx)
    {ty d : TypeName} {c : Context} (hd : d ∈ r.dataTypes ty c) :
    r.dataTypeValues inner ty d ctx = r'.dataTypeValues inner' ty d ctx := by
  unfold dataTypeValues
  split_ifs with hsame
  · exact instantiations_agree hview hinner h.nested d
  · apply subtypeValues_agree hview hinner
    apply h.subtypes
    by_contra hoff
    rw [dataTypes, if_neg hoff, List.mem_singleton] at hd
    exact hsame (hd ▸ BEq.rfl)

theorem structuredValues_agree (hview : SameView r r') (hinner : Continues r r' inner inner') (h : SameBelow r r' ctx)
    (ty : TypeName) : r.structuredValues inner ty ctx = r'.structuredValues inner' ty ctx := by
  have hparts : (ctx.marked ty).traverse (r.dataTypeValues inner ty) (r.dataTypes ty ctx) =
      (ctx.marked ty).traverse (r'.dataTypeValues inner' ty) (r.dataTypes ty ctx) := by
    apply Context.traverse_congr (r'.framed_dataTypeValues hinner.right ty)
    intro d hd c hc
    have hfork : c.fork.chain = (ctx.marked ty).fork.chain := congrArg Context.chain hc
    have hchain : c.chain = ctx.chain := hfork
    exact dataTypeValues_agree hview hinner (h.congr hchain) hd
  simp only [structuredValues, ← dataTypes_agree hview, Context.expand_congr hparts]

theorem shapeStep_agree (hview : SameView r r') (hinner : Continues r r' inner inner') (h : SameBelow r r' ctx)
    (shape : Shape) : r.shapeStep inner shape ctx = r'.shapeStep inner' shape ctx := by
  cases shape with
  | primitive ty k => rfl
  | boxed ty k => rfl
  | enumeration ty constants => rfl
  | array ty maxLength =>
    simp only [shapeStep, arrayValues, hview.config, nested_agree hview hinner h.nested]
  | structured ty => exact structuredValues_agree hview hinner h ty

/-! ## All levels -/

theorem shapeValues_agree (hview : SameView r r') (n : Nat) : Continues r r' (r.shapeValues n) (r'.shapeValues n) := by
  refine ⟨r.framed_shapeValues n, r'.framed_shapeValues n, ?_⟩
  induction n with
  | zero =>
    intro shape ctx _
    rfl
  | succ n ih =>
    intro shape ctx h
    exact shapeStep_agree hview ⟨r.framed_shapeValues n, r'.framed_shapeValues n, ih⟩ h shape

/-- the number of levels depends on the known types, not on their order -/
theorem depth_agree (hview : SameView r r') (ty : TypeName) : r.depth ty ctx = r'.depth ty ctx := by
  have hmentioned : (r.mentioned ty ctx).Perm (r'.mentioned ty ctx) :=
    ((hview.types.flatMap_right _).append_right _).cons ty
  have hdimensions : ((r.mentioned ty ctx).map TypeName.dimensions).foldl max 0 =
      ((r'.mentioned ty ctx).map TypeName.dimensions).foldl max 0 := (hmentioned.map _).foldl_eq 0
  simp only [depth, hdimensions, hmentioned.length_eq]

theorem resolveWhere_agree (hview : SameView r r') (h : SameBelow r r' ctx) {ty : TypeName}
    (hown : ∀ key ∈ ctx.chain, r.lookup key ty = r'.lookup key ty) (keep : Value → Bool) :
    r.resolveWhere keep ty ctx = r'.resolveWhere keep ty ctx := by
  rw [resolveWhere, resolveWhere, levels, levels, depth_agree hview]
  exact resolveWith_agree hview hown (fun shape => (shapeValues_agree hview _).agree shape ctx h) keep

/-! ## Operations -/

theorem declaringLiterals_agree (hview : SameView r r') : r.declaringLiterals = r'.declaringLiterals := by
  simp only [declaringLiterals, UnitInfo.declaringInfo?, hview.declaring, hview.typeInfo, enabledLiterals, hview.config]

theorem receiverContext_agree (hview : SameView r r') : r.receiverContext = r'.receiverContext := by
  simp only [receiverContext, declaringLiterals_agree hview, hview.declaring, hview.config]

theorem slotContext_agree (hview : SameView r r') (op : Operation) (slot : Slot) :
    r.slotContext op slot = r'.slotContext op slot := by
  simp only [slotContext, declaringLiterals_agree hview, hview.declaring, hview.config, enabledLiterals]

theorem receiverPosition_eq (r : Resolver) :
    r.receiverPosition =
      { position := .receiver r.unit.declaring
        values := .ofFactory fun _ => (r.resolveWhere nonNull r.unit.declaring r.receiverContext).1
        diagnostics := (r.resolveWhere nonNull r.unit.declaring r.receiverContext).2.diagnostics } := by
  have hagain : r.factoryWhere nonNull r.unit.declaring (r.resolveWhere nonNull r.unit.declaring r.receiverContext).2 =
      fun _ => (r.resolveWhere nonNull r.unit.declaring r.receiverContext).1 :=
    funext fun _ => r.factoryWhere_resolveWhere nonNull r.unit.declaring r.receiverContext
  simp only [receiverPosition, hagain, Dimension.ofFactory]

theorem slotPosition_eq (r : Resolver) (op : Operation) (slot : Slot) :
    r.slotPosition op slot =
      { position := .parameter slot
        values := .ofFactory fun _ => (r.resolve slot.ty (r.slotContext op slot)).1
        diagnostics := (r.resolve slot.ty (r.slotContext op slot)).2.diagnostics } := by
  have hagain : r.factory slot.ty (r.resolve slot.ty (r.slotContext op slot)).2 =
      fun _ => (r.resolve slot.ty (r.slotContext op slot)).1 :=
    funext fun _ => r.factory_resolve slot.ty (r.slotContext op slot)
  simp only [slotPosition, hagain, Dimension.ofFactory]

theorem receiverPosition_agree (hview : SameView r r') (h : SameAlong r r' r.receiverContext.chain) :
    r.receiverPosition = r'.receiverPosition := by
  have hvalues := resolveWhere_agree hview h.sameBelow (fun key hkey => h key hkey r.unit.declaring) nonNull
  simp only [receiverPosition_eq, ← receiverContext_agree hview, ← hview.declaring, hvalues]

theorem slotPosition_agree (hview : SameView r r') {op : Operation} {slot : Slot}
    (h : SameBelow r r' (r.slotContext op slot))
    (hown : ∀ key ∈ (r.slotContext op slot).chain, r.lookup key slot.ty = r'.lookup key slot.ty) :
    r.slotPosition op slot = r'.slotPosition op slot := by
  have hvalues : r.resolve slot.ty (r.slotContext op slot) = r'.resolve slot.ty (r.slotContext op slot) :=
    resolveWhere_agree hview h hown anyValue
  simp only [slotPosition_eq, ← slotContext_agree hview, hvalues]

/-- tuples depend on the positions alone -/
theorem tuples_agree {op : Operation} (hreceiver : r.receiverPosition = r'.receiverPosition)
    (hslots : ∀ slot ∈ op.parameters, r.slotPosition op slot = r'.slotPosition op slot) :
    r.tuples op = r'.tuples op := by
  have hpositions : r.positions op = r'.positions op := by
    rw [positions, positions, hreceiver, List.map_congr_left hslots]
  simp only [tuples, hpositions]

/-- the same strategies and the same view of the unit give the same tuples -/
theorem tuples_of_sameView (hview : SameView r r') (hlookup : r.lookup = r'.lookup) (op : Operation) :
    r.tuples op = r'.tuples op := by
  have halong : ∀ chain, SameAlong r r' chain := fun _ key _ ty => by rw [hlookup]
  apply tuples_agree
  · exact receiverPosition_agree hview (halong _)
  · intro slot _
    exact slotPosition_agree hview (halong _).sameBelow fun key hkey => halong _ key hkey slot.ty

end Resolver

end TestInputs
