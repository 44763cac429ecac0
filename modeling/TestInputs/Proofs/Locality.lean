/-
Inputs of one operation stay with it. A strategy can be registered for one parameter of one operation, and an operation
brings the literals of its own code and specification. Both are seen when the parameter itself is resolved. Nested
contexts drop them, so they do not reach constructor arguments or array elements, the receiver, other parameters or
other operations.

For registered strategies this is a statement about two resolvers, and follows from what resolvers have in common along
the chains that they search (`Agreement`). For literals it is a statement about one resolver in two contexts:
`LiteralFree` actions do the same whatever the literals of the operation are. The number of levels to explore does
depend on them, since literals may name types. It does not matter, because with strategies under their own types the
exploration has come to its end in either case.

A parameter does depend on its own literals when it is primitive or boxed, when a built-in strategy that lists constants
is registered for its type all the same, and through subtypes, since literals of the operation can name one. Hence the
conditions for the last statement.

Results:
- `sameAlong_of_differOnly`: a chain without the parameter finds the same strategies;
- `literalFree_shapeStep`: without subtypes, literals are read for constants alone;
- `resolve_withOperationLiterals`: arrays and structured types have the same values under any literals;
- `operation_inputs_stay_local`: the two statements together.
-/
import TestInputs.Proofs.Agreement
import TestInputs.Proofs.Generated

namespace TestInputs

variable {α β : Type}

/-! ## Slots -/

theorem Operation.ordinal_of_slotFault {id : String} {i j : Nat} {slots : List Slot} {slot : Slot}
    (h : slotFault? id i slots = none) (hj : slots[j]? = some slot) : slot.ordinal = i + j := by
  induction slots generalizing i j with
  | nil => simp at hj
  | cons s slots ih =>
    simp only [slotFault?] at h
    split_ifs at h with hordinal howner
    cases j with
    | zero =>
      have hslot : s = slot := by simpa using hj
      rw [← hslot]
      exact not_not.1 hordinal
    | succ j =>
      have hrest : slots[j]? = some slot := by simpa using hj
      rw [ih h hrest]
      omega

/-! ## Strategies of one parameter -/

/-- the registered strategies differ at most at the scope of one parameter -/
def Lookup.DifferOnly (lookup lookup' : Lookup) (operation : String) (index : Nat) : Prop :=
  ∀ key ty, key ≠ .parameter operation index → lookup key ty = lookup' key ty

namespace Resolver

/-- the resolver with other registered strategies -/
def withLookup (r : Resolver) (lookup : Lookup) : Resolver := { r with lookup }

/-- the resolver for a unit with other operations -/
def withOperations (r : Resolver) (operations : List Operation) : Resolver :=
  { r with unit := { r.unit with operations } }

variable {r : Resolver} {lookup : Lookup} {operation : String} {index : Nat}

theorem sameView_withLookup (r : Resolver) (lookup : Lookup) : SameView r (r.withLookup lookup) :=
  ⟨rfl, rfl, .refl _, fun _ => rfl, fun _ => rfl, fun _ _ => rfl⟩

theorem sameView_withOperations (r : Resolver) (operations : List Operation) :
    SameView r (r.withOperations operations) :=
  ⟨rfl, rfl, .refl _, fun _ => rfl, fun _ => rfl, fun _ _ => rfl⟩

theorem sameAlong_of_differOnly (h : r.lookup.DifferOnly lookup operation index) {chain : List ScopeKey}
    (hchain : ScopeKey.parameter operation index ∉ chain) : SameAlong r (r.withLookup lookup) chain := by
  intro key hkey ty
  apply h key ty
  rintro rfl
  exact hchain hkey

theorem not_mem_ofType (declaring : TypeName) : ScopeKey.parameter operation index ∉ ScopeKey.ofType declaring := by
  simp [ScopeKey.ofType]

theorem not_mem_ofParameter (declaring : TypeName) {other : String} {j : Nat}
    (hne : ¬ (other = operation ∧ j = index)) :
    ScopeKey.parameter operation index ∉ ScopeKey.ofParameter declaring other j := by
  intro hmem
  rcases List.mem_cons.1 hmem with heq | hmem
  · cases heq
    exact hne ⟨rfl, rfl⟩
  · exact not_mem_ofType declaring hmem

/-- a nested context has left the scope of its parameter -/
theorem not_mem_nested (ctx : Context) : ScopeKey.parameter operation index ∉ ctx.nested.chain := by
  intro hmem
  have hkept := (List.mem_filter.1 hmem).2
  cases hkept

theorem receiverPosition_withLookup (h : r.lookup.DifferOnly lookup operation index) :
    r.receiverPosition = (r.withLookup lookup).receiverPosition :=
  receiverPosition_agree (r.sameView_withLookup lookup)
    (sameAlong_of_differOnly h (not_mem_ofType r.unit.declaring))

/-- other parameters and other operations find the same strategies -/
theorem slotPosition_withLookup (h : r.lookup.DifferOnly lookup operation index) {op : Operation} {slot : Slot}
    (hne : ¬ (op.id = operation ∧ slot.ordinal = index)) :
    r.slotPosition op slot = (r.withLookup lookup).slotPosition op slot := by
  have halong : SameAlong r (r.withLookup lookup) (r.slotContext op slot).chain :=
    sameAlong_of_differOnly h (not_mem_ofParameter r.unit.declaring hne)
  exact slotPosition_agree (r.sameView_withLookup lookup) halong.sameBelow fun key hkey => halong key hkey slot.ty

/-- without subtypes the parameter itself finds no other strategy than that of its own type -/
theorem slotPosition_own (h : r.lookup.DifferOnly lookup operation index) (hsubtypes : r.config.useSubtypes = false)
    {op : Operation} {slot : Slot}
    (hown : r.lookup (.parameter operation index) slot.ty = lookup (.parameter operation index) slot.ty) :
    r.slotPosition op slot = (r.withLookup lookup).slotPosition op slot := by
  apply slotPosition_agree (r.sameView_withLookup lookup)
  · refine ⟨sameAlong_of_differOnly h (not_mem_nested _), ?_⟩
    intro hon
    rw [hsubtypes] at hon
    cases hon
  · intro key _
    by_cases hkey : key = .parameter operation index
    · rw [hkey]
      exact hown
    · exact h key slot.ty hkey

end Resolver

/-! ## Literals of an operation -/

namespace Context

/-- the context with other literals of the operation -/
def withOperationLiterals (ctx : Context) (literals : Option LiteralTable) : Context :=
  { ctx with operationLiterals := literals }

/-- the action does the same whatever the literals of the operation are -/
def LiteralFree (f : Context → α × Context) : Prop :=
  ∀ ctx literals, f (ctx.withOperationLiterals literals) = ((f ctx).1, (f ctx).2.withOperationLiterals literals)

theorem literalFree_traverse {f : α → Context → β × Context} {as : List α} (hf : ∀ a ∈ as, LiteralFree (f a)) :
    LiteralFree (traverse f as) := by
  induction as with
  | nil =>
    intro ctx literals
    rfl
  | cons a as ih =>
    intro ctx literals
    have hrest := ih fun b hb => hf b (List.mem_cons_of_mem _ hb)
    simp only [traverse, hf a List.mem_cons_self ctx literals, hrest (f a ctx).2 literals]

theorem LiteralFree.expand {body : Context → α × Context} (hb : LiteralFree body) (ty : TypeName) :
    LiteralFree fun ctx => ctx.expand ty body := by
  intro ctx literals
  have hguard : (ctx.withOperationLiterals literals).guard = ctx.guard := rfl
  simp only [Context.expand, hguard]
  cases ctx.guard.enter? ty with
  | none => rfl
  | some guard =>
    have hbody := hb { ctx with guard } literals
    have hmarked : { ctx.withOperationLiterals literals with guard } =
        ({ ctx with guard } : Context).withOperationLiterals literals := rfl
    simp only [hmarked, hbody]
    rfl

end Context

open Context (LiteralFree)

/-- are the values of a shape constants to which literals are added? -/
def Shape.readsLiterals : Shape → Bool
  | primitive _ _ => true
  | boxed _ _ => true
  | _ => false

namespace Resolver

variable (r : Resolver) {inner : ShapeValues}

theorem literalFree_argumentWith (ty : TypeName) : LiteralFree (r.argumentWith inner ty) := fun _ _ => rfl

theorem literalFree_constructorValues (info : TypeInfo) (c : Constructor) :
    LiteralFree (r.constructorValues inner info c) := by
  intro ctx literals
  have hfallback : (ctx.withOperationLiterals literals).structuralFallback = ctx.structuralFallback := rfl
  have harguments : LiteralFree (Context.traverse (r.argumentWith inner) c.parameters) :=
    Context.literalFree_traverse fun p _ => r.literalFree_argumentWith p
  simp only [constructorValues, hfallback, harguments ctx literals]
  split_ifs
  · rfl
  · cases info.instantiate r.unit.hierarchy (ctx.traverse (r.argumentWith inner) c.parameters).1 with
    | ok instantiation => rfl
    | error e => rfl

theorem literalFree_instantiations (ty : TypeName) : LiteralFree (r.instantiations inner ty) := by
  intro ctx literals
  unfold instantiations
  cases r.unit.typeInfo? ty with
  | none => rfl
  | some info =>
    have hparts : LiteralFree (Context.traverse (r.constructorValues inner info) info.constructors) :=
      Context.literalFree_traverse fun c _ => r.literalFree_constructorValues info c
    dsimp only
    split_ifs
    · rw [hparts ctx literals]
    · rfl

/-- without subtypes, literals cannot name further types to expand -/
theorem literalFree_structuredValues (hsubtypes : r.config.useSubtypes = false) (ty : TypeName) :
    LiteralFree (r.structuredValues inner ty) := by
  intro ctx literals
  have hself : ∀ c, r.dataTypes ty c = [ty] := by
    intro c
    rw [dataTypes, hsubtypes]
    rfl
  have hsame : ∀ c, r.dataTypeValues inner ty ty c = r.instantiations inner ty c := fun c => if_pos BEq.rfl
  have hvalues : ∀ d ∈ [ty], LiteralFree (r.dataTypeValues inner ty d) := by
    intro d hd
    rw [List.mem_singleton.1 hd]
    intro c l
    rw [hsame, hsame]
    exact r.literalFree_instantiations ty c l
  have hexpand := (Context.literalFree_traverse hvalues).expand ty ctx literals
  simp only [structuredValues, hself, hexpand]
  generalize ctx.expand ty (Context.traverse (r.dataTypeValues inner ty) [ty]) = expanded
  obtain ⟨parts, after⟩ := expanded
  cases parts with
  | none => rfl
  | some parts =>
    dsimp only
    cases Sequence.concat parts <;> rfl

theorem literalFree_shapeStep (hsubtypes : r.config.useSubtypes = false) {shape : Shape}
    (hshape : shape.readsLiterals = false) : LiteralFree (r.shapeStep inner shape) := by
  cases shape with
  | primitive ty k => cases hshape
  | boxed ty k => cases hshape
  | enumeration ty constants => exact fun _ _ => rfl
  | array ty maxLength => exact fun _ _ => rfl
  | structured ty => exact r.literalFree_structuredValues hsubtypes ty

theorem literalFree_above (hsubtypes : r.config.useSubtypes = false) {shape : Shape}
    (hshape : shape.readsLiterals = false) (n : Nat) : LiteralFree (r.above nothing n shape) := by
  cases n with
  | zero => exact fun _ _ => rfl
  | succ n => exact r.literalFree_shapeStep hsubtypes hshape

theorem resolveWith_withOperationLiterals {ty : TypeName} {ctx : Context}
    (h : ∀ shape, (r.strategyFor ty ctx).defaultShape? r.unit = some shape → LiteralFree (inner shape))
    (keep : Value → Bool) (literals : Option LiteralTable) :
    r.resolveWith inner keep ty (ctx.withOperationLiterals literals) =
      ((r.resolveWith inner keep ty ctx).1, (r.resolveWith inner keep ty ctx).2.withOperationLiterals literals) := by
  have hstrategy : r.strategyFor ty (ctx.withOperationLiterals literals) = r.strategyFor ty ctx := rfl
  have hdefaults : r.defaultValues inner (r.strategyFor ty ctx) (ctx.withOperationLiterals literals) =
      ((r.defaultValues inner (r.strategyFor ty ctx) ctx).1,
        (r.defaultValues inner (r.strategyFor ty ctx) ctx).2.withOperationLiterals literals) := by
    unfold defaultValues
    split
    · rename_i shape hshape
      exact h shape hshape ctx literals
    · rfl
  simp only [resolveWith, strategyValues, hstrategy, union, hdefaults]
  generalize ((Sequence.concat _).filter keep).sampledBy _ = values
  cases values <;> rfl

end Resolver

/-! ## Shapes that read no literals -/

/-- an array, or a type that is neither primitive nor a wrapper type -/
def UnitInfo.IsCompound (u : UnitInfo) (ty : TypeName) : Prop :=
  ty.isArray = true ∨ ty.kind? = none ∧ u.hierarchy.unboxed? ty = none

/-- no built-in strategy that is found for the type along the chain lists constants. Those that are made for a type that
is an array or structured never do (`readsLiterals_ofType`), but one that is put together by hand can. -/
def Lookup.NoConstants (lookup : Lookup) (chain : List ScopeKey) (ty : TypeName) : Prop :=
  ∀ key ∈ chain, ∀ shape, lookup key ty = some (.builtin shape) → shape.readsLiterals = false

theorem UnitInfo.IsCompound.congr {u : UnitInfo} {a b : TypeName} (h : u.IsCompound a) (he : (a == b) = true) :
    u.IsCompound b := by
  rw [IsCompound, TypeName.isArray_congr he, TypeName.kind?_congr he] at h
  simp only [IsCompound, Hierarchy.unboxed?, TypeName.beq_congr_right he] at h ⊢
  exact h

namespace Shape

theorem readsLiterals_ofType {u : UnitInfo} {ty : TypeName} (h : u.IsCompound ty) :
    (ofType u ty).readsLiterals = false := by
  rw [ofType]
  split_ifs with harray
  · rfl
  · obtain ⟨hkind, hunboxed⟩ := h.resolve_left harray
    rw [hkind, hunboxed]
    cases u.typeInfo? ty with
    | none => rfl
    | some info => cases hconstants : info.isEnum <;> simp only [hconstants] <;> rfl

theorem readsLiterals_withMaxLength (shape : Shape) (maxLength : Option Nat) :
    (shape.withMaxLength maxLength).readsLiterals = shape.readsLiterals := by
  cases shape <;> rfl

end Shape

namespace Resolver

variable (r : Resolver)

theorem readsLiterals_strategyFor (hown : r.lookup.OwnTargets) {ty : TypeName} {ctx : Context}
    (hconstants : r.lookup.NoConstants ctx.chain ty) (hcompound : r.unit.IsCompound ty) {shape : Shape}
    (h : (r.strategyFor ty ctx).defaultShape? r.unit = some shape) : shape.readsLiterals = false := by
  unfold strategyFor at h
  split at h
  · rename_i key s hs
    obtain ⟨_, hkey, hk⟩ := List.exists_of_findSome?_eq_some hs
    obtain ⟨_, hregistered, heq⟩ := Option.map_eq_some_iff.1 hk
    cases heq
    cases s with
    | builtin own =>
      cases h
      exact hconstants key hkey shape hregistered
    | custom own =>
      simp only [Strategy.defaultShape?] at h
      split_ifs at h
      cases h
      have htarget : (ty == own.target) = true := BEq.symm (hown key ty _ hregistered)
      rw [Shape.readsLiterals_withMaxLength]
      exact Shape.readsLiterals_ofType (hcompound.congr htarget)
  · cases h
    exact Shape.readsLiterals_ofType hcompound

/-- **Arrays and structured types do not see the literals of their operation.** -/
theorem resolve_withOperationLiterals (hown : r.lookup.OwnTargets) (hsubtypes : r.config.useSubtypes = false)
    {ty : TypeName} {ctx : Context} (hconstants : r.lookup.NoConstants ctx.chain ty) (hcompound : r.unit.IsCompound ty)
    (literals : Option LiteralTable) :
    r.resolve ty (ctx.withOperationLiterals literals) =
      ((r.resolve ty ctx).1, (r.resolve ty ctx).2.withOperationLiterals literals) := by
  have hdeeper : ∀ m c, r.resolveWith (r.above nothing (m + r.depth ty c)) anyValue ty c = r.resolve ty c := by
    intro m c
    rw [← r.above_add]
    exact r.resolveWith_above hown (r.above nothing m) anyValue ty c
  have hfree : ∀ n shape, (r.strategyFor ty ctx).defaultShape? r.unit = some shape →
      LiteralFree (r.above nothing n shape) := by
    intro n shape hshape
    exact r.literalFree_above hsubtypes (r.readsLiterals_strategyFor hown hconstants hcompound hshape) n
  -- literals change the depth, so both contexts are explored to the depths of either
  calc r.resolve ty (ctx.withOperationLiterals literals)
      = r.resolveWith (r.above nothing (r.depth ty ctx + r.depth ty (ctx.withOperationLiterals literals))) anyValue ty
          (ctx.withOperationLiterals literals) := (hdeeper _ _).symm
    _ = ((r.resolveWith (r.above nothing _) anyValue ty ctx).1,
          (r.resolveWith (r.above nothing _) anyValue ty ctx).2.withOperationLiterals literals) :=
        r.resolveWith_withOperationLiterals (hfree _) anyValue literals
    _ = ((r.resolve ty ctx).1, (r.resolve ty ctx).2.withOperationLiterals literals) := by
        rw [Nat.add_comm, hdeeper]

theorem slotPosition_withLiterals (hown : r.lookup.OwnTargets) (hsubtypes : r.config.useSubtypes = false)
    {o : Operation} {slot : Slot} (hconstants : r.lookup.NoConstants (r.slotContext o slot).chain slot.ty)
    (hcompound : r.unit.IsCompound slot.ty) (literals specLiterals : LiteralTable) :
    r.slotPosition { o with literals, specLiterals } slot = r.slotPosition o slot := by
  have hcontext : r.slotContext { o with literals, specLiterals } slot =
      (r.slotContext o slot).withOperationLiterals (some (r.enabledLiterals literals specLiterals)) := rfl
  rw [slotPosition_eq, slotPosition_eq, hcontext,
    r.resolve_withOperationLiterals hown hsubtypes hconstants hcompound]
  rfl

/-! ## Locality -/

/-- **Inputs of one operation stay local.** For every resolver and every operation with well-formed slots:

- when registered strategies differ at most at the scope of parameter `k`, then the receiver, every other slot and all
  tuples of operations with another id are the same, with their diagnostics; without subtypes slot `k` is the same too
  if the strategies for its own type at that scope are, so they never reach constructor arguments or array elements;
- when the operation gets other literals in code and specification, and the unit lists it with them, then the receiver
  is the same; without subtypes, and with strategies that are registered under their own types, so is every slot whose
  type is an array or neither primitive nor a wrapper type, unless a built-in strategy that lists constants nevertheless
  is registered for the type. -/
theorem operation_inputs_stay_local (r : Resolver) (o : Operation) (hslots : o.fault? = none) :
    (∀ lookup k, r.lookup.DifferOnly lookup o.id k →
      r.receiverPosition = (r.withLookup lookup).receiverPosition ∧
      (∀ j slot, o.parameters[j]? = some slot → j ≠ k →
        r.slotPosition o slot = (r.withLookup lookup).slotPosition o slot) ∧
      (∀ op : Operation, op.id ≠ o.id → r.tuples op = (r.withLookup lookup).tuples op) ∧
      ∀ slot, o.parameters[k]? = some slot → r.config.useSubtypes = false →
        r.lookup (.parameter o.id k) slot.ty = lookup (.parameter o.id k) slot.ty →
        r.slotPosition o slot = (r.withLookup lookup).slotPosition o slot) ∧
    ∀ literals specLiterals operations,
      r.receiverPosition = (r.withOperations operations).receiverPosition ∧
      ∀ slot ∈ o.parameters, r.config.useSubtypes = false → r.lookup.OwnTargets → r.unit.IsCompound slot.ty →
        r.lookup.NoConstants (r.slotContext o slot).chain slot.ty →
        r.slotPosition o slot = (r.withOperations operations).slotPosition { o with literals, specLiterals } slot := by
  constructor
  · intro lookup k hdiffer
    have hreceiver := receiverPosition_withLookup hdiffer
    refine ⟨hreceiver, ?_, ?_, ?_⟩
    · intro j slot hslot hne
      apply slotPosition_withLookup hdiffer
      rintro ⟨-, hindex⟩
      rw [Operation.ordinal_of_slotFault hslots hslot] at hindex
      omega
    · intro op hid
      apply tuples_agree hreceiver
      intro slot _
      exact slotPosition_withLookup hdiffer fun hboth => hid hboth.1
    · intro slot _ hsubtypes hown
      exact slotPosition_own hdiffer hsubtypes hown
  · intro literals specLiterals operations
    have hview := r.sameView_withOperations operations
    have halong : ∀ chain, SameAlong r (r.withOperations operations) chain := fun _ _ _ _ => rfl
    refine ⟨receiverPosition_agree hview (halong _), ?_⟩
    intro slot _ hsubtypes hown hcompound hconstants
    rw [← slotPosition_agree hview (halong _).sameBelow fun _ _ => rfl]
    exact (r.slotPosition_withLiterals hown hsubtypes hconstants hcompound literals specLiterals).symm

/-! Tickets that are filed at an office. A ticket is made from a number, and the parameter for the ticket has a strategy
for numbers of its own. -/

def officeUnit : UnitInfo :=
  { declaring := ⟨"Office", "", 0⟩
    types :=
      [{ ty := ⟨"Office", "", 0⟩, constructors := [⟨[], none⟩] },
       { ty := ⟨"Ticket", "", 0⟩, constructors := [⟨[⟨"int", "", 0⟩], none⟩] }] }

def ticketSlot : Slot := ⟨"file", ⟨"Ticket", "", 0⟩, 0, "p0"⟩

def numberSlot : Slot := ⟨"file", ⟨"int", "", 0⟩, 1, "p1"⟩

def fileOperation : Operation :=
  { id := "file", name := "file", kind := .method, parameters := [ticketSlot, numberSlot] }

/-- the operation with a number in its code -/
def numberedOperation : Operation :=
  { fileOperation with literals := LiteralTable.empty.insert ⟨"int", "", 0⟩ "41", specLiterals := .empty }

/-- null in place of numbers, for the first parameter -/
def numbersOfFirst : Lookup := fun key ty =>
  if key == .parameter "file" 0 && ty == ⟨"int", "", 0⟩ then
    some (.custom { target := ⟨"int", "", 0⟩, localValues := [.null], useDefaults := false })
  else none

def officeResolver : Resolver := .make (fun _ _ => none) officeUnit { useSubtypes := false }

theorem differOnly_numbersOfFirst : officeResolver.lookup.DifferOnly numbersOfFirst fileOperation.id 0 := by
  intro key ty hne
  have hother : (key == .parameter "file" 0) = false := by
    cases key with
    | parameter operation index =>
      rw [Bool.eq_false_iff]
      intro hsame
      obtain ⟨hoperation, hindex⟩ := Bool.and_eq_true_iff.1 hsame
      exact hne (by rw [beq_iff_eq.1 hoperation, beq_iff_eq.1 hindex]; rfl)
    | declaringType ty => rfl
    | enclosingNamespace name => rfl
    | everywhere => rfl
  rw [numbersOfFirst, hother]
  rfl

theorem tickets_stay_local :
    fileOperation.fault? = none ∧ officeResolver.lookup.DifferOnly numbersOfFirst fileOperation.id 0 ∧
    (officeResolver.slotPosition fileOperation ticketSlot).values.first.toList.length = 4 ∧
    officeResolver.receiverPosition = (officeResolver.withLookup numbersOfFirst).receiverPosition ∧
    officeResolver.slotPosition fileOperation ticketSlot =
      (officeResolver.withLookup numbersOfFirst).slotPosition fileOperation ticketSlot ∧
    officeResolver.slotPosition fileOperation numberSlot =
      (officeResolver.withLookup numbersOfFirst).slotPosition fileOperation numberSlot ∧
    officeResolver.slotPosition fileOperation ticketSlot =
      (officeResolver.withOperations [numberedOperation]).slotPosition numberedOperation ticketSlot := by
  obtain ⟨hstrategies, hliterals⟩ := operation_inputs_stay_local officeResolver fileOperation rfl
  obtain ⟨hreceiver, hslots, -, hown⟩ := hstrategies numbersOfFirst 0 differOnly_numbersOfFirst
  refine ⟨rfl, differOnly_numbersOfFirst, by decide +kernel, hreceiver, ?_, ?_, ?_⟩
  · exact hown ticketSlot rfl rfl rfl
  · exact hslots 1 numberSlot rfl (by decide)
  · refine (hliterals _ .empty [numberedOperation]).2 ticketSlot List.mem_cons_self rfl ?_
      (Or.inr (by decide +kernel)) ?_
    · intro key ty s hs
      cases hs
    · intro key _ shape hs
      cases hs

/-- numbers in place of tickets -/
def numbersForTickets : Lookup := fun _ ty =>
  if ty == ⟨"Ticket", "", 0⟩ then some (.builtin (.primitive ⟨"Ticket", "", 0⟩ .int)) else none

def forgedResolver : Resolver := .make numbersForTickets officeUnit { useSubtypes := false }

/-- the operation with a ticket in its code -/
def ticketedOperation : Operation :=
  { fileOperation with literals := LiteralTable.empty.insert ⟨"Ticket", "", 0⟩ "42", specLiterals := .empty }

theorem ownTargets_numbersForTickets : numbersForTickets.OwnTargets := by
  intro key ty s hs
  unfold numbersForTickets at hs
  split_ifs at hs with hticket
  cases hs
  exact BEq.symm hticket

/-- a built-in strategy for numbers, registered for tickets as its own target, shows the literals of the operation -/
theorem forged_tickets_show_literals :
    fileOperation.fault? = none ∧ forgedResolver.config.useSubtypes = false ∧ forgedResolver.lookup.OwnTargets ∧
    forgedResolver.unit.IsCompound ticketSlot.ty ∧
    (forgedResolver.slotPosition fileOperation ticketSlot).values.first.toList.map Value.shown =
      ["-2147483648", "0", "2147483647"] ∧
    ((forgedResolver.withOperations [ticketedOperation]).slotPosition ticketedOperation
      ticketSlot).values.first.toList.map Value.shown = ["-2147483648", "0", "2147483647", "42"] :=
  ⟨rfl, rfl, ownTargets_numbersForTickets, Or.inr (by decide +kernel), by decide +kernel, by decide +kernel⟩

end Resolver

end TestInputs
