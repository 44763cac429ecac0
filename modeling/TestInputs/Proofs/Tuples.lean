/-
The tuples of an operation are the Cartesian product of its positions. The first sequence of a position is resolved on a
context that is then written to, the later ones on a snapshot of what is left of it. Resolution only appends diagnostics
and never reads them, so all of these sequences are equal, and the odometer over them runs through the product in
lexicographic order.

Results:
- `tuples_lexicographic`: for an operation with well-formed slots and finite positions, the tuples are exactly the
  product, in lexicographic order, with one argument for each slot and a receiver other than null exactly for methods;
- `generation_terminates`: when strategies are registered under their own types, every position is finite, and so are
  the tuples.
-/
import TestInputs.Proofs.Termination

namespace TestInputs

namespace Resolver

variable (r : Resolver)

/-! ## Positions -/

/-- the values of the declaring type that can be receivers -/
def receiverValues : Sequence Value :=
  (r.resolveWhere nonNull r.unit.declaring r.receiverContext).1

/-- the values of a parameter slot -/
def slotValues (op : Operation) (slot : Slot) : Sequence Value :=
  (r.resolve slot.ty (r.slotContext op slot)).1

/-- the lists of arguments of an operation -/
def argumentLists (op : Operation) : List (List Value) :=
  lexicographic (op.parameters.map fun slot => (r.slotValues op slot).toList)

theorem steady_receiverPosition (h : r.receiverValues.Complete) : r.receiverPosition.values.Steady :=
  ⟨h, r.factoryWhere_resolveWhere nonNull r.unit.declaring r.receiverContext⟩

theorem steady_slotPosition {op : Operation} {slot : Slot} (h : (r.slotValues op slot).Complete) :
    (r.slotPosition op slot).values.Steady :=
  ⟨h, r.factory_resolve slot.ty (r.slotContext op slot)⟩

theorem steady_positions {op : Operation} (hreceiver : op.kind = .method → r.receiverValues.Complete)
    (hslots : ∀ slot ∈ op.parameters, (r.slotValues op slot).Complete) : ∀ p ∈ r.positions op, p.values.Steady := by
  have hs : ∀ p ∈ op.parameters.map (r.slotPosition op), p.values.Steady := by
    intro p hp
    obtain ⟨slot, hslot, rfl⟩ := List.mem_map.1 hp
    exact r.steady_slotPosition (hslots slot hslot)
  intro p hp
  simp only [positions] at hp
  split_ifs at hp with hk
  · rcases List.mem_cons.1 hp with rfl | hp
    · exact r.steady_receiverPosition (hreceiver (by simpa [OperationKind.needsReceiver] using hk))
    · exact hs p hp
  · exact hs p hp

theorem tuples_of_steady {op : Operation} (hfault : op.fault? = none) (h : ∀ p ∈ r.positions op, p.values.Steady) :
    ∃ t, r.tuples op = .ok t ∧ t.tuples.Complete ∧
      t.tuples.toList = (lexicographic ((r.positions op).map fun p => p.values.first.toList)).map
        (splitReceiver op.kind.needsReceiver) := by
  have hd : ∀ d ∈ (r.positions op).map ResolvedPosition.values, d.Steady := by
    intro d hd
    obtain ⟨p, hp, rfl⟩ := List.mem_map.1 hd
    exact h p hp
  simp only [tuples, hfault]
  refine ⟨_, rfl, ?_, ?_⟩
  · rw [Sequence.complete_map]
    exact Sequence.complete_product hd
  · rw [Sequence.toList_map, Sequence.toList_product hd, List.map_map]
    rfl

/-- with strategies registered under their own types every position is finite -/
theorem tuples_of_ownTargets {op : Operation} (hown : r.lookup.OwnTargets) (hfault : op.fault? = none) :
    ∃ t, r.tuples op = .ok t ∧ t.tuples.Complete ∧
      t.tuples.toList = (lexicographic ((r.positions op).map fun p => p.values.first.toList)).map
        (splitReceiver op.kind.needsReceiver) := by
  have hcomplete := r.complete_resolveWhere hown
  exact r.tuples_of_steady hfault
    (r.steady_positions (fun _ => hcomplete nonNull _ _) fun _ _ => hcomplete anyValue _ _)

/-! ## Receivers -/

/-- what is resolved under a predicate satisfies it -/
theorem keep_of_mem_resolveWith {inner : ShapeValues} {keep : Value → Bool} {ty : TypeName} {ctx : Context} {v : Value}
    (h : v ∈ (r.resolveWith inner keep ty ctx).1.toList) : keep v = true := by
  simp only [resolveWith, checkCoverage_fst, strategyValues] at h
  have h := (Sequence.sublist_sampledBy _ _).subset h
  rw [Sequence.toList_filter, List.mem_filter] at h
  exact h.2

theorem nonNull_of_mem_receiverValues {v : Value} (h : v ∈ r.receiverValues.toList) : v.isNull = false := by
  have hk := r.keep_of_mem_resolveWith h
  simpa [nonNull] using hk

/-! ## The product -/

/-- the tuples of an operation, said through the values of its positions -/
structure IsProduct (op : Operation) (t : OperationTuples) : Prop where
  complete : t.tuples.Complete
  method : op.kind = .method → t.tuples.toList =
    r.receiverValues.toList.flatMap fun receiver => (r.argumentLists op).map fun arguments => ⟨some receiver, arguments⟩
  other : op.kind ≠ .method → t.tuples.toList = (r.argumentLists op).map fun arguments => ⟨none, arguments⟩
  /-- one argument for each slot -/
  arity : ∀ c ∈ t.tuples.toList, c.arguments.length = op.parameters.length
  receiver : op.kind = .method → ∀ c ∈ t.tuples.toList, ∃ v, c.receiver = some v ∧ v.isNull = false
  noReceiver : op.kind ≠ .method → ∀ c ∈ t.tuples.toList, c.receiver = none

theorem length_of_mem_argumentLists {op : Operation} {arguments : List Value} (h : arguments ∈ r.argumentLists op) :
    arguments.length = op.parameters.length := by
  rw [argumentLists, mem_lexicographic] at h
  rw [h.length_eq, List.length_map]

theorem isProduct_method {op : Operation} {t : OperationTuples} (hk : op.kind = .method) (hc : t.tuples.Complete)
    (ht : t.tuples.toList = (lexicographic ((r.positions op).map fun p => p.values.first.toList)).map
      (splitReceiver op.kind.needsReceiver)) : r.IsProduct op t := by
  have hlist : t.tuples.toList = r.receiverValues.toList.flatMap fun receiver =>
      (r.argumentLists op).map fun arguments => ⟨some receiver, arguments⟩ := by
    have hneeds : op.kind.needsReceiver = true := by rw [hk]; rfl
    rw [ht]
    simp only [positions, hneeds, if_true, List.map_cons, List.map_map, lexicographic, List.map_flatMap]
    rfl
  have hmem : ∀ c ∈ t.tuples.toList, ∃ v ∈ r.receiverValues.toList, ∃ arguments ∈ r.argumentLists op,
      c = ⟨some v, arguments⟩ := by
    intro c hcm
    rw [hlist] at hcm
    obtain ⟨v, hv, hcm⟩ := List.mem_flatMap.1 hcm
    obtain ⟨arguments, ha, rfl⟩ := List.mem_map.1 hcm
    exact ⟨v, hv, arguments, ha, rfl⟩
  refine ⟨hc, fun _ => hlist, fun hne => absurd hk hne, ?_, ?_, fun hne => absurd hk hne⟩
  · intro c hcm
    obtain ⟨v, _, arguments, ha, rfl⟩ := hmem c hcm
    exact r.length_of_mem_argumentLists ha
  · intro _ c hcm
    obtain ⟨v, hv, arguments, _, rfl⟩ := hmem c hcm
    exact ⟨v, rfl, r.nonNull_of_mem_receiverValues hv⟩

theorem isProduct_other {op : Operation} {t : OperationTuples} (hk : op.kind ≠ .method) (hc : t.tuples.Complete)
    (ht : t.tuples.toList = (lexicographic ((r.positions op).map fun p => p.values.first.toList)).map
      (splitReceiver op.kind.needsReceiver)) : r.IsProduct op t := by
  have hlist : t.tuples.toList = (r.argumentLists op).map fun arguments => ⟨none, arguments⟩ := by
    have hneeds : op.kind.needsReceiver = false := by simpa [OperationKind.needsReceiver] using hk
    rw [ht]
    simp only [positions, hneeds, Bool.false_eq_true, if_false, List.map_map]
    rfl
  refine ⟨hc, fun h => absurd h hk, fun _ => hlist, ?_, fun h => absurd h hk, ?_⟩
  · intro c hcm
    rw [hlist] at hcm
    obtain ⟨arguments, ha, rfl⟩ := List.mem_map.1 hcm
    exact r.length_of_mem_argumentLists ha
  · intro _ c hcm
    rw [hlist] at hcm
    obtain ⟨arguments, _, rfl⟩ := List.mem_map.1 hcm
    rfl

/-- **Tuples are the Cartesian product.** For every unit, settings and registered strategies, an operation whose slots
are well formed and whose positions are finite has as tuples exactly the product of the values of its positions, in
lexicographic order with the last position fastest. All sequences that are derived again later, for positions and for
constructor arguments on any level, equal those resolved first. -/
theorem tuples_lexicographic (op : Operation) (hfault : op.fault? = none)
    (hreceiver : op.kind = .method → r.receiverValues.Complete)
    (hslots : ∀ slot ∈ op.parameters, (r.slotValues op slot).Complete) :
    (∃ t, r.tuples op = .ok t ∧ r.IsProduct op t) ∧
    (∀ ty ctx, r.factory ty (r.resolve ty ctx).2 () = (r.resolve ty ctx).1) ∧
    (∀ keep ty ctx, r.factoryWhere keep ty (r.resolveWhere keep ty ctx).2 () = (r.resolveWhere keep ty ctx).1) ∧
    ∀ n ty ctx, ∃ d, (r.argumentWith (r.shapeValues n) ty ctx).1 = .generated ty d ∧ d.again () = d.first := by
  refine ⟨?_, r.factory_resolve, r.factoryWhere_resolveWhere, fun n ty ctx => ?_⟩
  · obtain ⟨t, ht, hc, hlist⟩ := r.tuples_of_steady hfault (r.steady_positions hreceiver hslots)
    refine ⟨t, ht, ?_⟩
    by_cases hk : op.kind = .method
    · exact r.isProduct_method hk hc hlist
    · exact r.isProduct_other hk hc hlist
  · rw [r.argumentWith_eq (r.framed_shapeValues n)]
    exact ⟨_, rfl, rfl⟩

/-! A graph of nodes, each made from a node and an array of nodes; the arrays have a strategy of their own. -/

def graphUnit : UnitInfo :=
  { declaring := ⟨"Graph", "", 0⟩
    types :=
      [{ ty := ⟨"Graph", "", 0⟩, constructors := [⟨[], none⟩] },
       { ty := ⟨"Node", "", 0⟩, constructors := [⟨[⟨"Node", "", 0⟩, ⟨"Node", "", 1⟩], none⟩] }] }

def graphCatalog : Catalog :=
  .ofList [.ofStrategy .everywhere
    (.custom { target := ⟨"Node", "", 1⟩, localValues := [.null], maxArrayLength := some 2 })]

def graphResolver : Resolver := .make graphCatalog.lookup graphUnit {}

def linkOperation : Operation :=
  { id := "link", name := "link", kind := .method
    parameters := [⟨"link", ⟨"Node", "", 0⟩, 0, "p0"⟩, ⟨"link", ⟨"boolean", "", 0⟩, 1, "p1"⟩] }

theorem ownTargets_graph : graphResolver.lookup.OwnTargets :=
  graphCatalog.ownTargets (List.forall_mem_singleton.2 (.ofStrategy _ _))

theorem links_lexicographic :
    (graphResolver.tuples linkOperation).toOption.map (fun t => t.tuples.toList.length) = some 12 ∧
      ∃ t, graphResolver.tuples linkOperation = .ok t ∧ graphResolver.IsProduct linkOperation t := by
  have hcomplete := graphResolver.complete_resolveWhere ownTargets_graph
  refine ⟨by decide +kernel, (tuples_lexicographic graphResolver linkOperation rfl ?_ ?_).1⟩
  · exact fun _ => hcomplete nonNull _ _
  · exact fun slot _ => hcomplete anyValue _ _

/-! ## Termination -/

/-- **Generation terminates.** When every strategy is registered under its own type, then for every type in every
context the resolution returns: after some number of levels it asks for nothing more, whatever would come after them.
Its sequence is used up by some number of moves, and so are the tuples of every operation. -/
theorem generation_terminates (hown : r.lookup.OwnTargets) :
    (∀ ty ctx, ∃ n, ∀ inner : ShapeValues, r.resolveWith (r.above inner n) anyValue ty ctx = r.resolve ty ctx) ∧
    (∀ ty ctx, ∃ n, (r.resolve ty ctx).1.advanceBy n = .nil) ∧
    ∀ op : Operation, op.fault? = none → ∃ t, r.tuples op = .ok t ∧ ∃ n, t.tuples.advanceBy n = .nil := by
  have hcomplete := r.complete_resolveWhere hown
  refine ⟨fun ty ctx => ⟨r.depth ty ctx, fun inner => r.resolveWith_above hown inner anyValue ty ctx⟩,
    fun ty ctx => ⟨_, Sequence.advanceBy_length (hcomplete anyValue ty ctx)⟩, fun op hfault => ?_⟩
  have hsteady : ∀ p ∈ r.positions op, p.values.Steady :=
    r.steady_positions (fun _ => hcomplete nonNull _ _) fun _ _ => hcomplete anyValue _ _
  obtain ⟨t, ht, hc, -⟩ := r.tuples_of_steady hfault hsteady
  exact ⟨t, ht, _, Sequence.advanceBy_length hc⟩

theorem links_terminate : ∃ t, graphResolver.tuples linkOperation = .ok t ∧ ∃ n, t.tuples.advanceBy n = .nil :=
  (generation_terminates graphResolver ownTargets_graph).2.2 linkOperation rfl

end Resolver

end TestInputs
