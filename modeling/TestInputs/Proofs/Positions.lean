/-
Positions without values. Whether a position has values is looked at three times: right after its first sequence was
resolved, when the product is put together, and each time the sequence is derived again while the tuples are read. The
first look reports the type, the second sets the flag of the tuples, and the third could end them early. All three see
the same sequence, after predicate and sampling.

Results:
- `diagnostics_resolveWhere`: a type reports what its strategy reports, and then that it has no values if it has none;
- `first_positions`, `diagnostics_positions`: the positions of an operation in terms of what they ask for;
- `noCoverage_iff`: the flag is set exactly if some position has no values;
- `coverage_reported_exactly`: the flag, the tuples, the reports and the number of tuples agree, and reading the tuples
  changes none of it.
-/
import TestInputs.Proofs.Overloads
import TestInputs.Proofs.Reports
import TestInputs.Proofs.Tuples

namespace TestInputs

theorem Sequence.hasElement_map {α β : Type} (f : α → β) (s : Sequence α) : (s.map f).hasElement = s.hasElement := by
  cases s <;> rfl

/-- what is left of an operation when its tuples were read by some steps -/
def OperationTuples.consume (t : OperationTuples) (steps : List CursorStep) : OperationTuples :=
  { t with tuples := Sequence.cursor.after t.tuples steps }

/-- what a position asks for: the values of a type that may stand there, resolved in a context -/
structure Demand where
  ty : TypeName
  keep : Value → Bool
  ctx : Context

namespace Resolver

variable (r : Resolver)

/-! ## Demands -/

/-- the values that a demand is met with -/
def supply (d : Demand) : Sequence Value := (r.resolveWhere d.keep d.ty d.ctx).1

/-- what the strategy of a demand reports while it is asked for values -/
def strategyReports (d : Demand) : List Diagnostic :=
  (r.strategyValues (r.levels d.ty d.ctx) (r.strategyFor d.ty d.ctx) d.keep d.ctx).2.diagnostics

/-- the receiver of a method must not be null -/
def receiverDemand : Demand := ⟨r.unit.declaring, nonNull, r.receiverContext⟩

def slotDemand (op : Operation) (slot : Slot) : Demand := ⟨slot.ty, anyValue, r.slotContext op slot⟩

/-- the demands of the positions in order -/
def demands (op : Operation) : List Demand :=
  let slots := op.parameters.map (r.slotDemand op)
  if op.kind = .method then r.receiverDemand :: slots else slots

variable {r} {op : Operation}

theorem demands_method (hk : op.kind = .method) :
    r.demands op = r.receiverDemand :: op.parameters.map (r.slotDemand op) := by
  rw [demands, if_pos hk]

theorem slotDemand_mem {slot : Slot} (h : slot ∈ op.parameters) : r.slotDemand op slot ∈ r.demands op := by
  have hslots : r.slotDemand op slot ∈ op.parameters.map (r.slotDemand op) := List.mem_map_of_mem h
  rw [demands]
  split_ifs
  · exact List.mem_cons_of_mem _ hslots
  · exact hslots

/-- the sequence is looked at after predicate and sampling -/
theorem diagnostics_resolveWhere (keep : Value → Bool) (ty : TypeName) (ctx : Context) :
    (r.resolveWhere keep ty ctx).2.diagnostics =
      r.strategyReports ⟨ty, keep, ctx⟩ ++ uncovered ty (r.supply ⟨ty, keep, ctx⟩) := by
  simp only [strategyReports, supply, resolveWhere, resolveWith, checkCoverage_fst]
  cases (r.strategyValues (r.levels ty ctx) (r.strategyFor ty ctx) keep ctx).1 with
  | nil => rfl
  | cut => exact (List.append_nil _).symm
  | cons v vs => exact (List.append_nil _).symm

/-! ## Positions -/

/-- the positions answer the demands one by one -/
theorem map_positions {β : Type} {f : ResolvedPosition → β} {g : Demand → β}
    (hreceiver : f r.receiverPosition = g r.receiverDemand)
    (hslots : ∀ slot, f (r.slotPosition op slot) = g (r.slotDemand op slot)) :
    (r.positions op).map f = (r.demands op).map g := by
  have hparameters : (op.parameters.map (r.slotPosition op)).map f = (op.parameters.map (r.slotDemand op)).map g := by
    rw [List.map_map, List.map_map]
    exact List.map_congr_left fun slot _ => hslots slot
  by_cases hk : op.kind = .method
  · have hneeds : op.kind.needsReceiver = true := by rw [hk]; rfl
    rw [positions, demands, if_pos hneeds, if_pos hk, List.map_cons, List.map_cons, hreceiver, hparameters]
  · have hneeds : ¬ op.kind.needsReceiver = true := by simpa [OperationKind.needsReceiver] using hk
    rw [positions, demands, if_neg hneeds, if_neg hk, hparameters]

theorem first_positions :
    ((r.positions op).map fun p => p.values.first.toList) = (r.demands op).map fun d => (r.supply d).toList :=
  map_positions rfl fun _ => rfl

theorem diagnostics_positions :
    (r.positions op).flatMap ResolvedPosition.diagnostics =
      (r.demands op).flatMap fun d => r.strategyReports d ++ uncovered d.ty (r.supply d) := by
  rw [List.flatMap_def, List.flatMap_def]
  apply congrArg List.flatten
  apply map_positions
  · exact diagnostics_resolveWhere nonNull r.unit.declaring r.receiverContext
  · exact fun slot => diagnostics_resolveWhere anyValue slot.ty (r.slotContext op slot)

theorem steady_of_demands (h : ∀ d ∈ r.demands op, (r.supply d).Complete) :
    ∀ p ∈ r.positions op, p.values.Steady := by
  apply r.steady_positions
  · intro hk
    exact h r.receiverDemand (by rw [demands_method hk]; exact List.mem_cons_self)
  · intro slot hslot
    exact h (r.slotDemand op slot) (slotDemand_mem hslot)

/-! ## The flag -/

theorem of_tuples_ok {t : OperationTuples} (h : r.tuples op = .ok t) :
    t.noCoverage = !t.tuples.hasElement ∧ t.diagnostics = (r.positions op).flatMap ResolvedPosition.diagnostics := by
  simp only [tuples] at h
  split at h
  · cases h
  · cases h
    exact ⟨congrArg (!·) (Sequence.hasElement_map _ _).symm, rfl⟩

theorem noCoverage_iff_drained {t : OperationTuples} (h : r.tuples op = .ok t) :
    t.noCoverage = true ↔ t.tuples.toList = [] := by
  rw [(of_tuples_ok h).1, Bool.not_eq_true', Bool.eq_false_iff, Ne, Sequence.hasElement_iff, not_not]

/-- a product is empty exactly if one of its lists is -/
theorem noCoverage_iff {t : OperationTuples} (h : r.tuples op = .ok t)
    (hlist : t.tuples.toList = (lexicographic ((r.demands op).map fun d => (r.supply d).toList)).map
      (splitReceiver op.kind.needsReceiver)) :
    t.noCoverage = true ↔ ∃ d ∈ r.demands op, (r.supply d).toList = [] := by
  rw [noCoverage_iff_drained h, hlist, List.map_eq_nil_iff, ← List.mem_map]
  exact ⟨nil_mem_of_lexicographic, lexicographic_eq_nil⟩

/-! ## The reports -/

/-- the demands that are met with nothing are reported in their order, among what the strategies report -/
theorem uncovered_sublist {ds : List Demand} (h : ∀ d ∈ ds, (r.supply d).Complete) :
    ((ds.filter fun d => !(r.supply d).hasElement).map fun d => Diagnostic.noCoverage d.ty).Sublist
      (ds.flatMap fun d => r.strategyReports d ++ uncovered d.ty (r.supply d)) := by
  induction ds with
  | nil => exact .slnil
  | cons d ds ih =>
    have hrest := ih fun e he => h e (List.mem_cons_of_mem d he)
    rw [List.flatMap_cons, List.append_assoc]
    apply List.Sublist.trans _ (List.sublist_append_right _ _)
    by_cases helement : (r.supply d).hasElement = true
    · rw [List.filter_cons_of_neg (by simp [helement])]
      exact hrest.trans (List.sublist_append_right _ _)
    · have hnil : r.supply d = .nil :=
        Sequence.eq_nil_of_toList (h d List.mem_cons_self) (Sequence.toList_of_not_hasElement helement)
      rw [List.filter_cons_of_pos (by simp [helement]), List.map_cons, hnil]
      exact hrest.cons_cons _

variable (r)

/-- what the tuples of an operation say about its coverage, and what is there -/
structure ReportsCoverage (op : Operation) (t : OperationTuples) : Prop where
  complete : t.tuples.Complete
  /-- the flag is set exactly if there is no tuple -/
  drained : t.noCoverage = true ↔ t.tuples.toList = []
  /-- the flag is set exactly if some position has no values -/
  flagged : t.noCoverage = true ↔ ∃ d ∈ r.demands op, (r.supply d).toList = []
  /-- reading passes the tuples in order, and the flag stays as it is even when none is left -/
  consumed : ∀ steps, (t.consume steps).noCoverage = t.noCoverage ∧
    (t.consume steps).tuples.toList = t.tuples.toList.drop (position t.tuples.toList.length steps)
  /-- position by position: what the strategy reports, and then whether there are no values -/
  reports : t.diagnostics = (r.demands op).flatMap fun d => r.strategyReports d ++ uncovered d.ty (r.supply d)
  /-- all positions without values are reported, in order -/
  named : (((r.demands op).filter fun d => !(r.supply d).hasElement).map fun d => Diagnostic.noCoverage d.ty).Sublist
    t.diagnostics
  /-- a position that is derived again has the values it had first -/
  again : ∀ p ∈ r.positions op, p.values.again () = p.values.first
  /-- no tuple of the product is missing -/
  length : t.tuples.toList.length = ((r.demands op).map fun d => (r.supply d).toList.length).foldr (· * ·) 1

/-- **Coverage is reported exactly.** For every resolver and every operation whose slots are well formed and whose
positions are finite: the flag is set exactly if there are no tuples, which is exactly if some position has no values.
The type of every such position is reported, in the order of the positions. No sequence that is derived again can end
the tuples early, so that their number is the product of the lengths of the positions. Reading the tuples does not
change the flag. -/
theorem coverage_reported_exactly (op : Operation) (hfault : op.fault? = none)
    (hfinite : ∀ d ∈ r.demands op, (r.supply d).Complete) :
    ∃ t, r.tuples op = .ok t ∧ r.ReportsCoverage op t := by
  have hsteady := steady_of_demands hfinite
  obtain ⟨t, ht, hcomplete, hlist⟩ := r.tuples_of_steady hfault hsteady
  rw [first_positions] at hlist
  have hreports := (of_tuples_ok ht).2.trans diagnostics_positions
  refine ⟨t, ht, hcomplete, noCoverage_iff_drained ht, noCoverage_iff ht hlist, ?_, hreports, ?_,
    fun p hp => (hsteady p hp).2, ?_⟩
  · exact fun steps => ⟨rfl, (Sequence.runsThrough_toList t.tuples).drain steps⟩
  · rw [hreports]
    exact uncovered_sublist hfinite
  · rw [hlist, List.length_map, length_lexicographic, List.map_map]
    rfl

/-! A desk that is known only as null, and drawers of which there are none. -/

def deskUnit : UnitInfo :=
  { declaring := ⟨"Desk", "", 0⟩
    types :=
      [{ ty := ⟨"Desk", "", 0⟩, constructors := [⟨[], none⟩] }, { ty := ⟨"Drawer", "", 0⟩, isAbstract := true }] }

def deskCatalog : Catalog :=
  .ofList [.ofStrategy .everywhere
    (.custom { target := ⟨"Desk", "", 0⟩, typeValues := [.null], useDefaults := false })]

def deskResolver : Resolver := .make deskCatalog.lookup deskUnit {}

/-- the same type stands at the receiver, which cannot be null, and at a slot -/
def stowOperation : Operation :=
  { id := "stow", name := "stow", kind := .method
    parameters :=
      [⟨"stow", ⟨"boolean", "", 0⟩, 0, "p0"⟩, ⟨"stow", ⟨"Drawer", "", 0⟩, 1, "p1"⟩,
       ⟨"stow", ⟨"Desk", "", 0⟩, 2, "p2"⟩] }

/-- no receiver, and values at both slots -/
def clearOperation : Operation :=
  { id := "clear", name := "clear", kind := .staticMethod
    parameters := [⟨"clear", ⟨"boolean", "", 0⟩, 0, "p0"⟩, ⟨"clear", ⟨"Desk", "", 0⟩, 1, "p1"⟩] }

theorem ownTargets_desk : deskResolver.lookup.OwnTargets :=
  deskCatalog.ownTargets (List.forall_mem_singleton.2 (.ofStrategy _ _))

theorem complete_deskSupply (d : Demand) : (deskResolver.supply d).Complete :=
  deskResolver.complete_resolveWhere ownTargets_desk d.keep d.ty d.ctx

theorem desks_reported_exactly :
    (deskResolver.tuples stowOperation).toOption.map
      (fun t => (t.noCoverage, t.tuples.toList.length, t.diagnostics.map Diagnostic.message)) =
      some (true, 0, ["no coverage: no values for Desk", "no coverage: no values for Drawer"]) ∧
    (∃ t, deskResolver.tuples stowOperation = .ok t ∧ deskResolver.ReportsCoverage stowOperation t) ∧
    (deskResolver.tuples clearOperation).toOption.map
      (fun t => (t.noCoverage, t.tuples.toList.length, t.diagnostics.map Diagnostic.message)) = some (false, 2, []) ∧
    ∃ t, deskResolver.tuples clearOperation = .ok t ∧ deskResolver.ReportsCoverage clearOperation t := by
  refine ⟨by decide +kernel, ?_, by decide +kernel, ?_⟩
  · exact coverage_reported_exactly deskResolver stowOperation rfl fun d _ => complete_deskSupply d
  · exact coverage_reported_exactly deskResolver clearOperation rfl fun d _ => complete_deskSupply d

end Resolver

end TestInputs
