/-
Candidate tuples for the operations of a unit. Each parameter slot is resolved in its own context; a method has a receiver
in front, resolved without null in the context of the declaring type. The tuples are the product of these positions.
-/
import TestInputs.Resolution

namespace TestInputs

/-- what a position of a tuple stands for -/
inductive Position where
  | receiver (ty : TypeName)
  | parameter (slot : Slot)

/-- one invocation: a receiver for methods, and an argument for each slot -/
structure CandidateTuple where
  receiver : Option Value
  arguments : List Value

/-- equality of receivers and arguments -/
def CandidateTuple.same (a b : CandidateTuple) : Bool :=
  a.receiver == b.receiver && a.arguments == b.arguments

instance : BEq CandidateTuple := ⟨CandidateTuple.same⟩

/-- everything generated for one operation -/
structure OperationTuples where
  operation : String
  layout : List Position
  /-- what was reported while the first sequences were resolved -/
  diagnostics : List Diagnostic
  tuples : Sequence CandidateTuple
  /-- some position had no values, so there never was a tuple -/
  noCoverage : Bool

/-- is the first position a receiver? -/
def OperationTuples.hasReceiver (t : OperationTuples) : Bool :=
  match t.layout with
  | .receiver _ :: _ => true
  | _ => false

namespace Operation

/-- the first fault of the slots from the given index on: every slot carries its index and the id of its operation -/
def slotFault? (id : String) : Nat → List Slot → Option SlotFault
  | _, [] => none
  | i, s :: rest =>
    if s.ordinal ≠ i then some (.wrongOrdinal i s.ordinal)
    else if s.operation ≠ id then some (.wrongOwner i s.operation)
    else slotFault? id (i + 1) rest

/-- the first fault of the slots of an operation -/
def fault? (op : Operation) : Option SlotFault := slotFault? op.id 0 op.parameters

end Operation

/-- one position of the tuples, with its values and what was reported for it -/
structure ResolvedPosition where
  position : Position
  values : Dimension Value
  diagnostics : List Diagnostic

namespace Resolver

/-- the literals of code and specification that the settings allow -/
def enabledLiterals (r : Resolver) (code spec : LiteralTable) : LiteralTable :=
  let fromCode := if r.config.useLiterals then LiteralTable.empty.merge code else .empty
  if r.config.useSpecLiterals then fromCode.merge spec else fromCode

/-- the literals of the declaring type -/
def declaringLiterals (r : Resolver) : LiteralTable :=
  match r.unit.declaringInfo? with
  | some info => r.enabledLiterals info.literals info.specLiterals
  | none => .empty

/-- the context of the receiver -/
def receiverContext (r : Resolver) : Context :=
  { Context.forType r.unit.declaring with
    structuralFallback := r.config.structuralFallback
    typeLiterals := r.declaringLiterals }

/-- the context of a parameter slot -/
def slotContext (r : Resolver) (op : Operation) (slot : Slot) : Context :=
  { Context.forParameter r.unit.declaring op.id slot.ordinal with
    structuralFallback := r.config.structuralFallback
    operationLiterals := some (r.enabledLiterals op.literals op.specLiterals)
    typeLiterals := r.declaringLiterals }

/-- the receiver, which is never null -/
def receiverPosition (r : Resolver) : ResolvedPosition :=
  let ty := r.unit.declaring
  let (values, ctx) := r.resolveWhere nonNull ty r.receiverContext
  { position := .receiver ty, values := ⟨values, r.factoryWhere nonNull ty ctx⟩, diagnostics := ctx.diagnostics }

/-- the values of a parameter slot -/
def slotPosition (r : Resolver) (op : Operation) (slot : Slot) : ResolvedPosition :=
  let (values, ctx) := r.resolve slot.ty (r.slotContext op slot)
  { position := .parameter slot, values := ⟨values, r.factory slot.ty ctx⟩, diagnostics := ctx.diagnostics }

/-- the positions of an operation in order -/
def positions (r : Resolver) (op : Operation) : List ResolvedPosition :=
  let slots := op.parameters.map (r.slotPosition op)
  if op.kind.needsReceiver then r.receiverPosition :: slots else slots

/-- split the values of all positions into receiver and arguments -/
def splitReceiver (hasReceiver : Bool) (values : List Value) : CandidateTuple :=
  match hasReceiver, values with
  | true, receiver :: arguments => ⟨some receiver, arguments⟩
  | _, arguments => ⟨none, arguments⟩

/-- the candidate tuples of an operation -/
def tuples (r : Resolver) (op : Operation) : Except GenerationError OperationTuples :=
  match op.fault? with
  | some fault => .error (.malformedSlots op.id fault)
  | none =>
    let positions := r.positions op
    let product := Sequence.product (positions.map ResolvedPosition.values)
    .ok
      { operation := op.id
        layout := positions.map ResolvedPosition.position
        diagnostics := positions.flatMap ResolvedPosition.diagnostics
        tuples := product.map (splitReceiver op.kind.needsReceiver)
        noCoverage := !product.hasElement }

/-- the candidate tuples of the operation with the given id -/
def tuplesFor (r : Resolver) (id : String) : Except GenerationError OperationTuples :=
  match r.unit.operation? id with
  | some op => r.tuples op
  | none => .error (.unknownOperation id)

/-- the candidate tuples of all operations in declaration order, or the first error -/
def allTuples (r : Resolver) : Except GenerationError (List OperationTuples) :=
  r.unit.operations.mapM r.tuples

end Resolver

end TestInputs
