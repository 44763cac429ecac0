/-
The state of one resolution request: the scope chain in which registered strategies are looked up, whether constructors
with arguments may be used, the types being expanded, the literals in effect, and the diagnostics reported so far.

A type is expanded with a mark on it. A second attempt to expand it further down is refused, and the mark is taken off
when the expansion is done, so that siblings can expand the same type.
-/
import TestInputs.Failure
import TestInputs.LiteralTable
import TestInputs.Scope
import TestInputs.Sequence.Basic

namespace TestInputs

/-- the types being expanded -/
structure Guard where
  types : List TypeName

namespace Guard

def empty : Guard := ⟨[]⟩

def inProgress (g : Guard) (ty : TypeName) : Bool := g.types.any (· == ty)

/-- mark a type; absent if it is marked already -/
def enter? (g : Guard) (ty : TypeName) : Option Guard :=
  if g.inProgress ty then none else some ⟨ty :: g.types⟩

/-- take the mark off a type -/
def exit (g : Guard) (ty : TypeName) : Guard := ⟨g.types.filter fun t => !(t == ty)⟩

def size (g : Guard) : Nat := g.types.length

end Guard

/-- the state of a resolution request -/
structure Context where
  chain : List ScopeKey
  structuralFallback : Bool := true
  guard : Guard := .empty
  operationLiterals : Option LiteralTable := none
  typeLiterals : LiteralTable := .empty
  diagnostics : List Diagnostic := []

namespace Context

variable {α β : Type}

/-- for one parameter of an operation of `declaring` -/
def forParameter (declaring : TypeName) (operation : String) (index : Nat) : Context :=
  { chain := ScopeKey.ofParameter declaring operation index }

/-- for values used anywhere inside `declaring` -/
def forType (declaring : TypeName) : Context :=
  { chain := ScopeKey.ofType declaring }

/-- append a diagnostic -/
def report (ctx : Context) (d : Diagnostic) : Context :=
  { ctx with diagnostics := ctx.diagnostics ++ [d] }

/-- forget the diagnostics -/
def fork (ctx : Context) : Context := { ctx with diagnostics := [] }

/-- for constructor arguments and array elements: what is tied to one parameter or operation no longer applies, and the
marks stay -/
def nested (ctx : Context) : Context :=
  { ctx with chain := ctx.chain.filter fun key => !key.isParameter, operationLiterals := none, diagnostics := [] }

/-- take over the diagnostics of a nested context -/
def absorb (ctx inner : Context) : Context :=
  { ctx with diagnostics := ctx.diagnostics ++ inner.diagnostics }

/-- run an expansion with a mark on the type; refused if the type is marked already -/
def expand (ctx : Context) (ty : TypeName) (body : Context → α × Context) : Option α × Context :=
  match ctx.guard.enter? ty with
  | none => (none, ctx)
  | some guard =>
    let (a, after) := body { ctx with guard }
    (some a, { after with guard := after.guard.exit ty })

/-- run an action on the members of a list, one after the other -/
def traverse (f : α → Context → β × Context) : List α → Context → List β × Context
  | [], ctx => ([], ctx)
  | a :: as, ctx =>
    let (b, ctx) := f a ctx
    let (bs, ctx) := traverse f as ctx
    (b :: bs, ctx)

/-- the literal tables in effect, that of the operation first -/
def literalTables (ctx : Context) : List LiteralTable :=
  ctx.operationLiterals.toList ++ [ctx.typeLiterals]

/-- the literals of a type in effect, each text once -/
def literalTexts (ctx : Context) (ty : TypeName) : List String :=
  (ctx.literalTables.flatMap fun table => table.literalsFor ty).eraseDups

/-- the types that are named by literals in effect, each type once -/
def referencedTypes (ctx : Context) : List TypeName :=
  (ctx.literalTables.flatMap LiteralTable.referencedTypes).eraseDups

end Context

end TestInputs
