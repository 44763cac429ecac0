/-
Resolution of types to candidate values. The scope chain of the context is searched for a registered strategy; the first
hit wins. Without one the shape of the type decides: value-like types have constants, arrays are built over the values of
their component, and a structured type is expanded into null and the instances of itself and of its known subtypes, made
from its constructors with recursively resolved arguments.

Expansion marks the types on the way down, so it always comes back. Array elements are resolved only when the cursor
reaches them, and a strategy that was registered under a type other than its own can make that go on for ever. The
definitions are therefore given with the resolver of the next level as a parameter, and `shapeValues` ties the knot for a
number of levels, beyond which a sequence is cut. `depth` is enough for every strategy that is registered under its own
type.
-/
import TestInputs.Catalog
import TestInputs.Config
import TestInputs.Context
import TestInputs.Instantiation
import TestInputs.Sequence.Arrays
import TestInputs.Sequence.Sampled

namespace TestInputs

/-- registered strategies, the unit under test and the settings -/
structure Resolver where
  lookup : Lookup
  unit : UnitInfo
  config : Config

/-- values of one level: the default values of a shape, and the context with what was reported -/
abbrev ShapeValues := Shape → Context → Sequence Value × Context

namespace Resolver

/-- a resolver for a unit, all declared edges of its types recorded -/
def make (lookup : Lookup) (unit : UnitInfo) (config : Config) : Resolver :=
  { lookup, unit := unit.linkTypes, config }

/-! ## Strategies -/

/-- the first strategy registered for a type along a chain, with its scope -/
def findStrategy? (r : Resolver) (ty : TypeName) (chain : List ScopeKey) : Option (ScopeKey × Strategy) :=
  chain.findSome? fun key => (r.lookup key ty).map fun strategy => (key, strategy)

/-- the registered strategy of a type, or its shape -/
def strategyFor (r : Resolver) (ty : TypeName) (ctx : Context) : Strategy :=
  match r.findStrategy? ty ctx.chain with
  | some (_, strategy) => strategy
  | none => .builtin (Shape.ofType r.unit ty)

/-- the sampling of a strategy, or that of the settings -/
def samplingOf (r : Resolver) (s : Strategy) : Option Sampling :=
  s.sampling.or r.config.sampling

/-- the default tier of a strategy -/
def defaultValues (r : Resolver) (inner : ShapeValues) (s : Strategy) (ctx : Context) : Sequence Value × Context :=
  match s.defaultShape? r.unit with
  | some shape => inner shape ctx
  | none => (.nil, ctx)

/-- all four tiers of a strategy in order -/
def union (r : Resolver) (inner : ShapeValues) (s : Strategy) (ctx : Context) : Sequence Value × Context :=
  let (defaults, ctx) := r.defaultValues inner s ctx
  (.concat [.ofList s.localValues, .ofList s.typeValues, .ofList s.namespaceValues, defaults], ctx)

/-- the tiers of a strategy that satisfy a predicate, sampled -/
def strategyValues (r : Resolver) (inner : ShapeValues) (s : Strategy) (keep : Value → Bool) (ctx : Context) :
    Sequence Value × Context :=
  let (values, ctx) := r.union inner s ctx
  ((values.filter keep).sampledBy (r.samplingOf s), ctx)

/-- report a type without values -/
def checkCoverage (ty : TypeName) (values : Sequence Value) (ctx : Context) : Sequence Value × Context :=
  match values with
  | .nil => (.nil, ctx.report (.noCoverage ty))
  | values => (values, ctx)

/-- the values of a type that satisfy a predicate -/
def resolveWith (r : Resolver) (inner : ShapeValues) (keep : Value → Bool) (ty : TypeName) (ctx : Context) :
    Sequence Value × Context :=
  let (values, ctx) := r.strategyValues inner (r.strategyFor ty ctx) keep ctx
  checkCoverage ty values ctx

/-- a predicate that holds of every value -/
def anyValue (_ : Value) : Bool := true

/-- a predicate that holds of every value but null -/
def nonNull (v : Value) : Bool := !v.isNull

/-! ## Structured types -/

/-- the values of one constructor argument, resolved in a nested context, and again from there when restarted -/
def argumentWith (r : Resolver) (inner : ShapeValues) (ty : TypeName) (ctx : Context) : Argument × Context :=
  let (values, after) := r.resolveWith inner anyValue ty ctx.nested
  (.generated ty ⟨values, fun _ => (r.resolveWith inner anyValue ty after.fork).1⟩, ctx.absorb after)

/-- the instances that one constructor of a type gives; a constructor that cannot be used is reported -/
def constructorValues (r : Resolver) (inner : ShapeValues) (info : TypeInfo) (c : Constructor) (ctx : Context) :
    Sequence Value × Context :=
  if !ctx.structuralFallback && 0 < c.arity then (.nil, ctx)
  else
    let (arguments, ctx) := ctx.traverse (r.argumentWith inner) c.parameters
    match info.instantiate r.unit.hierarchy arguments with
    | .ok instantiation => (instantiation.instances, ctx)
    | .error e => (.nil, ctx.report (.ofError e))

/-- the instances of a type by its constructors in order; types that are unknown or not concrete have none -/
def instantiations (r : Resolver) (inner : ShapeValues) (ty : TypeName) (ctx : Context) : Sequence Value × Context :=
  match r.unit.typeInfo? ty with
  | some info =>
    if info.isInstantiable then
      let (parts, ctx) := ctx.traverse (r.constructorValues inner info) info.constructors
      (.concat parts, ctx)
    else (.nil, ctx)
  | none => (.nil, ctx)

/-- the values of a subtype: those of its registered strategy without null, or else its instances -/
def subtypeValues (r : Resolver) (inner : ShapeValues) (subtype : TypeName) (ctx : Context) :
    Sequence Value × Context :=
  match r.findStrategy? subtype ctx.chain with
  | some (_, strategy) => r.strategyValues inner strategy nonNull ctx
  | none =>
    match ctx.expand subtype (r.instantiations inner subtype) with
    | (some values, ctx) => (values, ctx)
    | (none, ctx) => (.nil, ctx.report (.cycleTruncated subtype))

/-- the type itself, its known subtypes, and the types named by literals that are assignable to it, each once -/
def dataTypes (r : Resolver) (ty : TypeName) (ctx : Context) : List TypeName :=
  if r.config.useSubtypes then
    let declared := ((r.unit.typeInfo? ty).map TypeInfo.subtypes).getD []
    let referenced := ctx.referencedTypes.filter fun t => r.unit.hierarchy.isAssignable ty t
    (ty :: declared ++ referenced).eraseDups
  else [ty]

/-- the values of a type expanded for itself or as one of its data types -/
def dataTypeValues (r : Resolver) (inner : ShapeValues) (ty dataType : TypeName) (ctx : Context) :
    Sequence Value × Context :=
  if dataType == ty then r.instantiations inner dataType ctx else r.subtypeValues inner dataType ctx

/-- the values of a structured type: null and then the values of its data types, nothing if these have none; null alone
inside an expansion of the same type -/
def structuredValues (r : Resolver) (inner : ShapeValues) (ty : TypeName) (ctx : Context) : Sequence Value × Context :=
  let types := r.dataTypes ty ctx
  match ctx.expand ty fun ctx => ctx.traverse (r.dataTypeValues inner ty) types with
  | (none, ctx) => (.once .null, ctx.report (.cycleTruncated ty))
  | (some parts, ctx) =>
    match Sequence.concat parts with
    | .nil => (.nil, ctx)
    | values => (.cons .null fun _ => values, ctx)

/-! ## Levels -/

/-- the values of an array type; elements are resolved in a nested context each time they are enumerated -/
def arrayValues (r : Resolver) (inner : ShapeValues) (ty : TypeName) (maxLength : Option Nat) (ctx : Context) :
    Sequence Value :=
  match ty.component? with
  | none => .nil
  | some component =>
    let longest := maxLength.getD (if ctx.structuralFallback then r.config.maxArrayLength else 0)
    let elements := fun _ => (r.resolveWith inner anyValue component ctx.nested).1
    (Sequence.arrays elements longest).map fun
      | none => .null
      | some elements => .array component elements

/-- the default values of a shape, given those of the next level -/
def shapeStep (r : Resolver) (inner : ShapeValues) : ShapeValues
  | .primitive ty k, ctx => (.ofList (Shape.primitiveValues k (ctx.literalTexts ty)), ctx)
  | .boxed _ k, ctx => (.ofList (Shape.boxedValues k (ctx.literalTexts (.ofKind k))), ctx)
  | .enumeration ty constants, ctx => (.ofList (constants.map (Value.enum ty)), ctx)
  | .array ty maxLength, ctx => (r.arrayValues inner ty maxLength ctx, ctx)
  | .structured ty, ctx => r.structuredValues inner ty ctx

/-- the default values of a shape, explored for a number of levels -/
def shapeValues (r : Resolver) : Nat → ShapeValues
  | 0, _, ctx => (.cut, ctx)
  | levels + 1, shape, ctx => r.shapeStep (r.shapeValues levels) shape ctx

/-- the types that can occur in the resolution of a type -/
def mentioned (r : Resolver) (ty : TypeName) (ctx : Context) : List TypeName :=
  ty :: r.unit.types.flatMap (fun info => info.subtypes ++ info.constructors.flatMap Constructor.parameters) ++
    ctx.referencedTypes

/-- levels for strategies that lead from a type to a deeper one -/
def reserve : Nat := 0x100000000

/-- the levels to explore for a type: each mentioned name can be expanded once with each number of dimensions, and below
every expansion an array loses one dimension a level; beyond that there is the reserve -/
def depth (r : Resolver) (ty : TypeName) (ctx : Context) : Nat :=
  let types := r.mentioned ty ctx
  let dimensions := (types.map TypeName.dimensions).foldl max 0
  (types.length * (dimensions + 1) + 1) * (dimensions + 1) + reserve

/-- the levels for a request about a type -/
def levels (r : Resolver) (ty : TypeName) (ctx : Context) : ShapeValues :=
  r.shapeValues (r.depth ty ctx)

/-! ## Requests -/

/-- the candidate values of a type; one without values is reported -/
def resolve (r : Resolver) (ty : TypeName) (ctx : Context) : Sequence Value × Context :=
  r.resolveWith (r.levels ty ctx) anyValue ty ctx

/-- the candidate values of a type that satisfy a predicate -/
def resolveWhere (r : Resolver) (keep : Value → Bool) (ty : TypeName) (ctx : Context) : Sequence Value × Context :=
  r.resolveWith (r.levels ty ctx) keep ty ctx

/-- resolve again from a snapshot of the context -/
def factory (r : Resolver) (ty : TypeName) (ctx : Context) : Unit → Sequence Value :=
  let snapshot := ctx.fork
  fun _ => (r.resolve ty snapshot).1

/-- resolve again, with a predicate, from a snapshot of the context -/
def factoryWhere (r : Resolver) (keep : Value → Bool) (ty : TypeName) (ctx : Context) : Unit → Sequence Value :=
  let snapshot := ctx.fork
  fun _ => (r.resolveWhere keep ty snapshot).1

/-- the values of one constructor argument -/
def argument (r : Resolver) (ty : TypeName) (ctx : Context) : Argument × Context :=
  r.argumentWith (r.levels ty ctx) ty ctx

/-- the values of a type as a structured one -/
def structuralCandidates (r : Resolver) (ty : TypeName) (ctx : Context) : Sequence Value × Context :=
  r.structuredValues (r.levels ty ctx) ty ctx

/-- the default values of a strategy -/
def defaultsOf (r : Resolver) (s : Strategy) (ctx : Context) : Sequence Value × Context :=
  r.defaultValues (r.levels s.target ctx) s ctx

/-- all tiers of a strategy -/
def unionOf (r : Resolver) (s : Strategy) (ctx : Context) : Sequence Value × Context :=
  r.union (r.levels s.target ctx) s ctx

/-- all tiers of a strategy, sampled -/
def valuesOf (r : Resolver) (s : Strategy) (ctx : Context) : Sequence Value × Context :=
  r.strategyValues (r.levels s.target ctx) s anyValue ctx

end Resolver

end TestInputs
