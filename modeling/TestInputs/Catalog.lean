/-
The catalog of registered strategies. What is registered for a type at a scope is a way to make its strategy, which is
given the type that is asked for each time; a later registration for the same type and scope takes the place of an
earlier one. Types and scopes are compared without generic parts.
-/
import TestInputs.Scope
import TestInputs.Strategy

namespace TestInputs

/-- how registered strategies are found -/
abbrev Lookup := ScopeKey → TypeName → Option Strategy

/-- what was registered for a type at a scope -/
structure Registration where
  scope : ScopeKey
  ty : TypeName
  /-- the strategy for the type that is asked for, which may have another generic part than `ty` -/
  make : TypeName → Strategy

namespace Registration

/-- one strategy, registered under its own type -/
def ofStrategy (scope : ScopeKey) (strategy : Strategy) : Registration := ⟨scope, strategy.target, fun _ => strategy⟩

/-- is this the registration of the given type at the given scope? -/
def isFor (r : Registration) (scope : ScopeKey) (ty : TypeName) : Bool :=
  r.scope == scope && r.ty == ty

/-- the first of several registrations that fits -/
def first (registrations : List Registration) : Lookup := fun scope ty =>
  (registrations.find? fun r => r.isFor scope ty).map fun r => r.make ty

end Registration

/-- registrations, no two of them for the same type at the same scope -/
structure Catalog where
  entries : List Registration

namespace Catalog

def empty : Catalog := ⟨[]⟩

/-- put a registration in the place of the one it replaces, or at the end -/
def replace (r : Registration) : List Registration → List Registration
  | [] => [r]
  | e :: es => if e.isFor r.scope r.ty then r :: es else e :: replace r es

def register (c : Catalog) (r : Registration) : Catalog := ⟨replace r c.entries⟩

/-- register several strategies in order -/
def ofList (rs : List Registration) : Catalog := rs.foldl register empty

def lookup (c : Catalog) : Lookup := Registration.first c.entries

def contains (c : Catalog) (scope : ScopeKey) (ty : TypeName) : Bool := (c.lookup scope ty).isSome

def size (c : Catalog) : Nat := c.entries.length

end Catalog

end TestInputs
