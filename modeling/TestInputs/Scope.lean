/-
Scopes. A strategy is registered for one parameter of one operation, for everything inside a declaring type, for
everything inside a namespace, or for everything. The levels are ordered from the most specific one.
-/
import TestInputs.Decimal.Layout
import TestInputs.TypeName

namespace TestInputs

/-- the levels of visibility, most specific first -/
inductive ScopeLevel where
  | parameter
  | declaringType
  | enclosingNamespace
  | everywhere
  deriving DecidableEq, Ord

/-- a level together with what it is tied to -/
inductive ScopeKey where
  | parameter (operation : String) (index : Nat)
  | declaringType (ty : TypeName)
  | enclosingNamespace (name : String)
  | everywhere

namespace ScopeKey

def level : ScopeKey → ScopeLevel
  | parameter .. => .parameter
  | declaringType _ => .declaringType
  | enclosingNamespace _ => .enclosingNamespace
  | everywhere => .everywhere

/-- tied to one parameter of one operation -/
def isParameter (key : ScopeKey) : Bool := key.level == .parameter

/-- equality, types compared without generic parts -/
def same : ScopeKey → ScopeKey → Bool
  | parameter a m, parameter b n => a == b && m == n
  | declaringType a, declaringType b => a == b
  | enclosingNamespace a, enclosingNamespace b => a == b
  | everywhere, everywhere => true
  | _, _ => false

instance : BEq ScopeKey := ⟨same⟩

def text : ScopeKey → String
  | parameter operation index => "local:" ++ operation ++ "#" ++ Decimal.naturalText index
  | declaringType ty => "type:" ++ ty.text
  | enclosingNamespace name => "namespace:" ++ name
  | everywhere => "default"

/-- the keys that apply to anything inside a declaring type, most specific first -/
def ofType (declaring : TypeName) : List ScopeKey :=
  [declaringType declaring, enclosingNamespace declaring.namespaceName, everywhere]

/-- the keys that apply to one parameter of an operation, most specific first -/
def ofParameter (declaring : TypeName) (operation : String) (index : Nat) : List ScopeKey :=
  parameter operation index :: ofType declaring

end ScopeKey

end TestInputs
