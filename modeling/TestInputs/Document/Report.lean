/-
The documents of diagnostics and of failed instantiations.
-/
import TestInputs.Document.Value
import TestInputs.Failure

namespace TestInputs

namespace Diagnostic

open Document

/-- the name of the kind of a diagnostic -/
def label : Diagnostic → String
  | noCoverage _ => "NoCoverage"
  | ambiguousConstructor .. => "AmbiguousConstructor"
  | unusableConstructor .. => "UnusableConstructor"
  | cycleTruncated _ => "CycleTruncated"

/-- the kind, the type, what the kind adds, and the text -/
def toDocument (d : Diagnostic) : Document :=
  let details : List (String × Document) :=
    match d with
    | ambiguousConstructor _ count => [("count", .integer count)]
    | unusableConstructor _ reason => [("reason", .text reason)]
    | _ => []
  .record ([("kind", .text d.label), ("ty", .text d.ty.text)] ++ details ++ [("text", .text d.message)])

/-- the text is not read -/
def ofDocument (d : Document) : Reading Diagnostic := do
  let ty ← Value.readTypeText (d.get "ty")
  match ← readText (d.get "kind") with
  | "NoCoverage" => return noCoverage ty
  | "AmbiguousConstructor" => return ambiguousConstructor ty (← readNatural (d.get "count"))
  | "UnusableConstructor" => return unusableConstructor ty (← readText (d.get "reason"))
  | "CycleTruncated" => return cycleTruncated ty
  | _ => throw .malformed

end Diagnostic

namespace InstantiationError

/-- the name of the kind of an error -/
def label : InstantiationError → String
  | ambiguous .. => "AmbiguousConstructor"
  | noMatch .. => "NoMatchingConstructor"
  | failed .. => "ConstructionFailed"
  | noArguments .. => "NoArguments"

/-- the kind, the text, the type, the failure behind the error, and the diagnostic that stands for it -/
def toDocument (e : InstantiationError) : Document :=
  let source :=
    match e.source? with
    | some f => .text f.message
    | none => .null
  .record
    [("error", .text e.label), ("message", .text e.message), ("target", .text e.target.text), ("source", source),
      ("diagnostic", (Diagnostic.ofError e).toDocument)]

end InstantiationError

end TestInputs
