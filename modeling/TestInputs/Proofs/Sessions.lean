/-
Sessions on one context. A caller has the values of types resolved on a context, one type after the other, keeps the
sequences and factories that come back, calls the factories and moves the cursors in any order. The context is handed
on from request to request, so whatever one of them left behind would show in the next: a mark that was not taken off
would cut a later type down to null, and one that was taken off too early would open a circle.

A request that resolves appends diagnostics and leaves everything else as it was. The other requests do not write to the
context at all: a session ends in the same context without them.

Results:
- `onlyReported_perform`: one request only appends diagnostics;
- `context_perform_of_not_resolves`: making or calling a factory and moving a cursor do not even do that;
- `context_performAll_filter`: a session leaves the context as the resolving requests alone do;
- `resolution_only_reports`: the statement for every resolver, context and session.
-/
import TestInputs.Proofs.Frame

namespace TestInputs

/-! ## Contexts that were only reported to -/

namespace Context

/-- the later context has the marks, the chain, the flag and the literals of the earlier one, and its diagnostics
followed by new ones -/
structure OnlyReported (before after : Context) : Prop where
  guard : after.guard = before.guard
  chain : after.chain = before.chain
  structuralFallback : after.structuralFallback = before.structuralFallback
  operationLiterals : after.operationLiterals = before.operationLiterals
  typeLiterals : after.typeLiterals = before.typeLiterals
  diagnostics : ∃ reports, after.diagnostics = before.diagnostics ++ reports

theorem OnlyReported.refl (ctx : Context) : OnlyReported ctx ctx :=
  ⟨rfl, rfl, rfl, rfl, rfl, [], (List.append_nil _).symm⟩

theorem OnlyReported.trans {a b c : Context} (hab : OnlyReported a b) (hbc : OnlyReported b c) : OnlyReported a c := by
  obtain ⟨first, hfirst⟩ := hab.diagnostics
  obtain ⟨second, hsecond⟩ := hbc.diagnostics
  refine ⟨hbc.guard.trans hab.guard, hbc.chain.trans hab.chain, hbc.structuralFallback.trans hab.structuralFallback,
    hbc.operationLiterals.trans hab.operationLiterals, hbc.typeLiterals.trans hab.typeLiterals, first ++ second, ?_⟩
  rw [hsecond, hfirst, List.append_assoc]

theorem Framed.onlyReported {α : Type} {f : Context → α × Context} (hf : Framed f) (ctx : Context) :
    OnlyReported ctx (f ctx).2 := by
  have hafter : (f ctx).2 = ctx.absorb (f ctx.fork).2 := by rw [hf ctx]
  rw [hafter]
  exact ⟨rfl, rfl, rfl, rfl, rfl, _, rfl⟩

end Context

open Context (OnlyReported)

/-! ## Sessions -/

/-- what a caller can ask for -/
inductive Request where
  | resolve (ty : TypeName)
  | resolveWhere (keep : Value → Bool) (ty : TypeName)
  | argument (ty : TypeName)
  | structuralCandidates (ty : TypeName)
  | makeFactory (ty : TypeName)
  | makeFactoryWhere (keep : Value → Bool) (ty : TypeName)
  /-- start a sequence from one of the factories -/
  | callFactory (index : Nat)
  /-- move one of the cursors -/
  | advance (index : Nat)

/-- are types resolved on the context? -/
def Request.resolves : Request → Bool
  | resolve _ => true
  | resolveWhere _ _ => true
  | argument _ => true
  | structuralCandidates _ => true
  | _ => false

/-- a context, and the sequences and factories that came back from it so far -/
structure Session where
  context : Context
  cursors : List (Sequence Value)
  factories : List (Unit → Sequence Value)

namespace Resolver

variable (r : Resolver)

/-- carry out one request -/
def perform (s : Session) : Request → Session
  | .resolve ty =>
    let (values, context) := r.resolve ty s.context
    { s with context, cursors := s.cursors ++ [values] }
  | .resolveWhere keep ty =>
    let (values, context) := r.resolveWhere keep ty s.context
    { s with context, cursors := s.cursors ++ [values] }
  | .argument ty =>
    let (argument, context) := r.argument ty s.context
    { context
      cursors := s.cursors ++ [argument.dimension.first]
      factories := s.factories ++ [argument.dimension.again] }
  | .structuralCandidates ty =>
    let (values, context) := r.structuralCandidates ty s.context
    { s with context, cursors := s.cursors ++ [values] }
  | .makeFactory ty => { s with factories := s.factories ++ [r.factory ty s.context] }
  | .makeFactoryWhere keep ty => { s with factories := s.factories ++ [r.factoryWhere keep ty s.context] }
  | .callFactory index =>
    { s with cursors := s.cursors ++ (s.factories[index]?.map fun make => make ()).toList }
  | .advance index => { s with cursors := s.cursors.modify index Sequence.advance }

/-- carry out several requests in order -/
def performAll (s : Session) (requests : List Request) : Session :=
  requests.foldl r.perform s

/-! ## One request -/

theorem onlyReported_perform (s : Session) (request : Request) :
    OnlyReported s.context (r.perform s request).context := by
  cases request with
  | resolve ty => exact (r.framed_resolve ty).onlyReported s.context
  | resolveWhere keep ty => exact (r.framed_resolveWhere keep ty).onlyReported s.context
  | argument ty => exact (r.framed_argument ty).onlyReported s.context
  | structuralCandidates ty => exact (r.framed_structuralCandidates ty).onlyReported s.context
  | makeFactory ty => exact .refl _
  | makeFactoryWhere keep ty => exact .refl _
  | callFactory index => exact .refl _
  | advance index => exact .refl _

theorem context_perform_of_not_resolves (s : Session) {request : Request} (h : request.resolves = false) :
    (r.perform s request).context = s.context := by
  cases request with
  | resolve ty => cases h
  | resolveWhere keep ty => cases h
  | argument ty => cases h
  | structuralCandidates ty => cases h
  | makeFactory ty => rfl
  | makeFactoryWhere keep ty => rfl
  | callFactory index => rfl
  | advance index => rfl

/-- what a request does to the context does not depend on the sequences and factories -/
theorem context_perform_congr {s t : Session} (h : s.context = t.context) (request : Request) :
    (r.perform s request).context = (r.perform t request).context := by
  cases request <;> simp only [perform, h]

/-! ## Whole sessions -/

theorem onlyReported_performAll (s : Session) (requests : List Request) :
    OnlyReported s.context (r.performAll s requests).context := by
  induction requests generalizing s with
  | nil => exact .refl _
  | cons request requests ih =>
    apply (r.onlyReported_perform s request).trans
    exact ih (r.perform s request)

theorem context_performAll_filter {s t : Session} (h : s.context = t.context) (requests : List Request) :
    (r.performAll s requests).context = (r.performAll t (requests.filter Request.resolves)).context := by
  induction requests generalizing s t with
  | nil => exact h
  | cons request requests ih =>
    cases hr : request.resolves with
    | true =>
      rw [List.filter_cons_of_pos hr]
      exact ih (r.context_perform_congr h request)
    | false =>
      rw [List.filter_cons_of_neg (by simp [hr])]
      exact ih ((r.context_perform_of_not_resolves s hr).trans h)

/-- **Resolution only appends diagnostics.** For every resolver and every context in any state, whatever marks it bears
and whatever was reported before: after the values of a type, those that satisfy a predicate, an argument or the values
of a structured type were asked for, the context is as before but for diagnostics behind the earlier ones. The same
holds after any session. Making factories, calling them and moving cursors change nothing: a session leaves the context
in which it ends without these requests. -/
theorem resolution_only_reports (r : Resolver) (ctx : Context) :
    (∀ ty, OnlyReported ctx (r.resolve ty ctx).2) ∧
    (∀ keep ty, OnlyReported ctx (r.resolveWhere keep ty ctx).2) ∧
    (∀ ty, OnlyReported ctx (r.argument ty ctx).2) ∧
    (∀ ty, OnlyReported ctx (r.structuralCandidates ty ctx).2) ∧
    ∀ cursors factories requests,
      OnlyReported ctx (r.performAll ⟨ctx, cursors, factories⟩ requests).context ∧
      (r.performAll ⟨ctx, cursors, factories⟩ requests).context =
        (r.performAll ⟨ctx, cursors, factories⟩ (requests.filter Request.resolves)).context := by
  refine ⟨?_, ?_, ?_, ?_, ?_⟩
  · intro ty
    exact (r.framed_resolve ty).onlyReported ctx
  · intro keep ty
    exact (r.framed_resolveWhere keep ty).onlyReported ctx
  · intro ty
    exact (r.framed_argument ty).onlyReported ctx
  · intro ty
    exact (r.framed_structuralCandidates ty).onlyReported ctx
  · intro cursors factories requests
    refine ⟨r.onlyReported_performAll ⟨ctx, cursors, factories⟩ requests, ?_⟩
    exact r.context_performAll_filter rfl requests

end Resolver

end TestInputs
