/-
The type hierarchy: declared supertype edges between types, and the wrapper types that box the value-like kinds. Its
purpose is assignability. A value of one type can be passed where another is declared when the types are equal, when one
boxes the other, or when declared edges lead from the one to the other; arrays follow their base types unless these are
value-like.

Edges may be cyclic, repeated or reflexive. The search for a path uses up the edges of each type that it visits, so it
ends on every graph.
-/
import TestInputs.TypeInfo

namespace TestInputs

/-- the direct supertypes of types; entries are kept in the order of the texts of their types -/
abbrev Edges := List (TypeName × List TypeName)

namespace Edges

/-- put an entry in front of the first one with a greater text -/
def place (entry : TypeName × List TypeName) : Edges → Edges
  | [] => [entry]
  | e :: es => if entry.1.text < e.1.text then entry :: e :: es else e :: place entry es

/-- change the supertypes of a type; the first text under which a type was entered stays -/
def alter (edges : Edges) (sub : TypeName) (change : List TypeName → List TypeName) : Edges :=
  if edges.any fun e => e.1 == sub then edges.map fun e => if e.1 == sub then (e.1, change e.2) else e
  else place (sub, change []) edges

/-- the direct supertypes of a type -/
def parents (edges : Edges) (ty : TypeName) : List TypeName :=
  (edges.filter fun e => e.1 == ty).flatMap Prod.snd

/-- the edges that leave other types -/
def without (edges : Edges) (ty : TypeName) : Edges :=
  edges.filter fun e => !(e.1 == ty)

/-- entries and edges together -/
def weight : Edges → Nat
  | [] => 0
  | e :: es => 1 + e.2.length + weight es

theorem length_parents_add_weight_without (edges : Edges) (ty : TypeName) :
    (edges.parents ty).length + (edges.without ty).weight ≤ edges.weight := by
  induction edges with
  | nil => simp [parents, without, weight]
  | cons e es ih =>
    simp only [parents, without, weight, List.filter_cons] at ih ⊢
    cases e.1 == ty with
    | true =>
      simp only [if_true, List.flatMap_cons, List.length_append, Bool.not_true, Bool.false_eq_true, if_false]
      omega
    | false =>
      simp only [Bool.false_eq_true, if_false, Bool.not_false, if_true, weight]
      omega

/-- is one of the queued types `target`, or does a path lead to it from one of them? -/
def reaches (target : TypeName) (edges : Edges) (queue : List TypeName) : Bool :=
  match queue with
  | [] => false
  | ty :: rest => ty == target || reaches target (edges.without ty) (rest ++ edges.parents ty)
termination_by edges.weight + queue.length
decreasing_by
  have := length_parents_add_weight_without edges ty
  simp only [List.length_append, List.length_cons]
  omega

end Edges

/-- the order in which the wrappers are visited when a type is looked for among them. Nothing is known about it but that
every kind has its turn; it may be another one in two hierarchies with the same wrappers. -/
structure Visits where
  kinds : List Kind
  all : ∀ k, k ∈ kinds

/-- the kinds one after the other -/
def Visits.inOrder : Visits := ⟨Kind.all, fun k => by cases k <;> decide⟩

/-- supertype edges and wrapper types -/
structure Hierarchy where
  edges : Edges
  wrappers : Kind → Option TypeName
  visits : Visits := .inOrder

namespace Hierarchy

def empty : Hierarchy := { edges := [], wrappers := fun _ => none }

/-- record that `sub` is directly assignable to `sup` -/
def addSupertype (h : Hierarchy) (sub sup : TypeName) : Hierarchy :=
  { h with edges := h.edges.alter sub fun sups => if sups.contains sup then sups else sups ++ [sup] }

/-- record the edges that a type declares, those to its supertypes first -/
def link (h : Hierarchy) (info : TypeInfo) : Hierarchy :=
  let up := info.supertypes.foldl (fun h sup => h.addSupertype info.ty sup) h
  info.subtypes.foldl (fun h sub => h.addSupertype sub info.ty) up

/-- register the boxed form of a kind -/
def addWrapper (h : Hierarchy) (k : Kind) (wrapper : TypeName) : Hierarchy :=
  { h with wrappers := fun j => if j = k then some wrapper else h.wrappers j }

/-- the kind that a wrapper type boxes, the first one visited if there are several -/
def unboxed? (h : Hierarchy) (ty : TypeName) : Option Kind :=
  h.visits.kinds.find? fun k => (h.wrappers k).any (· == ty)

/-- the same hierarchy with its wrappers visited in another order -/
def visiting (h : Hierarchy) (visits : Visits) : Hierarchy := { h with visits }

/-- no type was registered for two kinds -/
def DistinctWrappers (h : Hierarchy) : Prop :=
  ∀ j k ty, (h.wrappers j).any (· == ty) = true → (h.wrappers k).any (· == ty) = true → j = k

theorem wraps_of_unboxed {h : Hierarchy} {ty : TypeName} {k : Kind} (hu : h.unboxed? ty = some k) :
    (h.wrappers k).any (· == ty) = true := by
  simpa using List.find?_some hu

/-- a type that was registered for some kind boxes a kind -/
theorem exists_unboxed {h : Hierarchy} {ty : TypeName} (hsome : ∃ k, (h.wrappers k).any (· == ty) = true) :
    ∃ k, h.unboxed? ty = some k := by
  obtain ⟨k, hwraps⟩ := hsome
  exact Option.isSome_iff_exists.1 (List.find?_isSome.2 ⟨k, h.visits.all k, hwraps⟩)

/-- a type that was registered for one kind alone boxes it, whatever the order of the visits is -/
theorem unboxed_of_only {h : Hierarchy} {ty : TypeName} {k : Kind} (hwraps : (h.wrappers k).any (· == ty) = true)
    (honly : ∀ j, (h.wrappers j).any (· == ty) = true → j = k) : h.unboxed? ty = some k := by
  obtain ⟨j, hfind⟩ := exists_unboxed ⟨k, hwraps⟩
  rw [hfind, honly j (wraps_of_unboxed hfind)]

/-- where no type was registered for two kinds, the order of the visits does not show -/
theorem unboxed_of_sameWrappers {g h : Hierarchy} (hsame : g.wrappers = h.wrappers) (hdistinct : h.DistinctWrappers)
    (ty : TypeName) : g.unboxed? ty = h.unboxed? ty := by
  cases hfind : h.unboxed? ty with
  | none =>
    refine List.find?_eq_none.2 fun k _ => ?_
    rw [hsame]
    exact List.find?_eq_none.1 hfind k (h.visits.all k)
  | some k =>
    have hwraps := wraps_of_unboxed hfind
    apply unboxed_of_only
    · rw [hsame]
      exact hwraps
    · intro j hj
      rw [hsame] at hj
      exact hdistinct j k ty hj hwraps

/-- is `other` the wrapper of the value-like type `primitive`? Strings are never boxed. -/
def boxes (h : Hierarchy) (primitive other : TypeName) : Bool :=
  match primitive.kind? with
  | some k => !k.isNullable && (h.wrappers k).any (· == other)
  | none => false

/-- `sub` is `sup`, or declared edges lead from it there -/
def isSubtype (h : Hierarchy) (sup sub : TypeName) : Bool :=
  h.edges.reaches sup [sub]

/-- can a value of type `source` be passed where `target` is declared? -/
def isAssignable (h : Hierarchy) (target source : TypeName) : Bool :=
  target == source || h.boxes target source || h.boxes source target ||
    (target.dimensions == source.dimensions &&
      if target.isArray then
        !target.base.isPrimitive && !source.base.isPrimitive && h.isSubtype target.base source.base
      else h.isSubtype target source)

end Hierarchy

end TestInputs
