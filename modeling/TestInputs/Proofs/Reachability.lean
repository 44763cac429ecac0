/-
Assignability without the search that decides it: equality, boxing, or a path of declared edges between types with the
same number of dimensions. Edges may be cyclic, reflexive or repeated, and may join arrays and value-like types.

The search takes types off a queue and puts their direct supertypes at its end. `Edges.reaches` uses up the edges of each
type that it visits. `Search` shows the same course round by round, with all edges kept and the visited types remembered
instead: what is used up is what leaves a visited type, so the queues are the same, and each round lowers what is unused
and queued together. This bounds the number of rounds on every graph.

Results:
- `Search.reaches_of_round`, `Search.left_of_round`: a round keeps the answer of the search and leaves less to do;
- `Search.answer_eq`: within a round more than there is to do, a search comes to its answer;
- `isAssignable_iff`: the check answers yes exactly where a type is assignable;
- `assignability_decided`: both together, for all hierarchies and types.
-/
import TestInputs.Proofs.Paths

namespace TestInputs

/-! ## Unused edges -/

namespace Edges

/-- the edges that leave types which were not visited -/
def unused (edges : Edges) (visited : List TypeName) : Edges :=
  edges.filter fun e => !visited.any (· == e.1)

variable {edges : Edges} {visited : List TypeName} {ty : TypeName}

@[simp] theorem unused_nil (edges : Edges) : edges.unused [] = edges := by
  simp [unused]

theorem unused_cons (edges : Edges) (visited : List TypeName) (ty : TypeName) :
    edges.unused (ty :: visited) = (edges.unused visited).without ty := by
  simp only [unused, without, List.filter_filter, List.any_cons, Bool.not_or, BEq.comm (a := ty)]

/-- no entry of a visited type is left -/
theorem not_beq_of_mem_unused (h : visited.any (· == ty) = true) {e : TypeName × List TypeName}
    (he : e ∈ edges.unused visited) : (e.1 == ty) = false := by
  obtain ⟨v, hv, hvt⟩ := List.any_eq_true.1 h
  have hnone := (List.mem_filter.1 he).2
  rw [Bool.not_eq_true', List.any_eq_false] at hnone
  rw [Bool.eq_false_iff]
  intro het
  exact hnone v hv (BEq.trans hvt (BEq.symm het))

theorem without_of_visited (h : visited.any (· == ty) = true) :
    (edges.unused visited).without ty = edges.unused visited := by
  refine List.filter_eq_self.2 fun e he => ?_
  rw [not_beq_of_mem_unused h he, Bool.not_false]

theorem parents_of_visited (h : visited.any (· == ty) = true) : (edges.unused visited).parents ty = [] := by
  have hnone : (edges.unused visited).filter (fun e => e.1 == ty) = [] :=
    List.filter_eq_nil_iff.2 fun e he => by rw [not_beq_of_mem_unused h he]; exact Bool.false_ne_true
  rw [parents, hnone, List.flatMap_nil]

theorem parents_of_not_visited (h : visited.any (· == ty) = false) :
    (edges.unused visited).parents ty = edges.parents ty := by
  have hkept : ∀ e ∈ edges, ((e.1 == ty) && !visited.any (· == e.1)) = (e.1 == ty) := by
    intro e _
    by_cases het : (e.1 == ty) = true
    · have hsame : visited.any (· == e.1) = visited.any (· == ty) := by
        simp only [TypeName.beq_congr_right het]
      rw [hsame, h, Bool.not_false, Bool.and_true]
    · rw [Bool.not_eq_true] at het
      rw [het, Bool.false_and]
  rw [parents, unused, List.filter_filter, List.filter_congr hkept, parents]

end Edges

/-! ## Rounds -/

/-- a search on its way: the types that it has gone on from, and those that come next -/
structure Search where
  visited : List TypeName
  queue : List TypeName

namespace Search

/-- one round: the first type of the queue is the target, or its direct supertypes are queued unless it was visited -/
def round (edges : Edges) (target : TypeName) (s : Search) : Search ⊕ Bool :=
  match s.queue with
  | [] => .inr false
  | ty :: rest =>
    if ty == target then .inr true
    else if s.visited.any (· == ty) then .inl { s with queue := rest }
    else .inl ⟨ty :: s.visited, rest ++ edges.parents ty⟩

/-- the answer of a search that comes to one within a number of rounds -/
def answer? (edges : Edges) (target : TypeName) : Nat → Search → Option Bool
  | 0, _ => none
  | n + 1, s =>
    match s.round edges target with
    | .inr answer => some answer
    | .inl next => answer? edges target n next

/-- what is left to do: unused edges with their entries, and queued types -/
def left (edges : Edges) (s : Search) : Nat := (edges.unused s.visited).weight + s.queue.length

variable {edges : Edges} {target : TypeName} {s next : Search}

/-- what a round leads to, if it gives no answer -/
theorem round_cases (h : s.round edges target = .inl next) :
    ∃ ty rest, s.queue = ty :: rest ∧ (ty == target) = false ∧
      (s.visited.any (· == ty) = true ∧ next = ⟨s.visited, rest⟩ ∨
        s.visited.any (· == ty) = false ∧ next = ⟨ty :: s.visited, rest ++ edges.parents ty⟩) := by
  unfold round at h
  split at h
  · cases h
  · rename_i ty rest hqueue
    split_ifs at h with htarget hvisited
    · cases h
      exact ⟨ty, rest, hqueue, Bool.eq_false_iff.2 htarget, Or.inl ⟨hvisited, rfl⟩⟩
    · cases h
      exact ⟨ty, rest, hqueue, Bool.eq_false_iff.2 htarget, Or.inr ⟨Bool.eq_false_iff.2 hvisited, rfl⟩⟩

/-- a round does not change what the search will answer -/
theorem reaches_of_round (h : s.round edges target = .inl next) :
    (edges.unused s.visited).reaches target s.queue = (edges.unused next.visited).reaches target next.queue := by
  obtain ⟨ty, rest, hqueue, htarget, ⟨hvisited, rfl⟩ | ⟨hvisited, rfl⟩⟩ := round_cases h
  · rw [hqueue, Edges.reaches, htarget, Bool.false_or, Edges.without_of_visited hvisited,
      Edges.parents_of_visited hvisited, List.append_nil]
  · rw [hqueue, Edges.reaches, htarget, Bool.false_or, Edges.parents_of_not_visited hvisited, Edges.unused_cons]

theorem reaches_of_answer {answer : Bool} (h : s.round edges target = .inr answer) :
    (edges.unused s.visited).reaches target s.queue = answer := by
  unfold round at h
  split at h
  · rename_i hqueue
    cases h
    rw [hqueue, Edges.reaches]
  · rename_i ty rest hqueue
    split_ifs at h with htarget
    cases h
    rw [hqueue, Edges.reaches, htarget, Bool.true_or]

/-- each round leaves less to do -/
theorem left_of_round (h : s.round edges target = .inl next) : next.left edges < s.left edges := by
  obtain ⟨ty, rest, hqueue, -, ⟨-, rfl⟩ | ⟨hvisited, rfl⟩⟩ := round_cases h
  · simp only [left, hqueue, List.length_cons]
    omega
  · have hused := Edges.length_parents_add_weight_without (edges.unused s.visited) ty
    rw [Edges.parents_of_not_visited hvisited, ← Edges.unused_cons] at hused
    simp only [left, hqueue, List.length_append, List.length_cons]
    omega

/-- **A search comes to its answer** within a round more than there is to do. -/
theorem answer_eq {n : Nat} (h : s.left edges < n) :
    answer? edges target n s = some ((edges.unused s.visited).reaches target s.queue) := by
  induction n generalizing s with
  | zero => omega
  | succ n ih =>
    cases hround : s.round edges target with
    | inr answer => simp only [answer?, hround, reaches_of_answer hround]
    | inl next =>
      have hleft := left_of_round hround
      simp only [answer?, hround, reaches_of_round hround]
      exact ih (by omega)

end Search

/-! ## Assignability -/

namespace Hierarchy

/-- a value-like type, neither an array nor a string, and its registered wrapper -/
structure Wraps (h : Hierarchy) (primitive wrapper : TypeName) (k : Kind) : Prop where
  single : primitive.isArray = false
  kind : Kind.ofName? primitive.name = some k
  noString : k ≠ .string
  registered : ∃ w, h.wrappers k = some w ∧ (w == wrapper) = true

/-- a value of type `source` can be passed where `target` is declared -/
inductive Assignable (h : Hierarchy) (target source : TypeName) : Prop
  | same (equal : (target == source) = true)
  | unboxed {k : Kind} (wraps : h.Wraps target source k)
  | boxed {k : Kind} (wraps : h.Wraps source target k)
  /-- declared edges lead from base to base; the bases of arrays are not value-like -/
  | widened (dimensions : target.dimensions = source.dimensions) (path : h.edges.Path source.base target.base)
      (structured : 0 < target.dimensions → target.base.kind? = none ∧ source.base.kind? = none)

variable {h : Hierarchy} {target source : TypeName}

theorem boxes_iff {primitive wrapper : TypeName} :
    h.boxes primitive wrapper = true ↔ ∃ k, h.Wraps primitive wrapper k := by
  constructor
  · intro hboxes
    unfold boxes at hboxes
    split at hboxes
    · rename_i k hk
      obtain ⟨hnullable, hwrapper⟩ := Bool.and_eq_true_iff.1 hboxes
      obtain ⟨w, hw, hsame⟩ := (Option.any_eq_true _ _).1 hwrapper
      unfold TypeName.kind? at hk
      split_ifs at hk with harray
      refine ⟨k, Bool.eq_false_iff.2 harray, hk, ?_, w, hw, hsame⟩
      rintro rfl
      exact absurd hnullable (by decide)
    · cases hboxes
  · rintro ⟨k, hsingle, hkind, hstring, w, hw, hsame⟩
    have hk : primitive.kind? = some k := by rw [TypeName.kind?, hsingle, if_neg Bool.false_ne_true, hkind]
    have hnullable : k.isNullable = false := beq_eq_false_iff_ne.2 hstring
    simp only [boxes, hk, hnullable, hw, Option.any_some, hsame, Bool.not_false, Bool.and_self]

theorem isSubtype_iff {sup sub : TypeName} : h.isSubtype sup sub = true ↔ h.edges.Path sub sup := by
  rw [isSubtype, Edges.reaches_iff]
  simp only [List.mem_singleton, exists_eq_left]

/-- what is checked after equality and boxing -/
theorem widened_iff (hdimensions : target.dimensions = source.dimensions) :
    (if target.isArray then
        !target.base.isPrimitive && !source.base.isPrimitive && h.isSubtype target.base source.base
      else h.isSubtype target source) = true ↔
    h.edges.Path source.base target.base ∧
      (0 < target.dimensions → target.base.kind? = none ∧ source.base.kind? = none) := by
  by_cases harray : 0 < target.dimensions
  · have hisArray : target.isArray = true := decide_eq_true harray
    simp only [hisArray, if_true, Bool.and_eq_true, Bool.not_eq_true', TypeName.isPrimitive, Option.isSome_eq_false_iff,
      Option.isNone_iff_eq_none, isSubtype_iff, harray, true_imp_iff]
    exact And.comm
  · have hnone : target.dimensions = 0 := by omega
    have hisArray : target.isArray = false := decide_eq_false harray
    -- a type without dimensions is its own base
    have htarget : target.base = target := by rw [TypeName.base, ← hnone]
    have hsource : source.base = source := by rw [TypeName.base, ← hnone, hdimensions]
    simp only [hisArray, Bool.false_eq_true, if_false, isSubtype_iff, htarget, hsource, harray, false_imp_iff, and_true]

/-- **The check answers yes exactly where a type is assignable.** -/
theorem isAssignable_iff : h.isAssignable target source = true ↔ h.Assignable target source := by
  rw [isAssignable, Bool.or_eq_true, Bool.or_eq_true, Bool.or_eq_true, Bool.and_eq_true, boxes_iff, boxes_iff,
    beq_iff_eq (a := target.dimensions)]
  constructor
  · rintro (((hsame | ⟨k, hwraps⟩) | ⟨k, hwraps⟩) | ⟨hdimensions, hrest⟩)
    · exact .same hsame
    · exact .unboxed hwraps
    · exact .boxed hwraps
    · obtain ⟨hpath, hstructured⟩ := (widened_iff hdimensions).1 hrest
      exact .widened hdimensions hpath hstructured
  · intro hassignable
    cases hassignable with
    | same hsame => exact Or.inl (Or.inl (Or.inl hsame))
    | unboxed hwraps => exact Or.inl (Or.inl (Or.inr ⟨_, hwraps⟩))
    | boxed hwraps => exact Or.inl (Or.inr ⟨_, hwraps⟩)
    | widened hdimensions hpath hstructured =>
      exact Or.inr ⟨hdimensions, (widened_iff hdimensions).2 ⟨hpath, hstructured⟩⟩

instance (h : Hierarchy) (target source : TypeName) : Decidable (h.Assignable target source) :=
  decidable_of_iff _ isAssignable_iff

/-- **Assignability is decided.** For every hierarchy and all types the check answers yes if and only if the types are
equal, one boxes the other, or declared edges lead from base to base under the rule for arrays. The search behind it ends
on every graph: it comes to its answer within two rounds more than there are entries and edges. -/
theorem assignability_decided (h : Hierarchy) (target source : TypeName) :
    (h.isAssignable target source = true ↔ h.Assignable target source) ∧
    Search.answer? h.edges target.base (h.edges.weight + 2) ⟨[], [source.base]⟩ =
      some (h.isSubtype target.base source.base) := by
  refine ⟨isAssignable_iff, ?_⟩
  have hleft : Search.left h.edges ⟨[], [source.base]⟩ < h.edges.weight + 2 := by
    rw [Search.left, Edges.unused_nil, List.length_singleton]
    omega
  rw [Search.answer_eq hleft, Edges.unused_nil, isSubtype]

/-- three types in a circle, one of them its own supertype, an edge that is there twice, and boxed integers -/
def circleHierarchy : Hierarchy :=
  { edges :=
      [(⟨"A", "", 0⟩, [⟨"B", "", 0⟩, ⟨"B", "<T>", 0⟩]), (⟨"B", "", 0⟩, [⟨"C", "", 0⟩]),
       (⟨"C", "", 0⟩, [⟨"C", "", 0⟩, ⟨"A", "", 0⟩, ⟨"int", "", 0⟩, ⟨"D", "", 1⟩])]
    wrappers := fun k => if k = .int then some ⟨"Integer", "", 0⟩ else none }

example :
    circleHierarchy.Assignable ⟨"A", "", 2⟩ ⟨"B", "", 2⟩ ∧ circleHierarchy.Assignable ⟨"int", "", 0⟩ ⟨"A", "", 0⟩ ∧
    circleHierarchy.Assignable ⟨"int", "", 0⟩ ⟨"Integer", "", 0⟩ ∧
    ¬ circleHierarchy.Assignable ⟨"int", "", 1⟩ ⟨"A", "", 1⟩ ∧
    ¬ circleHierarchy.Assignable ⟨"D", "", 1⟩ ⟨"A", "", 0⟩ := by
  decide +kernel

end Hierarchy

end TestInputs
