/-
Describing a unit step by step. An analysis declares types and wrapper types one after the other, and may have the edges
of the types recorded again in between. Edges come in from both ends, from a type that names its supertypes and from one
that names its subtypes, so the order of the declarations shows in the entries of the hierarchy and in the texts under
which types are entered. It does not show in anything that is generated.

What a description amounts to is said in three equations: the known types, the wrappers, and the edges, each in terms of
the declared types and wrappers alone. The first two need that no type and no kind is declared twice, since the last
declaration would win. The order of the declarations may also show in the order in which the wrappers are visited; this
makes no difference as long as no type is the wrapper of two kinds.

Results:
- `recorded_declareAll`: the edges of the types are recorded at any time, so that linking changes nothing;
- `types_declareAll`, `wrappers_declareAll`, `leads_declareAll`: what is known after a list of declarations;
- `tuples_visiting`: a unit gives the same tuples however its wrappers are visited, if they are different types;
- `declaration_order_irrelevant`: reordered declarations describe the same unit, as far as assignability, tuples and
  diagnostics go.
-/
import Mathlib.Data.List.Nodup
import TestInputs.Proofs.Agreement
import TestInputs.Proofs.Paths

namespace TestInputs

/-- one step in the description of a unit -/
inductive Declaration where
  | type (info : TypeInfo)
  | wrapper (kind : Kind) (ty : TypeName)
  /-- record the edges of all types so far again -/
  | link

namespace Declaration

/-- the types of declarations in order -/
def typesOf (ds : List Declaration) : List TypeInfo :=
  ds.filterMap fun
    | type info => some info
    | _ => none

/-- the kinds of declarations with their wrapper types in order -/
def wrappersOf (ds : List Declaration) : List (Kind × TypeName) :=
  ds.filterMap fun
    | wrapper k ty => some (k, ty)
    | _ => none

/-- the same types and wrappers are declared, in any order, no type and no kind twice and no wrapper type for two kinds;
edges may be recorded again at any time -/
structure Reordered (ds es : List Declaration) : Prop where
  types : (typesOf ds).Perm (typesOf es)
  wrappers : (wrappersOf ds).Perm (wrappersOf es)
  distinctTypes : (typesOf ds).Pairwise fun a b => (a.ty == b.ty) = false
  distinctKinds : ((wrappersOf ds).map Prod.fst).Nodup
  distinctWrappers : (wrappersOf ds).Pairwise fun a b => (a.2 == b.2) = false

theorem Reordered.distinctWrappers_right {ds es : List Declaration} (h : Reordered ds es) :
    (wrappersOf es).Pairwise fun a b => (a.2 == b.2) = false :=
  (h.wrappers.pairwise_iff fun hab => by rw [BEq.comm]; exact hab).1 h.distinctWrappers

end Declaration

open Declaration (typesOf wrappersOf Reordered)

namespace UnitInfo

def declare (u : UnitInfo) : Declaration → UnitInfo
  | .type info => u.addType info
  | .wrapper k ty => u.addWrapper k ty
  | .link => u.linkTypes

def declareAll (u : UnitInfo) (ds : List Declaration) : UnitInfo := ds.foldl declare u

variable {u : UnitInfo}

/-! ## Recorded edges -/

theorem mem_replaceType {info t : TypeInfo} {ts : List TypeInfo} (h : t ∈ replaceType info ts) : t = info ∨ t ∈ ts := by
  induction ts with
  | nil => exact Or.inl (List.mem_singleton.1 h)
  | cons s ts ih =>
    rw [replaceType] at h
    split_ifs at h
    · rcases List.mem_cons.1 h with rfl | h
      · exact Or.inl rfl
      · exact Or.inr (List.mem_cons_of_mem _ h)
    · rcases List.mem_cons.1 h with rfl | h
      · exact Or.inr List.mem_cons_self
      · rcases ih h with hinfo | hts
        · exact Or.inl hinfo
        · exact Or.inr (List.mem_cons_of_mem _ hts)

theorem recorded_declare (h : u.Recorded) (d : Declaration) : (u.declare d).Recorded := by
  cases d with
  | type info =>
    refine ⟨Hierarchy.keyed_link info h.keyed, ?_⟩
    intro t ht a b hdeclares
    apply (Hierarchy.leads_link_iff info).2
    rcases mem_replaceType ht with rfl | ht
    · exact Or.inr hdeclares
    · exact Or.inl (h.leads t ht a b hdeclares)
  | wrapper k ty => exact ⟨h.keyed, h.leads⟩
  | link =>
    rw [declare, linkTypes_eq h]
    exact h

theorem recorded_declareAll (h : u.Recorded) (ds : List Declaration) : (u.declareAll ds).Recorded := by
  induction ds generalizing u with
  | nil => exact h
  | cons d ds ih => exact ih (recorded_declare h d)

/-! ## What is known after several declarations -/

theorem replaceType_of_new {info : TypeInfo} {ts : List TypeInfo} (h : ∀ t ∈ ts, (t.ty == info.ty) = false) :
    replaceType info ts = ts ++ [info] := by
  induction ts with
  | nil => rfl
  | cons t ts ih =>
    rw [replaceType, h t List.mem_cons_self, ih fun s hs => h s (List.mem_cons_of_mem _ hs)]
    rfl

theorem types_declareAll {ds : List Declaration}
    (h : (u.types ++ typesOf ds).Pairwise fun a b => (a.ty == b.ty) = false) :
    (u.declareAll ds).types = u.types ++ typesOf ds := by
  induction ds generalizing u with
  | nil => exact (List.append_nil _).symm
  | cons d ds ih =>
    cases d with
    | type info =>
      have hsplit : u.types ++ typesOf (.type info :: ds) = (u.types ++ [info]) ++ typesOf ds := by
        rw [List.append_assoc]
        rfl
      have hnew : ∀ t ∈ u.types, (t.ty == info.ty) = false :=
        fun t ht => (List.pairwise_append.1 h).2.2 t ht info List.mem_cons_self
      have htypes : (u.addType info).types = u.types ++ [info] := replaceType_of_new hnew
      rw [hsplit, ← htypes] at h ⊢
      exact ih h
    | wrapper k ty => exact @ih (u.addWrapper k ty) h
    | link => exact @ih u.linkTypes h

/-- enter the wrapper type of a kind -/
def enterWrapper (wrappers : Kind → Option TypeName) (w : Kind × TypeName) : Kind → Option TypeName :=
  fun k => if k = w.1 then some w.2 else wrappers k

theorem wrappers_linkTypes : u.linkTypes.hierarchy.wrappers = u.hierarchy.wrappers :=
  List.foldlRecOn (motive := fun h : Hierarchy => h.wrappers = u.hierarchy.wrappers) u.types _ rfl
    fun _ hh info _ => (Hierarchy.wrappers_link info).trans hh

theorem wrappers_declareAll (ds : List Declaration) :
    (u.declareAll ds).hierarchy.wrappers = (wrappersOf ds).foldl enterWrapper u.hierarchy.wrappers := by
  induction ds generalizing u with
  | nil => rfl
  | cons d ds ih =>
    have hrest : (u.declareAll (d :: ds)).hierarchy.wrappers = _ := @ih (u.declare d)
    rw [hrest]
    cases d with
    | type info => rw [declare, addType, Hierarchy.wrappers_link]; rfl
    | wrapper k ty => rfl
    | link => rw [declare, wrappers_linkTypes]; rfl

/-- whatever is known to wrap a kind was declared to -/
theorem mem_of_enterWrapper {ws : List (Kind × TypeName)} {wrappers : Kind → Option TypeName} {k : Kind} {ty : TypeName}
    (h : ws.foldl enterWrapper wrappers k = some ty) : wrappers k = some ty ∨ (k, ty) ∈ ws := by
  induction ws generalizing wrappers with
  | nil => exact Or.inl h
  | cons w ws ih =>
    rcases ih h with hentered | hmem
    · simp only [enterWrapper] at hentered
      split_ifs at hentered with hkind
      · cases hentered
        rw [hkind]
        exact Or.inr List.mem_cons_self
      · exact Or.inl hentered
    · exact Or.inr (List.mem_cons_of_mem _ hmem)

theorem leads_declareAll (h : u.Recorded) (ds : List Declaration) (a b : TypeName) :
    (u.declareAll ds).hierarchy.edges.Leads a b ↔
      u.hierarchy.edges.Leads a b ∨ ∃ info ∈ typesOf ds, info.Declares a b := by
  induction ds generalizing u with
  | nil => simp [declareAll, typesOf]
  | cons d ds ih =>
    have hrest : (u.declareAll (d :: ds)).hierarchy.edges.Leads a b ↔ _ := ih (recorded_declare h d)
    rw [hrest]
    cases d with
    | type info =>
      have htypes : typesOf (.type info :: ds) = info :: typesOf ds := rfl
      rw [declare, addType, Hierarchy.leads_link_iff, htypes, or_assoc]
      simp only [List.mem_cons, exists_eq_or_imp]
    | wrapper k ty => rfl
    | link => rw [declare, linkTypes_eq h]; rfl

theorem declaring_declareAll (ds : List Declaration) : (u.declareAll ds).declaring = u.declaring := by
  induction ds generalizing u with
  | nil => rfl
  | cons d ds ih =>
    have hrest : (u.declareAll (d :: ds)).declaring = (u.declare d).declaring := @ih (u.declare d)
    rw [hrest]
    cases d <;> rfl

/-! ## Reordered declarations -/

/-- types that are all different are found whatever their order is -/
theorem find_of_perm {ts ss : List TypeInfo} (hperm : ts.Perm ss)
    (hdistinct : ts.Pairwise fun a b => (a.ty == b.ty) = false) (ty : TypeName) :
    ts.find? (fun info => info.ty == ty) = ss.find? fun info => info.ty == ty := by
  cases hs : ss.find? (fun info => info.ty == ty) with
  | none =>
    rw [List.find?_eq_none] at hs ⊢
    intro info hinfo
    exact hs info (hperm.mem_iff.1 hinfo)
  | some info =>
    have hty : (info.ty == ty) = true := List.find?_some (p := fun i : TypeInfo => i.ty == ty) hs
    have hmem : info ∈ ts := hperm.mem_iff.2 (List.mem_of_find?_eq_some hs)
    cases ht : ts.find? (fun info => info.ty == ty) with
    | none => exact absurd hty (List.find?_eq_none.1 ht info hmem)
    | some found =>
      have hfound : (found.ty == ty) = true := List.find?_some (p := fun i : TypeInfo => i.ty == ty) ht
      rw [eq_of_pairwise_beq hdistinct (List.mem_of_find?_eq_some ht) hmem (BEq.trans hfound (BEq.symm hty))]

theorem enterWrapper_comm {x y : Kind × TypeName} (h : x.1 = y.1 → x = y) (wrappers : Kind → Option TypeName) :
    enterWrapper (enterWrapper wrappers x) y = enterWrapper (enterWrapper wrappers y) x := by
  by_cases hkind : x.1 = y.1
  · rw [h hkind]
  · funext k
    by_cases hx : k = x.1
    · simp [enterWrapper, hx, hkind]
    · simp [enterWrapper, hx]

/-- a unit of which the declaring type and the operations are known -/
def described (declaring : TypeName) (operations : List Operation) (ds : List Declaration) : UnitInfo :=
  declareAll { declaring, operations } ds

variable {declaring : TypeName} {operations : List Operation} {ds es : List Declaration}

theorem recorded_start : Recorded { declaring, operations } where
  keyed := List.Pairwise.nil
  leads := fun _ hinfo => absurd hinfo List.not_mem_nil

theorem recorded_described : (described declaring operations ds).Recorded :=
  recorded_declareAll recorded_start ds

theorem types_described (h : (typesOf ds).Pairwise fun a b => (a.ty == b.ty) = false) :
    (described declaring operations ds).types = typesOf ds :=
  types_declareAll h

theorem wrappers_of_reordered (h : Reordered ds es) :
    (described declaring operations ds).hierarchy.wrappers =
      (described declaring operations es).hierarchy.wrappers := by
  rw [described, wrappers_declareAll, described, wrappers_declareAll]
  refine h.wrappers.foldl_eq' ?_ _
  intro x hx y hy wrappers
  exact enterWrapper_comm (fun hkind => List.inj_on_of_nodup_map h.distinctKinds hx hy hkind) wrappers

theorem distinctWrappers_described (h : (wrappersOf ds).Pairwise fun a b => (a.2 == b.2) = false) :
    (described declaring operations ds).hierarchy.DistinctWrappers := by
  have hdeclared : ∀ k ty, ((described declaring operations ds).hierarchy.wrappers k).any (· == ty) = true →
      ∃ w ∈ wrappersOf ds, w.1 = k ∧ (w.2 == ty) = true := by
    intro k ty hwraps
    obtain ⟨w, hw, hty⟩ := (Option.any_eq_true _ _).1 hwraps
    rw [described, wrappers_declareAll] at hw
    rcases mem_of_enterWrapper hw with hstart | hmem
    · cases hstart
    · exact ⟨(k, w), hmem, rfl, hty⟩
  intro j k ty hj hk
  obtain ⟨v, hv, rfl, hvty⟩ := hdeclared j ty hj
  obtain ⟨w, hw, rfl, hwty⟩ := hdeclared k ty hk
  rw [eq_of_pairwise_beq h hv hw (BEq.trans hvty (BEq.symm hwty))]

theorem leads_of_reordered (h : Reordered ds es) (a b : TypeName) :
    (described declaring operations ds).hierarchy.edges.Leads a b ↔
      (described declaring operations es).hierarchy.edges.Leads a b := by
  rw [described, leads_declareAll recorded_start, described, leads_declareAll recorded_start]
  simp only [h.types.mem_iff]

theorem isAssignable_of_reordered (h : Reordered ds es) (target source : TypeName) :
    (described declaring operations ds).hierarchy.isAssignable target source =
      (described declaring operations es).hierarchy.isAssignable target source :=
  Hierarchy.isAssignable_of_sameEdges (leads_of_reordered h) (wrappers_of_reordered h) target source

end UnitInfo

namespace Resolver

open UnitInfo (described)

variable {declaring : TypeName} {operations : List Operation} {ds es : List Declaration}

/-- resolvers for reordered declarations see the same unit -/
theorem sameView_of_reordered (h : Reordered ds es) (lookup : Lookup) (config : Config) :
    SameView (make lookup (described declaring operations ds) config)
      (make lookup (described declaring operations es) config) := by
  have hdistinct : (typesOf es).Pairwise fun a b => (a.ty == b.ty) = false :=
    (h.types.pairwise_iff fun hab => by rw [BEq.comm]; exact hab).1 h.distinctTypes
  have hds : (described declaring operations ds).types = typesOf ds := UnitInfo.types_described h.distinctTypes
  have hes : (described declaring operations es).types = typesOf es := UnitInfo.types_described hdistinct
  rw [make, make, UnitInfo.linkTypes_eq UnitInfo.recorded_described, UnitInfo.linkTypes_eq UnitInfo.recorded_described]
  constructor
  · rfl
  · exact (UnitInfo.declaring_declareAll ds).trans (UnitInfo.declaring_declareAll es).symm
  · simp only [hds, hes]
    exact h.types
  · intro ty
    simp only [UnitInfo.typeInfo?, hds, hes]
    exact UnitInfo.find_of_perm h.types h.distinctTypes ty
  · exact Hierarchy.unboxed_of_sameWrappers (UnitInfo.wrappers_of_reordered h)
      (UnitInfo.distinctWrappers_described h.distinctWrappers_right)
  · exact UnitInfo.isAssignable_of_reordered h

/-! ## The order of visits -/

/-- linking does not look at the order of visits -/
theorem linkTypes_visiting (u : UnitInfo) (visits : Visits) :
    (u.visiting visits).linkTypes = u.linkTypes.visiting visits := by
  have hlink : ∀ (h : Hierarchy) (info : TypeInfo), (h.visiting visits).link info = (h.link info).visiting visits := by
    intro h info
    rw [Hierarchy.link_eq_record, Hierarchy.link_eq_record]
    exact List.foldl_hom (fun g : Hierarchy => g.visiting visits) fun _ _ => rfl
  have hfold : u.types.foldl Hierarchy.link (u.hierarchy.visiting visits) =
      (u.types.foldl Hierarchy.link u.hierarchy).visiting visits :=
    List.foldl_hom (fun g : Hierarchy => g.visiting visits) hlink
  exact congrArg (fun hierarchy => { u with hierarchy }) hfold

theorem sameView_visiting {u : UnitInfo} (h : u.hierarchy.DistinctWrappers) (visits : Visits) (lookup : Lookup)
    (config : Config) : SameView (make lookup (u.visiting visits) config) (make lookup u config) := by
  have hdistinct : u.linkTypes.hierarchy.DistinctWrappers := by
    rw [Hierarchy.DistinctWrappers, UnitInfo.wrappers_linkTypes]
    exact h
  rw [make, linkTypes_visiting]
  exact ⟨rfl, rfl, .refl _, fun _ => rfl, Hierarchy.unboxed_of_sameWrappers rfl hdistinct, fun _ _ => rfl⟩

/-- **The order of visits does not show in the tuples**, as long as no type is the wrapper of two kinds. -/
theorem tuples_visiting {u : UnitInfo} (h : u.hierarchy.DistinctWrappers) (visits : Visits) (lookup : Lookup)
    (config : Config) (op : Operation) :
    (make lookup (u.visiting visits) config).tuples op = (make lookup u config).tuples op :=
  tuples_of_sameView (sameView_visiting h visits lookup config) rfl op

theorem allTuples_visiting {u : UnitInfo} (h : u.hierarchy.DistinctWrappers) (visits : Visits) (lookup : Lookup)
    (config : Config) : (make lookup (u.visiting visits) config).allTuples = (make lookup u config).allTuples := by
  have hoperations :
      (make lookup (u.visiting visits) config).unit.operations = (make lookup u config).unit.operations := rfl
  rw [allTuples, allTuples, hoperations, funext (tuples_visiting h visits lookup config)]

/-- **The order of declarations does not matter.** Recording the edges of a unit again never changes anything. When
types and wrappers are declared in two orders, no type and no kind twice and no wrapper type for two kinds, and edges
are recorded again at any time, then the same types are assignable, and with any registered strategies and settings
every operation has the same tuples in the same order and the same diagnostics, in whatever orders the wrappers are
visited. -/
theorem declaration_order_irrelevant (declaring : TypeName) (operations : List Operation) :
    (∀ ds, (described declaring operations ds).linkTypes = described declaring operations ds) ∧
    ∀ ds es, Reordered ds es →
      (∀ target source, (described declaring operations ds).hierarchy.isAssignable target source =
        (described declaring operations es).hierarchy.isAssignable target source) ∧
      ∀ visits visits' lookup config op,
        (make lookup ((described declaring operations ds).visiting visits) config).tuples op =
          (make lookup ((described declaring operations es).visiting visits') config).tuples op := by
  constructor
  · intro ds
    exact UnitInfo.linkTypes_eq UnitInfo.recorded_described
  · intro ds es h
    refine ⟨UnitInfo.isAssignable_of_reordered h, ?_⟩
    intro visits visits' lookup config op
    have hds : (described declaring operations ds).hierarchy.DistinctWrappers :=
      UnitInfo.distinctWrappers_described h.distinctWrappers
    have hes : (described declaring operations es).hierarchy.DistinctWrappers :=
      UnitInfo.distinctWrappers_described h.distinctWrappers_right
    calc (make lookup ((described declaring operations ds).visiting visits) config).tuples op
        = (make lookup (described declaring operations ds) config).tuples op :=
          tuples_visiting hds visits lookup config op
      _ = (make lookup (described declaring operations es) config).tuples op :=
        tuples_of_sameView (sameView_of_reordered h lookup config) rfl op
      _ = (make lookup ((described declaring operations es).visiting visits') config).tuples op :=
        (tuples_visiting hes visits' lookup config op).symm

/-! Pets that are declared before dogs and after them; each type names the other, under different texts. -/

def petType : TypeInfo :=
  { ty := ⟨"Pet", "<T>", 0⟩, isAbstract := true, subtypes := [⟨"Dog", "", 0⟩, ⟨"Puppy", "", 0⟩] }

def dogType : TypeInfo :=
  { ty := ⟨"Dog", "", 0⟩, constructors := [⟨[], none⟩, ⟨[⟨"Integer", "", 0⟩, ⟨"Pet", "", 0⟩], none⟩]
    supertypes := [⟨"Pet", "<Dog>", 0⟩] }

def petsFirst : List Declaration :=
  [.type petType, .wrapper .int ⟨"Integer", "", 0⟩, .link, .type dogType, .wrapper .string ⟨"Text", "", 0⟩]

def dogsFirst : List Declaration :=
  [.wrapper .string ⟨"Text", "", 0⟩, .type dogType, .link, .type petType, .wrapper .int ⟨"Integer", "", 0⟩, .link]

def walkOperation : Operation :=
  { id := "walk", name := "walk", kind := .method, parameters := [⟨"walk", ⟨"Pet", "", 0⟩, 0, "p0"⟩] }

theorem reordered_pets : Reordered petsFirst dogsFirst where
  types := .swap _ _ _
  wrappers := .swap _ _ _
  distinctTypes := by decide
  distinctKinds := by decide
  distinctWrappers := by decide

/-- strings first, and the other kinds from the last to the first -/
def backwards : Visits := ⟨Kind.all.reverse, fun k => by cases k <;> decide⟩

theorem pets_in_any_order :
    Reordered petsFirst dogsFirst ∧
    ((described ⟨"Dog", "", 0⟩ [] petsFirst).hierarchy.isAssignable ⟨"Pet", "", 0⟩ ⟨"Dog", "", 0⟩ = true ∧
      (described ⟨"Dog", "", 0⟩ [] dogsFirst).hierarchy.isAssignable ⟨"Pet", "", 0⟩ ⟨"Dog", "", 0⟩ = true) ∧
    ((make (fun _ _ => none) (described ⟨"Dog", "", 0⟩ [] petsFirst) {}).tuples walkOperation).toOption.map
      (fun t => t.tuples.toList.length) = some 6 ∧
    (make (fun _ _ => none) ((described ⟨"Dog", "", 0⟩ [] petsFirst).visiting .inOrder) {}).tuples walkOperation =
      (make (fun _ _ => none) ((described ⟨"Dog", "", 0⟩ [] dogsFirst).visiting backwards) {}).tuples walkOperation := by
  have hassignable : (described ⟨"Dog", "", 0⟩ [] petsFirst).hierarchy.isAssignable ⟨"Pet", "", 0⟩ ⟨"Dog", "", 0⟩ =
      true := by decide +kernel
  obtain ⟨hsame, htuples⟩ := (declaration_order_irrelevant ⟨"Dog", "", 0⟩ []).2 petsFirst dogsFirst reordered_pets
  refine ⟨reordered_pets, ⟨hassignable, ?_⟩, by decide +kernel, htuples _ _ _ _ _⟩
  rw [← hsame]
  exact hassignable

end Resolver

end TestInputs
