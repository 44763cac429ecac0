/-
What becomes of arguments that are given to a type. The constructors that accept them are counted first, whatever values
the arguments have; only the sole match is looked at further, first for arguments without values, then for a hook that
rejects the first tuple. What is left are the instances, one for each reading of the odometer over the arguments that is
not rejected, the first one included.

`Outcome` says this without the procedure: when an argument can be passed, which constructors match, and for each of the
five ways to end its condition and its result in full. The conditions exclude each other, so the procedure ends in the
one way whose condition holds.

Results:
- `accepts_iff`: what the procedure checks of a constructor is that its parameters and the arguments fit one by one;
- `accepting_eq_singleton_iff`: one constructor is left to the procedure when it is the sole match;
- `instancesOf_noArguments`, `instancesOf_failed`, `instancesOf_accepted`: the three ways to end for a sole match;
- `instantiate_ends_in_its_outcome`: the procedure gives a result if and only if it is the outcome.
-/
import TestInputs.Proofs.Readings

namespace TestInputs

/-! ## Matching -/

/-- an argument can be passed for a parameter: null where the parameter may be null, any other value by its type at run
time, generated values by the type that is declared for them -/
inductive Argument.PassesFor (h : Hierarchy) (parameter : TypeName) : Argument → Prop
  | null (nullable : parameter.isNullable = true) : PassesFor h parameter (.concrete .null)
  | value {v : Value} {ty : TypeName} (type : v.type? = some ty) (assignable : h.isAssignable parameter ty = true) :
      PassesFor h parameter (.concrete v)
  | generated {ty : TypeName} {values : Dimension Value} (assignable : h.isAssignable parameter ty = true) :
      PassesFor h parameter (.generated ty values)

theorem Value.eq_null_of_type_none {v : Value} (h : v.type? = none) : v = .null := by
  cases v with
  | null => rfl
  | _ => cases h

theorem Argument.fits_iff {h : Hierarchy} {parameter : TypeName} {a : Argument} :
    a.fits h parameter = true ↔ a.PassesFor h parameter := by
  constructor
  · intro hfits
    cases a with
    | concrete v =>
      cases htype : v.type? with
      | none =>
        obtain rfl := Value.eq_null_of_type_none htype
        exact .null hfits
      | some ty =>
        simp only [fits, type?, htype] at hfits
        exact .value htype hfits
    | generated ty values => exact .generated hfits
  · intro hpasses
    cases hpasses with
    | null hnullable => exact hnullable
    | value htype hassignable => simpa only [fits, type?, htype] using hassignable
    | generated hassignable => exact hassignable

/-- there is one argument for each parameter, and it can be passed for it -/
def Constructor.Matches (h : Hierarchy) (arguments : List Argument) (c : Constructor) : Prop :=
  List.Forall₂ (Argument.PassesFor h) c.parameters arguments

theorem Constructor.accepts_iff {h : Hierarchy} {arguments : List Argument} {c : Constructor} :
    c.accepts h arguments = true ↔ c.Matches h arguments := by
  rw [accepts, arity, Matches, List.forall₂_iff_zip, Bool.and_eq_true, beq_iff_eq, List.all_eq_true]
  constructor
  · rintro ⟨hlength, hall⟩
    exact ⟨hlength, fun {p a} hpa => Argument.fits_iff.1 (hall (p, a) hpa)⟩
  · rintro ⟨hlength, hall⟩
    exact ⟨hlength, fun pa hpa => Argument.fits_iff.2 (hall hpa)⟩

instance (h : Hierarchy) (arguments : List Argument) (c : Constructor) : Decidable (c.Matches h arguments) :=
  decidable_of_iff _ Constructor.accepts_iff

namespace TypeInfo

variable {info : TypeInfo} {h : Hierarchy} {arguments : List Argument} {c : Constructor} {i : Nat}

/-- the number of constructors that match -/
def matchCount (info : TypeInfo) (h : Hierarchy) (arguments : List Argument) : Nat :=
  info.constructors.countP fun c => c.Matches h arguments

/-- the constructor with the given index matches, and no other one does -/
structure SoleMatch (info : TypeInfo) (h : Hierarchy) (arguments : List Argument) (c : Constructor) (i : Nat) :
    Prop where
  declared : info.constructors[i]? = some c
  accepts : c.Matches h arguments
  sole : ∀ j d, info.constructors[j]? = some d → d.Matches h arguments → j = i

theorem mem_accepting {d : Constructor} {j : Nat} :
    (d, j) ∈ info.accepting h arguments ↔ info.constructors[j]? = some d ∧ d.Matches h arguments := by
  rw [accepting, List.mem_filter, List.mem_zipIdx_iff_getElem?, Constructor.accepts_iff]

theorem matchCount_eq : info.matchCount h arguments = (info.accepting h arguments).length := by
  rw [length_accepting]
  exact List.countP_congr fun c _ => by rw [decide_eq_true_iff, Constructor.accepts_iff]

/-- no constructor is listed twice -/
theorem nodup_accepting : ((info.accepting h arguments).map Prod.snd).Nodup := by
  have hsublist : ((info.accepting h arguments).map Prod.snd).Sublist (info.constructors.zipIdx.map Prod.snd) :=
    List.filter_sublist.map Prod.snd
  rw [List.zipIdx_map_snd] at hsublist
  exact List.Pairwise.sublist hsublist (List.nodup_range' 1)

theorem accepting_eq_singleton_iff : info.accepting h arguments = [(c, i)] ↔ info.SoleMatch h arguments c i := by
  constructor
  · intro hone
    obtain ⟨hdeclared, hmatches⟩ := mem_accepting.1 (hone ▸ List.mem_singleton_self (c, i))
    refine ⟨hdeclared, hmatches, fun j d hd hmatches => ?_⟩
    have hmem := mem_accepting.2 ⟨hd, hmatches⟩
    rw [hone, List.mem_singleton] at hmem
    exact congrArg Prod.snd hmem
  · intro hsole
    have honly : ∀ x ∈ info.accepting h arguments, x.2 = i := by
      intro x hx
      obtain ⟨hdeclared, hmatches⟩ := mem_accepting.1 hx
      exact hsole.sole x.2 x.1 hdeclared hmatches
    have hmem := mem_accepting.2 ⟨hsole.declared, hsole.accepts⟩
    have hnodup : ((info.accepting h arguments).map Prod.snd).Nodup := nodup_accepting
    cases hlist : info.accepting h arguments with
    | nil =>
      rw [hlist] at hmem
      cases hmem
    | cons x rest =>
      rw [hlist] at hmem honly hnodup
      have hrest : rest = [] := by
        cases rest with
        | nil => rfl
        | cons y rest =>
          have hxy : x.2 = y.2 := (honly x (by simp)).trans (honly y (by simp)).symm
          simp [hxy] at hnodup
      rw [hrest, List.mem_singleton] at hmem
      rw [hrest, hmem]

/-! ## The sole match -/

/-- the tuple of the first values of the arguments -/
def FirstTuple (arguments : List Argument) (first : List Value) : Prop :=
  List.Forall₂ (fun a v => a.dimension.first.toList.head? = some v) arguments first

/-- the tuples of arguments in the order of an odometer -/
def tuplesOver (arguments : List Argument) : List (List Value) :=
  readingsOf (arguments.map fun a => a.dimension.lists)

/-- the instances that a constructor makes from tuples, in their order; tuples that it rejects are passed over -/
def builds (info : TypeInfo) (c : Constructor) (i : Nat) (tuples : List (List Value)) : List Value :=
  tuples.filterMap fun tuple => (c.build info.ty i tuple).toOption

end TypeInfo

namespace Sequence

theorem eq_nil_of_toList {α : Type} {s : Sequence α} (hc : s.Complete) (h : s.toList = []) : s = .nil := by
  cases s with
  | nil => rfl
  | cut => exact hc.elim
  | cons a t => cases h

/-- complete sequences are equal when their lists are -/
theorem eq_of_toList {α : Type} {s t : Sequence α} (hs : s.Complete) (ht : t.Complete) (h : s.toList = t.toList) :
    s = t := by
  induction s generalizing t with
  | nil => exact (eq_nil_of_toList ht h.symm).symm
  | cut => exact hs.elim
  | cons a s ih =>
    cases t with
    | nil => cases h
    | cut => exact ht.elim
    | cons b t =>
      obtain ⟨rfl, hrest⟩ := List.cons.inj h
      congr 1
      funext _
      exact ih () hs ht hrest

end Sequence

namespace TypeInfo

variable {info : TypeInfo} {h : Hierarchy} {arguments : List Argument} {c : Constructor} {i : Nat}

/-- the product over finite arguments, as a sequence and as a list -/
theorem product_arguments (hfinite : ∀ a ∈ arguments, a.dimension.Finite) :
    (Sequence.product (arguments.map Argument.dimension)).Complete ∧
      (Sequence.product (arguments.map Argument.dimension)).toList = tuplesOver arguments := by
  have hdimensions : ∀ d ∈ arguments.map Argument.dimension, d.Finite := List.forall_mem_map.2 hfinite
  refine ⟨?_, ?_⟩
  · exact Sequence.complete_product_of_complete (fun d hd => (hdimensions d hd).1) fun d hd => (hdimensions d hd).2
  · rw [Sequence.toList_product_of_finite hdimensions, tuplesOver, List.map_map]
    rfl

theorem head?_tuplesOver {first : List Value} (hfirst : FirstTuple arguments first) :
    (tuplesOver arguments).head? = some first := by
  have hheads : List.Forall₂ (fun (d : List Value × List Value) v => d.1.head? = some v)
      (arguments.map fun a => a.dimension.lists) first := List.forall₂_map_left_iff.2 hfirst
  have hne : ∀ d ∈ arguments.map (fun a => a.dimension.lists), d.1 ≠ [] := by
    intro d hd hnil
    obtain ⟨v, -, hv⟩ := exists_partner hheads hd
    rw [hnil] at hv
    cases hv
  rw [tuplesOver, readingsOf_eq_carried hne, head?_carried hheads]

theorem instancesOf_noArguments (hfinite : ∀ a ∈ arguments, a.dimension.Finite)
    (hempty : ∃ a ∈ arguments, a.dimension.first.toList = []) :
    info.instancesOf c i arguments = .error (.noArguments info.ty i) := by
  obtain ⟨hcomplete, hlist⟩ := product_arguments hfinite
  obtain ⟨a, ha, hnil⟩ := hempty
  have hnone : tuplesOver arguments = [] := readingsOf_eq_nil ⟨_, List.mem_map_of_mem ha, hnil⟩
  rw [hnone] at hlist
  simp only [instancesOf, Sequence.eq_nil_of_toList hcomplete hlist]

/-- with a first tuple the product starts there -/
theorem product_of_first (hfinite : ∀ a ∈ arguments, a.dimension.Finite) {first : List Value}
    (hfirst : FirstTuple arguments first) :
    ∃ rest, Sequence.product (arguments.map Argument.dimension) = .cons first rest := by
  obtain ⟨hcomplete, hlist⟩ := product_arguments hfinite
  have hhead := head?_tuplesOver hfirst
  rw [← hlist] at hhead
  generalize Sequence.product _ = tuples at hcomplete hhead
  cases tuples with
  | nil => cases hhead
  | cut => exact hcomplete.elim
  | cons t rest =>
    obtain rfl : t = first := Option.some.inj hhead
    exact ⟨rest, rfl⟩

theorem instancesOf_failed (hfinite : ∀ a ∈ arguments, a.dimension.Finite) {first : List Value}
    (hfirst : FirstTuple arguments first) {failure : ConstructionFailure}
    (hrejected : c.build info.ty i first = .error failure) :
    info.instancesOf c i arguments = .error (.failed info.ty i failure) := by
  obtain ⟨rest, hproduct⟩ := product_of_first hfinite hfirst
  simp only [instancesOf, hproduct, hrejected]

theorem instancesOf_accepted (hfinite : ∀ a ∈ arguments, a.dimension.Finite) {first : List Value}
    (hfirst : FirstTuple arguments first) {v : Value} (haccepted : c.build info.ty i first = .ok v) :
    ∃ instances : Sequence Value, info.instancesOf c i arguments = .ok ⟨i, instances⟩ ∧ instances.Complete ∧
      instances.toList = info.builds c i (tuplesOver arguments) := by
  obtain ⟨hcomplete, hlist⟩ := product_arguments hfinite
  obtain ⟨rest, hproduct⟩ := product_of_first hfinite hfirst
  refine ⟨(Sequence.product (arguments.map Argument.dimension)).filterMap
    fun tuple => (c.build info.ty i tuple).toOption, ?_, ?_, ?_⟩
  · simp only [instancesOf, hproduct, haccepted]
  · rw [Sequence.complete_filterMap]
    exact hcomplete
  · rw [Sequence.toList_filterMap, hlist, builds]

/-- arguments have a first tuple unless one of them has no values -/
theorem exists_firstTuple (h : ¬ ∃ a ∈ arguments, a.dimension.first.toList = []) :
    ∃ first, FirstTuple arguments first := by
  induction arguments with
  | nil => exact ⟨[], .nil⟩
  | cons a arguments ih =>
    obtain ⟨first, hfirst⟩ := ih fun ⟨b, hb, hnil⟩ => h ⟨b, List.mem_cons_of_mem _ hb, hnil⟩
    cases hlist : a.dimension.first.toList with
    | nil => exact absurd ⟨a, List.mem_cons_self, hlist⟩ h
    | cons v vs => exact ⟨v :: first, .cons (by rw [hlist]; rfl) hfirst⟩

/-! ## Outcomes -/

/-- how an attempt to instantiate a type from arguments ends -/
inductive Outcome (info : TypeInfo) (h : Hierarchy) (arguments : List Argument) :
    Except InstantiationError Instantiation → Prop
  /-- two or more constructors match, and their number is told -/
  | ambiguous (several : 2 ≤ info.matchCount h arguments) :
      Outcome info h arguments
        (.error (.ambiguous info.ty (info.matchCount h arguments) (Argument.describe arguments)))
  | noMatch (noOne : ∀ c ∈ info.constructors, ¬ c.Matches h arguments) :
      Outcome info h arguments (.error (.noMatch info.ty (Argument.describe arguments)))
  /-- some argument of the sole match starts without values -/
  | noArguments {c : Constructor} {i : Nat} (sole : info.SoleMatch h arguments c i)
      (empty : ∃ a ∈ arguments, a.dimension.first.toList = []) :
      Outcome info h arguments (.error (.noArguments info.ty i))
  /-- the hook of the sole match rejects the first tuple -/
  | failed {c : Constructor} {i : Nat} {first : List Value} {hook : Hook} {failure : ConstructionFailure}
      (sole : info.SoleMatch h arguments c i) (tuple : FirstTuple arguments first) (attached : c.hook = some hook)
      (rejects : hook first = .error failure) : Outcome info h arguments (.error (.failed info.ty i failure))
  /-- the sole match has no hook, or one that accepts the first tuple: there is one instance for every tuple that is
  not rejected -/
  | instances {c : Constructor} {i : Nat} {first : List Value} {values : Sequence Value}
      (sole : info.SoleMatch h arguments c i) (tuple : FirstTuple arguments first)
      (accepts : ∀ hook, c.hook = some hook → ∃ v, hook first = .ok v) (complete : values.Complete)
      (list : values.toList = info.builds c i (tuplesOver arguments)) : Outcome info h arguments (.ok ⟨i, values⟩)

/-- a call is rejected by the hook and by nothing else -/
theorem build_eq_error_iff {ty : TypeName} {tuple : List Value} {failure : ConstructionFailure} :
    c.build ty i tuple = .error failure ↔ ∃ hook, c.hook = some hook ∧ hook tuple = .error failure := by
  unfold Constructor.build
  cases c.hook with
  | none => simp
  | some hook => simp

theorem exists_build_iff {ty : TypeName} {tuple : List Value} :
    (∃ v, c.build ty i tuple = .ok v) ↔ ∀ hook, c.hook = some hook → ∃ v, hook tuple = .ok v := by
  unfold Constructor.build
  cases c.hook with
  | none => simp
  | some hook => simp

/-- whatever the procedure ends in is an outcome -/
theorem outcome_instantiate (hfinite : ∀ a ∈ arguments, a.dimension.Finite) :
    info.Outcome h arguments (info.instantiate h arguments) := by
  unfold instantiate
  split
  · rename_i hnone
    refine .noMatch fun c hc hmatches => ?_
    obtain ⟨j, hj⟩ := List.mem_iff_getElem?.1 hc
    have hmem := mem_accepting.2 ⟨hj, hmatches⟩
    rw [hnone] at hmem
    cases hmem
  · rename_i c i hone
    have hsole := accepting_eq_singleton_iff.1 hone
    by_cases hempty : ∃ a ∈ arguments, a.dimension.first.toList = []
    · rw [instancesOf_noArguments hfinite hempty]
      exact .noArguments hsole hempty
    · obtain ⟨first, hfirst⟩ := exists_firstTuple hempty
      cases hbuild : c.build info.ty i first with
      | error failure =>
        obtain ⟨hook, hattached, hrejects⟩ := build_eq_error_iff.1 hbuild
        rw [instancesOf_failed hfinite hfirst hbuild]
        exact .failed hsole hfirst hattached hrejects
      | ok v =>
        obtain ⟨values, hvalues, hcomplete, hlist⟩ := instancesOf_accepted hfinite hfirst hbuild
        rw [hvalues]
        exact .instances hsole hfirst (exists_build_iff.1 ⟨v, hbuild⟩) hcomplete hlist
  · rename_i hnone hone
    rw [← matchCount_eq]
    apply Outcome.ambiguous
    rw [matchCount_eq]
    cases hlist : info.accepting h arguments with
    | nil => exact absurd hlist hnone
    | cons x rest =>
      cases rest with
      | nil => exact absurd hlist (hone x.1 x.2)
      | cons y rest => simp

theorem instantiate_of_sole (hsole : info.SoleMatch h arguments c i) :
    info.instantiate h arguments = info.instancesOf c i arguments := by
  simp only [instantiate, accepting_eq_singleton_iff.2 hsole]

/-- **Instantiation ends in its outcome.** For every type, hierarchy and list of finite arguments, fixed values and
generated ones in any mix, the procedure gives a result if and only if it is the outcome. -/
theorem instantiate_ends_in_its_outcome (info : TypeInfo) (h : Hierarchy) (arguments : List Argument)
    (hfinite : ∀ a ∈ arguments, a.dimension.Finite) (result : Except InstantiationError Instantiation) :
    info.instantiate h arguments = result ↔ info.Outcome h arguments result := by
  constructor
  · rintro rfl
    exact outcome_instantiate hfinite
  · intro houtcome
    cases houtcome with
    | ambiguous hseveral =>
      rw [matchCount_eq] at hseveral ⊢
      unfold instantiate
      split
      · rename_i hnone
        simp [hnone] at hseveral
      · rename_i hone
        simp [hone] at hseveral
      · rfl
    | noMatch hnone =>
      have hnil : info.accepting h arguments = [] := by
        refine List.eq_nil_iff_forall_not_mem.2 fun x hx => ?_
        obtain ⟨hdeclared, hmatches⟩ := mem_accepting.1 hx
        exact hnone x.1 (List.mem_of_getElem? hdeclared) hmatches
      simp only [instantiate, hnil]
    | noArguments hsole hempty => rw [instantiate_of_sole hsole, instancesOf_noArguments hfinite hempty]
    | failed hsole hfirst hattached hrejects =>
      rw [instantiate_of_sole hsole,
        instancesOf_failed hfinite hfirst (build_eq_error_iff.2 ⟨_, hattached, hrejects⟩)]
    | instances hsole hfirst haccepts hcomplete hlist =>
      obtain ⟨v, hbuild⟩ := exists_build_iff.2 haccepts
      obtain ⟨values, hvalues, hcomplete', hlist'⟩ := instancesOf_accepted hfinite hfirst hbuild
      rw [instantiate_of_sole hsole, hvalues, Sequence.eq_of_toList hcomplete' hcomplete (hlist'.trans hlist.symm)]

/-! Intervals: the second constructor wants its bounds in order. The upper bounds restart with others than they started
with, and one tuple on the way is rejected. -/

def boundsInOrder : Hook
  | [.int low, .int high] =>
    if low ≤ high then .ok (.object ⟨"Interval", "", 0⟩ 1 [.int low, .int high]) else .error ⟨"bounds"⟩
  | _ => .error ⟨"arguments"⟩

def intervalType : TypeInfo :=
  { ty := ⟨"Interval", "", 0⟩
    constructors :=
      [⟨[⟨"String", "", 0⟩], none⟩, ⟨[⟨"int", "", 0⟩, ⟨"int", "", 0⟩], some boundsInOrder⟩,
       ⟨[⟨"long", "", 0⟩, ⟨"int", "", 0⟩], none⟩, ⟨[⟨"Interval", "", 0⟩], none⟩] }

def intervalBounds : List Argument :=
  [.generated ⟨"int", "", 0⟩ ⟨.ofList [.int 1, .int 5], fun _ => .nil⟩,
   .generated ⟨"int", "", 0⟩ ⟨.ofList [.int 2], fun _ => .ofList [.int 3, .int 8]⟩]

theorem finite_intervalBounds : ∀ a ∈ intervalBounds, a.dimension.Finite := by
  intro a ha
  simp only [intervalBounds, List.mem_cons, List.not_mem_nil, or_false] at ha
  rcases ha with rfl | rfl
  · exact ⟨Sequence.complete_ofList _, Sequence.complete_nil⟩
  · exact ⟨Sequence.complete_ofList _, Sequence.complete_ofList _⟩

theorem soleMatch_intervalBounds :
    intervalType.SoleMatch .empty intervalBounds ⟨[⟨"int", "", 0⟩, ⟨"int", "", 0⟩], some boundsInOrder⟩ 1 := by
  refine ⟨rfl, by decide +kernel, fun j d hd hmatches => ?_⟩
  have hindices : ((intervalType.accepting .empty intervalBounds).map Prod.snd) = [1] := by decide +kernel
  have hmem := List.mem_map_of_mem (f := Prod.snd) (mem_accepting.2 ⟨hd, hmatches⟩)
  rw [hindices] at hmem
  exact List.mem_singleton.1 hmem

theorem intervals_end_in_their_outcome :
    (∀ a ∈ intervalBounds, a.dimension.Finite) ∧
    intervalType.instantiate .empty intervalBounds =
      .ok ⟨1, .ofList
        [.object ⟨"Interval", "", 0⟩ 1 [.int 1, .int 2], .object ⟨"Interval", "", 0⟩ 1 [.int 5, .int 8]]⟩ ∧
    intervalType.instantiate .empty [.concrete .null] = .error (.ambiguous ⟨"Interval", "", 0⟩ 2 "null") := by
  refine ⟨finite_intervalBounds, ?_, ?_⟩
  · refine (instantiate_ends_in_its_outcome _ _ _ finite_intervalBounds _).2 ?_
    refine .instances soleMatch_intervalBounds (.cons rfl (.cons rfl .nil)) ?_ (Sequence.complete_ofList _) ?_
    · rintro hook ⟨⟩
      exact ⟨_, rfl⟩
    · rw [Sequence.toList_ofList]
      rfl
  · have hfinite : ∀ a ∈ [Argument.concrete .null], a.dimension.Finite := by
      intro a ha
      rw [List.mem_singleton.1 ha]
      exact ⟨trivial, trivial⟩
    have hcount : intervalType.matchCount .empty [.concrete .null] = 2 := by decide +kernel
    have houtcome : intervalType.Outcome .empty [.concrete .null] _ := .ambiguous (Nat.le_of_eq hcount.symm)
    rw [(instantiate_ends_in_its_outcome _ _ _ hfinite _).2 houtcome, hcount]
    rfl

end TypeInfo

end TestInputs
