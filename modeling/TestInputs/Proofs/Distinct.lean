/-
No tuple is generated twice. Values that stand at different places of a list of candidates differ: constants because
each value is listed once, arrays because they differ in length or in an element, objects because they differ in their
type, in their constructor or in an argument. Products and samples keep this, so it passes from the values that a level
is made from to the values of the level, and from the positions of an operation to its tuples.

Equality here is that of values: types without their generic parts, numbers numerically. NaN differs from itself, so
equality is not reflexive, but it is symmetric.

Results:
- `distinct_eraseDups`, `distinct_lexicographic`: leaving out what occurred before makes a list distinct, and tuples
  over distinct lists are distinct;
- `distinct_shapeStep`: a level above distinct values has distinct values;
- `distinct_resolveWhere`: the values of every type are distinct;
- `tuples_never_repeat`: the statement for the tuples of an operation.
-/
import TestInputs.Proofs.Listing
import TestInputs.Proofs.Tuples

namespace TestInputs

/-! ## Equality is symmetric -/

theorem Binary.beq_comm {f : Format} (x y : Binary f) : (x == y) = (y == x) := by
  have hbits : (x.bits == y.bits) = (y.bits == x.bits) := BEq.comm
  show x.equal y = y.equal x
  simp only [equal, hbits, Bool.and_comm (!x.isNaN), Bool.and_comm x.isZero]

namespace Value

theorem sameAll_eq_beq (xs ys : List Value) : sameAll xs ys = (xs == ys) := by
  induction xs generalizing ys with
  | nil => cases ys <;> rfl
  | cons x xs ih =>
    cases ys with
    | nil => rfl
    | cons y ys =>
      rw [List.cons_beq_cons, ← ih]
      rfl

theorem array_beq_array (c d : TypeName) (xs ys : List Value) : (array c xs == array d ys) = (c == d && xs == ys) := by
  rw [← sameAll_eq_beq]
  rfl

theorem enum_beq_enum (t u : TypeName) (a b : String) : (enum t a == enum u b) = (t == u && a == b) := rfl

theorem object_beq_object (t u : TypeName) (i j : Nat) (xs ys : List Value) :
    (object t i xs == object u j ys) = (t == u && i == j && xs == ys) := by
  rw [← sameAll_eq_beq]
  rfl

mutual

theorem same_comm (a b : Value) : same a b = same b a := by
  cases a with
  | null => cases b <;> rfl
  | boolean x =>
    cases b with
    | boolean y => exact BEq.comm
    | _ => rfl
  | byte x =>
    cases b with
    | byte y => exact BEq.comm
    | _ => rfl
  | short x =>
    cases b with
    | short y => exact BEq.comm
    | _ => rfl
  | char x =>
    cases b with
    | char y => exact BEq.comm
    | _ => rfl
  | int x =>
    cases b with
    | int y => exact BEq.comm
    | _ => rfl
  | long x =>
    cases b with
    | long y => exact BEq.comm
    | _ => rfl
  | float x =>
    cases b with
    | float y => exact Binary.beq_comm x y
    | _ => rfl
  | double x =>
    cases b with
    | double y => exact Binary.beq_comm x y
    | _ => rfl
  | str x =>
    cases b with
    | str y => exact BEq.comm
    | _ => rfl
  | array c xs =>
    cases b with
    | array d ys => simp only [same, BEq.comm (a := c), sameAll_comm xs ys]
    | _ => rfl
  | enum t x =>
    cases b with
    | enum u y => simp only [same, BEq.comm (a := t), BEq.comm (a := x)]
    | _ => rfl
  | object t i xs =>
    cases b with
    | object u j ys => simp only [same, BEq.comm (a := t), BEq.comm (a := i), sameAll_comm xs ys]
    | _ => rfl

theorem sameAll_comm (xs ys : List Value) : sameAll xs ys = sameAll ys xs := by
  cases xs with
  | nil => cases ys <;> rfl
  | cons x xs =>
    cases ys with
    | nil => rfl
    | cons y ys => simp only [sameAll, same_comm x y, sameAll_comm xs ys]

end

theorem beq_comm (a b : Value) : (a == b) = (b == a) := same_comm a b

end Value

theorem CandidateTuple.beq_comm (a b : CandidateTuple) : (a == b) = (b == a) := by
  have hreceiver : (a.receiver == b.receiver) = (b.receiver == a.receiver) := by
    cases a.receiver with
    | none => cases b.receiver <;> rfl
    | some v =>
      cases b.receiver with
      | none => rfl
      | some w => exact Value.beq_comm v w
  have harguments : (a.arguments == b.arguments) = (b.arguments == a.arguments) := by
    rw [← Value.sameAll_eq_beq, ← Value.sameAll_eq_beq, Value.sameAll_comm]
  show (a.receiver == b.receiver && a.arguments == b.arguments) =
    (b.receiver == a.receiver && b.arguments == a.arguments)
  rw [hreceiver, harguments]

/-! ## Distinct lists -/

section Distinct

variable {α : Type} [BEq α]

/-- no two members are equal -/
def Distinct (l : List α) : Prop := l.Pairwise fun a b => (a == b) = false

theorem Distinct.sublist {l m : List α} (h : Distinct m) (hs : l.Sublist m) : Distinct l := List.Pairwise.sublist hs h

theorem distinct_eraseDups (hcomm : ∀ a b : α, (a == b) = (b == a)) (l : List α) : Distinct l.eraseDups := by
  match l with
  | [] => exact .nil
  | a :: l =>
    rw [List.eraseDups_cons]
    refine .cons (fun b hb => ?_) (distinct_eraseDups hcomm _)
    have hkept := (List.mem_filter.1 (mem_of_mem_eraseDups hb)).2
    rw [hcomm]
    simpa using hkept
termination_by l.length
decreasing_by
  have := List.length_filter_le (fun b => !b == a) l
  simp only [List.length_cons]
  omega

/-- tuples that stand at different places differ where their members come from different places -/
theorem distinct_lexicographic {ls : List (List α)} (h : ∀ l ∈ ls, Distinct l) : Distinct (lexicographic ls) := by
  induction ls with
  | nil => exact List.pairwise_singleton _ _
  | cons xs ls ih =>
    have hrest := ih fun l hl => h l (List.mem_cons_of_mem _ hl)
    have hxs := h xs List.mem_cons_self
    refine List.pairwise_flatMap.2 ⟨fun x _ => ?_, hxs.imp fun {x y} hxy s hs t ht => ?_⟩
    · refine List.pairwise_map.2 (hrest.imp fun {s t} hst => ?_)
      rw [List.cons_beq_cons, hst, Bool.and_false]
    · obtain ⟨s, _, rfl⟩ := List.mem_map.1 hs
      obtain ⟨t, _, rfl⟩ := List.mem_map.1 ht
      rw [List.cons_beq_cons, hxy, Bool.false_and]

theorem beq_false_of_length {s t : List α} (h : s.length ≠ t.length) : (s == t) = false := by
  by_contra hc
  exact h (List.length_eq_of_beq (by simpa using hc))

/-- tuples of several lengths over one list -/
theorem distinct_lengths {xs : List α} (h : Distinct xs) (length count : Nat) :
    Distinct ((List.range' length count).flatMap fun n => lexicographic (List.replicate n xs)) := by
  have hlength : ∀ n, ∀ t ∈ lexicographic (List.replicate n xs), t.length = n := by
    intro n t ht
    rw [(mem_lexicographic.1 ht).length_eq, List.length_replicate]
  refine List.pairwise_flatMap.2 ⟨fun n _ => ?_, ?_⟩
  · refine distinct_lexicographic fun l hl => ?_
    rw [List.eq_of_mem_replicate hl]
    exact h
  · refine (List.pairwise_lt_range' 1).imp fun {m n} hmn s hs t ht => beq_false_of_length ?_
    rw [hlength m s hs, hlength n t ht]
    omega

end Distinct

/-! ## Constants -/

theorem Value.null_beq_of_nonNull {v : Value} (h : v.isNull = false) : (Value.null == v) = false := by
  cases v with
  | null => cases h
  | _ => rfl

namespace Shape

theorem distinct_primitiveValues (k : Kind) (texts : List String) : Distinct (primitiveValues k texts) :=
  distinct_eraseDups Value.beq_comm _

theorem distinct_boxedValues (k : Kind) (texts : List String) : Distinct (boxedValues k texts) := by
  refine .cons (fun v hv => ?_) ((distinct_primitiveValues k texts).sublist List.filter_sublist)
  have hv := (List.mem_filter.1 hv).2
  exact Value.null_beq_of_nonNull (by simpa using hv)

theorem distinct_constants (ty : TypeName) {constants : List String} (h : constants.Nodup) :
    Distinct (constants.map (Value.enum ty)) := by
  refine List.pairwise_map.2 (h.imp fun {a b} hab => ?_)
  rw [Value.enum_beq_enum, beq_false_of_ne hab, Bool.and_false]

end Shape

/-! ## One level -/

namespace Resolver

variable {r : Resolver} {inner : ShapeValues}

/-- the instances of a constructor differ because their arguments do -/
theorem distinct_instancesOver {c : Constructor} (hhook : c.hook = none) (ty : TypeName) (i : Nat)
    {values : List (List Value)} (h : ∀ l ∈ values, Distinct l) : Distinct (c.instancesOver ty i values) := by
  have htuples := distinct_lexicographic h
  unfold Constructor.instancesOver
  generalize lexicographic values = tuples at htuples
  cases tuples with
  | nil => exact .nil
  | cons first rest =>
    have hbuild : ∀ tuple, c.build ty i tuple = .ok (.object ty i tuple) := by
      intro tuple
      simp [Constructor.build, hhook]
    have hall : (first :: rest).filterMap (fun tuple => (c.build ty i tuple).toOption) =
        (first :: rest).map (.object ty i) := by
      simp only [hbuild, Except.toOption]
      exact congrFun List.filterMap_eq_map _
    simp only [hbuild first, hall]
    refine List.pairwise_map.2 (htuples.imp fun {s t} hst => ?_)
    rw [Value.object_beq_object, hst, Bool.and_false]

theorem distinct_constructorValues (h : Regular inner)
    (ih : ∀ ty ctx, Distinct (r.resolveWith inner anyValue ty ctx).1.toList) {info : TypeInfo} {c : Constructor}
    {i : Nat} (hhook : c.hook = none) (hc : info.constructors[i]? = some c) (ctx : Context) :
    Distinct (r.constructorValues inner info c ctx).1.toList := by
  rw [r.toList_constructorValues h hc]
  split_ifs
  · refine distinct_instancesOver hhook _ _ fun l hl => ?_
    obtain ⟨p, _, rfl⟩ := List.mem_map.1 hl
    exact ih p ctx.nested
  · exact .nil

theorem distinct_instantiations (hplain : r.Plain) (h : Regular inner)
    (ih : ∀ ty ctx, Distinct (r.resolveWith inner anyValue ty ctx).1.toList) (ty : TypeName) (ctx : Context) :
    Distinct (r.instantiations inner ty ctx).1.toList := by
  by_cases hk : ∃ info, r.unit.typeInfo? ty = some info ∧ info.isInstantiable = true
  · obtain ⟨info, hinfo, hi⟩ := hk
    have hhook : ∀ k ∈ info.constructors.zipIdx, k.1.hook = none := by
      intro k hk
      have hc := List.mem_of_getElem? (List.mem_zipIdx_iff_getElem?.1 hk)
      exact hplain.hooks info (mem_types_of_typeInfo hinfo).1 k.1 hc
    have hindices : info.constructors.zipIdx.Pairwise fun k l => k.2 < l.2 := by
      rw [← List.pairwise_map (f := Prod.snd), List.zipIdx_map_snd]
      exact List.pairwise_lt_range' 1
    rw [r.toList_instantiations h hinfo hi]
    refine List.pairwise_flatMap.2 ⟨fun k hk => ?_, hindices.imp_of_mem fun {k l} hk hl hkl v hv w hw => ?_⟩
    · exact distinct_constructorValues h ih (hhook k hk) (List.mem_zipIdx_iff_getElem?.1 hk) ctx
    · -- instances of two constructors bear their indices
      obtain ⟨_, rfl, _⟩ := r.mem_constructorValues h.framed (hhook k hk) (List.mem_zipIdx_iff_getElem?.1 hk) hv
      obtain ⟨_, rfl, _⟩ := r.mem_constructorValues h.framed (hhook l hl) (List.mem_zipIdx_iff_getElem?.1 hl) hw
      have hne : (k.2 == l.2) = false := beq_false_of_ne (Nat.ne_of_lt hkl)
      rw [Value.object_beq_object, hne, Bool.and_false, Bool.false_and]
  · rw [r.toList_instantiations_unknown hk]
    exact .nil

theorem distinct_dataTypeValues (hplain : r.Plain) (h : Regular inner)
    (ih : ∀ ty ctx, Distinct (r.resolveWith inner anyValue ty ctx).1.toList) (ty d : TypeName) (ctx : Context) :
    Distinct (r.dataTypeValues inner ty d ctx).1.toList := by
  rw [toList_dataTypeValues hplain.lookup h]
  split_ifs
  · exact distinct_instantiations hplain h ih d ctx
  · exact .nil
  · exact distinct_instantiations hplain h ih d (ctx.marked d)

/-- the values of a data type are objects of that type -/
theorem objectType_of_mem_dataTypeValues (hplain : r.Plain) (h : Regular inner) {ty d : TypeName} {ctx : Context}
    {v : Value} (hv : v ∈ (r.dataTypeValues inner ty d ctx).1.toList) :
    ∃ own i arguments, v = .object own i arguments ∧ (own == d) = true := by
  have hinst : ∀ c : Context, v ∈ (r.instantiations inner d c).1.toList →
      ∃ own i arguments, v = .object own i arguments ∧ (own == d) = true := by
    intro c hv
    obtain ⟨info, _, i, arguments, hinfo, _, _, rfl, _⟩ := mem_instantiations hplain h hv
    exact ⟨info.ty, i, arguments, rfl, (mem_types_of_typeInfo hinfo).2⟩
  rw [toList_dataTypeValues hplain.lookup h] at hv
  split_ifs at hv
  · exact hinst ctx hv
  · simp at hv
  · exact hinst (ctx.marked d) hv

theorem distinct_dataTypes (ty : TypeName) (ctx : Context) : Distinct (r.dataTypes ty ctx) := by
  unfold dataTypes
  split_ifs
  · exact distinct_eraseDups (fun _ _ => BEq.comm) _
  · exact List.pairwise_singleton _ _

theorem distinct_structuredValues (hplain : r.Plain) (h : Regular inner)
    (ih : ∀ ty ctx, Distinct (r.resolveWith inner anyValue ty ctx).1.toList) (ty : TypeName) (ctx : Context) :
    Distinct (r.structuredValues inner ty ctx).1.toList := by
  cases hp : ctx.guard.inProgress ty with
  | true =>
    rw [r.structuredValues_refused hp]
    exact List.pairwise_singleton _ _
  | false =>
    have hobjects : ∀ v ∈ (r.dataTypes ty ctx).flatMap fun d => (r.dataTypeValues inner ty d (ctx.marked ty)).1.toList,
        v.isNull = false := by
      intro v hv
      obtain ⟨d, _, hv⟩ := List.mem_flatMap.1 hv
      obtain ⟨_, _, _, rfl, _⟩ := objectType_of_mem_dataTypeValues hplain h hv
      rfl
    have hvalues : Distinct ((r.dataTypes ty ctx).flatMap fun d =>
        (r.dataTypeValues inner ty d (ctx.marked ty)).1.toList) := by
      refine List.pairwise_flatMap.2 ⟨fun d _ => ?_, (distinct_dataTypes ty ctx).imp fun {d e} hde v hv w hw => ?_⟩
      · exact distinct_dataTypeValues hplain h ih ty d (ctx.marked ty)
      · obtain ⟨own, i, xs, rfl, hown⟩ := objectType_of_mem_dataTypeValues hplain h hv
        obtain ⟨own', j, ys, rfl, hown'⟩ := objectType_of_mem_dataTypeValues hplain h hw
        have hne : (own == own') = false := by
          rw [TypeName.beq_congr_left hown, TypeName.beq_congr_right hown', hde]
        rw [Value.object_beq_object, hne, Bool.false_and, Bool.false_and]
    rw [toList_structuredValues h hp]
    generalize (r.dataTypes ty ctx).flatMap _ = values at hobjects hvalues
    cases values with
    | nil => exact .nil
    | cons v vs => exact .cons (fun w hw => Value.null_beq_of_nonNull (hobjects w hw)) hvalues

theorem distinct_arrayValues (h : Regular inner)
    (ih : ∀ ty ctx, Distinct (r.resolveWith inner anyValue ty ctx).1.toList) (ty : TypeName) (maxLength : Option Nat)
    (ctx : Context) : Distinct (r.arrayValues inner ty maxLength ctx).toList := by
  cases hc : ty.component? with
  | none =>
    simp only [arrayValues, hc]
    exact .nil
  | some component =>
    rw [toList_arrayValues h hc]
    have hfilled := distinct_lengths (ih component ctx.nested) 1
      (maxLength.getD (if ctx.structuralFallback then r.config.maxArrayLength else 0))
    refine .cons (fun v hv => ?_) (.cons (fun v hv => ?_) (List.pairwise_map.2 (hfilled.imp fun {s t} hst => ?_)))
    · rcases List.mem_cons.1 hv with rfl | hv
      · rfl
      · obtain ⟨_, _, rfl⟩ := List.mem_map.1 hv
        rfl
    · -- all other arrays have an element
      obtain ⟨t, ht, rfl⟩ := List.mem_map.1 hv
      obtain ⟨n, hn, ht⟩ := List.mem_flatMap.1 ht
      have hlength : t.length = n := by rw [(mem_lexicographic.1 ht).length_eq, List.length_replicate]
      have hpos := (List.mem_range'_1.1 hn).1
      have hne : (([] : List Value) == t) = false := beq_false_of_length (by rw [hlength, List.length_nil]; omega)
      rw [Value.array_beq_array, hne, Bool.and_false]
    · rw [Value.array_beq_array, hst, Bool.and_false]

/-- **A level above distinct values has distinct values.** -/
theorem distinct_shapeStep (hplain : r.Plain) (henums : ∀ info ∈ r.unit.types, info.constants.Nodup) (h : Regular inner)
    (ih : ∀ ty ctx, Distinct (r.resolveWith inner anyValue ty ctx).1.toList) (ty : TypeName) (ctx : Context) :
    Distinct (r.shapeStep inner (Shape.ofType r.unit ty) ctx).1.toList := by
  have hspec := Shape.ofType_spec r.unit ty
  cases hshape : Shape.ofType r.unit ty with
  | primitive t k =>
    simp only [shapeStep, Sequence.toList_ofList]
    exact Shape.distinct_primitiveValues k _
  | boxed t k =>
    simp only [shapeStep, Sequence.toList_ofList]
    exact Shape.distinct_boxedValues k _
  | enumeration t constants =>
    rw [hshape] at hspec
    obtain ⟨-, info, hinfo, rfl⟩ := hspec
    simp only [shapeStep, Sequence.toList_ofList]
    exact Shape.distinct_constants t (henums info (mem_types_of_typeInfo hinfo).1)
  | array t maxLength => exact distinct_arrayValues h ih t maxLength ctx
  | structured t => exact distinct_structuredValues hplain h ih t ctx

/-! ## All values -/

theorem distinct_resolveWith (hplain : r.Plain) {keep : Value → Bool} {ty : TypeName} {ctx : Context}
    (h : Distinct (inner (Shape.ofType r.unit ty) ctx).1.toList) :
    Distinct (r.resolveWith inner keep ty ctx).1.toList := by
  rw [resolveWith_bare_fst hplain.lookup]
  refine Distinct.sublist ?_ (Sequence.sublist_sampledBy _ _)
  rw [Sequence.toList_filter]
  exact h.sublist List.filter_sublist

theorem distinct_resolveWhere (hplain : r.Plain) (henums : ∀ info ∈ r.unit.types, info.constants.Nodup)
    (keep : Value → Bool) (ty : TypeName) (ctx : Context) : Distinct (r.resolveWhere keep ty ctx).1.toList := by
  have hlevels : ∀ n keep ty ctx, Distinct (r.resolveWith (r.above nothing n) keep ty ctx).1.toList := by
    intro n
    induction n with
    | zero => exact fun keep ty ctx => distinct_resolveWith hplain .nil
    | succ n ih =>
      intro keep ty ctx
      exact distinct_resolveWith hplain
        (distinct_shapeStep hplain henums (r.regular_above regular_nothing n) (ih anyValue) ty ctx)
  rw [← r.resolveWith_above (ownTargets_plain hplain) nothing keep ty ctx]
  exact hlevels _ keep ty ctx

/-! ## Tuples -/

theorem splitReceiver_beq (hasReceiver : Bool) (s t : List Value) :
    (splitReceiver hasReceiver s == splitReceiver hasReceiver t) = (s == t) := by
  cases hasReceiver with
  | false => rfl
  | true =>
    cases s with
    | nil => cases t <;> rfl
    | cons x xs =>
      cases t with
      | nil => rfl
      | cons y ys => rfl

theorem distinct_positions (hplain : r.Plain) (henums : ∀ info ∈ r.unit.types, info.constants.Nodup) (op : Operation) :
    ∀ l ∈ (r.positions op).map fun p => p.values.first.toList, Distinct l := by
  have hresolve := distinct_resolveWhere hplain henums
  intro l hl
  obtain ⟨p, hp, rfl⟩ := List.mem_map.1 hl
  have hslots : p ∈ op.parameters.map (r.slotPosition op) → Distinct p.values.first.toList := by
    intro hp
    obtain ⟨slot, _, rfl⟩ := List.mem_map.1 hp
    exact hresolve anyValue _ _
  simp only [positions] at hp
  split_ifs at hp
  · rcases List.mem_cons.1 hp with rfl | hp
    · exact hresolve nonNull _ _
    · exact hslots hp
  · exact hslots hp

/-- **No tuple is generated twice.** Without construct hooks and registered strategies, and with enumerations that list
no constant twice, for any settings: the tuples of an operation with well-formed slots are finitely many, and any two of
them at different places differ. -/
theorem tuples_never_repeat (r : Resolver) (hplain : r.Plain)
    (henums : ∀ info ∈ r.unit.types, info.constants.Nodup) (op : Operation) (hfault : op.fault? = none) :
    ∃ t, r.tuples op = .ok t ∧ t.tuples.Complete ∧
      ∀ (i j : Nat) (a b : CandidateTuple), i ≠ j → t.tuples.toList[i]? = some a → t.tuples.toList[j]? = some b →
        (a == b) = false := by
  obtain ⟨t, ht, hc, hlist⟩ := r.tuples_of_ownTargets (ownTargets_plain hplain) hfault
  have hdistinct : Distinct t.tuples.toList := by
    rw [hlist]
    refine List.pairwise_map.2 ((distinct_lexicographic (distinct_positions hplain henums op)).imp fun {s u} hsu => ?_)
    rw [splitReceiver_beq, hsu]
  refine ⟨t, ht, hc, fun i j a b hij ha hb => ?_⟩
  obtain ⟨hi, rfl⟩ := List.getElem?_eq_some_iff.1 ha
  obtain ⟨hj, rfl⟩ := List.getElem?_eq_some_iff.1 hb
  have hpairs := List.pairwise_iff_getElem.1 hdistinct
  rcases Nat.lt_or_gt_of_ne hij with hlt | hgt
  · exact hpairs i j hi hj hlt
  · rw [CandidateTuple.beq_comm]
    exact hpairs j i hj hi hgt

/-! Badges with a rank or a holder. Guests are named as holders three times, with and without a type argument, and one
number is written in two ways. -/

def badgeUnit : UnitInfo :=
  { declaring := ⟨"Badge", "", 0⟩
    types :=
      [{ ty := ⟨"Badge", "", 0⟩, constructors := [⟨[⟨"Rank", "", 0⟩], none⟩, ⟨[⟨"Holder", "", 0⟩], none⟩] },
       { ty := ⟨"Holder", "", 0⟩, isAbstract := true, subtypes := [⟨"Guest", "", 0⟩, ⟨"Guest", "<T>", 0⟩] },
       { ty := ⟨"Guest", "", 0⟩, constructors := [⟨[], none⟩] },
       { ty := ⟨"Rank", "", 0⟩, constants := ["LOW", "HIGH"] }] }

def grantOperation : Operation :=
  { id := "grant", name := "grant", kind := .method
    parameters := [⟨"grant", ⟨"Holder", "", 1⟩, 0, "p0"⟩, ⟨"grant", ⟨"int", "", 0⟩, 1, "p1"⟩]
    literals := ((LiteralTable.empty.insert ⟨"int", "", 0⟩ "7").insert ⟨"int", "", 0⟩ "007").insertReference
      ⟨"Guest", "", 0⟩ }

def badgeResolver : Resolver :=
  .make (fun _ _ => none) badgeUnit
    { maxArrayLength := 2, sampling := some { fraction := .ofBits 0x3fe8000000000000, seed := 2, valid := by decide } }

theorem badges_never_repeat :
    (badgeResolver.tuples grantOperation).toOption.map (fun t => t.tuples.toList.length) = some 112 ∧
    ∃ t, badgeResolver.tuples grantOperation = .ok t ∧ t.tuples.Complete ∧
      ∀ (i j : Nat) (a b : CandidateTuple), i ≠ j → t.tuples.toList[i]? = some a → t.tuples.toList[j]? = some b →
        (a == b) = false :=
  ⟨by decide +kernel,
    tuples_never_repeat badgeResolver ⟨fun _ _ => rfl, by decide⟩ (by decide) grantOperation (by decide)⟩

end Resolver

end TestInputs
