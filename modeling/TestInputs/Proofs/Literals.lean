/-
Literals among the values of value-like types. The values of such a type are the boundary constants of its kind and
then the values of the literals recorded for it. A text that no literal of the kind is spelled like adds nothing, and
neither does a text that was read before or one whose value is listed already, however it is spelled. So the value of
a text is listed at the first place where it is read, in the order of the places: those of the operation in ascending
order, then those of the type in ascending order.

Equality of values is symmetric and transitive and fails only for NaN to be reflexive. Two texts that read as NaN are
therefore both listed, but one text is listed once, even if both tables record it.

Results:
- `eraseDups_concat`, `any_eraseDups`: lists without repetitions, member by member;
- `primitiveValues_concat`: what one more text adds;
- `primitiveValues_inOrder`: the values after the boundary constants are first readings, in order, and all of them;
- `literals_fold_in_order`: the statement for value-like types and their wrappers in any context.
-/
import Mathlib.Data.List.Induction
import TestInputs.Proofs.Distinct
import TestInputs.Proofs.Typing
import TestInputs.Value.Shown

namespace TestInputs

open Text (TextSet)

/-! ## Equality is transitive -/

theorem Binary.beq_trans {f : Format} {x y z : Binary f} (hxy : (x == y) = true) (hyz : (y == z) = true) :
    (x == z) = true := by
  have hxy : x.equal y = true := hxy
  have hyz : y.equal z = true := hyz
  show x.equal z = true
  simp only [equal, Bool.and_eq_true, Bool.or_eq_true, Bool.not_eq_true', beq_iff_eq] at hxy hyz ⊢
  obtain ⟨⟨hx, -⟩, hxy⟩ := hxy
  obtain ⟨⟨-, hz⟩, hyz⟩ := hyz
  refine ⟨⟨hx, hz⟩, ?_⟩
  have hzero : ∀ {a b : Binary f}, a.bits = b.bits → a.isZero = b.isZero := by
    intro a b hab
    simp only [isZero, magnitude, hab]
  rcases hxy with hxy | ⟨hx0, hy0⟩
  · rcases hyz with hyz | ⟨hy0, hz0⟩
    · exact Or.inl (hxy.trans hyz)
    · exact Or.inr ⟨(hzero hxy).trans hy0, hz0⟩
  · rcases hyz with hyz | ⟨-, hz0⟩
    · exact Or.inr ⟨hx0, (hzero hyz).symm.trans hy0⟩
    · exact Or.inr ⟨hx0, hz0⟩

theorem Binary.beq_self {f : Format} (x : Binary f) : (x == x) = !x.isNaN := by
  show x.equal x = !x.isNaN
  simp [equal]

theorem Binary.beq_of_isNaN {f : Format} {x : Binary f} (h : x.isNaN = true) (y : Binary f) : (x == y) = false := by
  show x.equal y = false
  simp [equal, h]

namespace Value

mutual

theorem same_trans {a b c : Value} (hab : same a b = true) (hbc : same b c = true) : same a c = true := by
  cases a with
  | null =>
    cases b with
    | null => exact hbc
    | _ => cases hab
  | boolean x =>
    cases b with
    | boolean y =>
      rw [eq_of_beq (a := x) (b := y) hab]
      exact hbc
    | _ => cases hab
  | byte x =>
    cases b with
    | byte y =>
      rw [eq_of_beq (a := x) (b := y) hab]
      exact hbc
    | _ => cases hab
  | short x =>
    cases b with
    | short y =>
      rw [eq_of_beq (a := x) (b := y) hab]
      exact hbc
    | _ => cases hab
  | char x =>
    cases b with
    | char y =>
      rw [eq_of_beq (a := x) (b := y) hab]
      exact hbc
    | _ => cases hab
  | int x =>
    cases b with
    | int y =>
      rw [eq_of_beq (a := x) (b := y) hab]
      exact hbc
    | _ => cases hab
  | long x =>
    cases b with
    | long y =>
      rw [eq_of_beq (a := x) (b := y) hab]
      exact hbc
    | _ => cases hab
  | float x =>
    cases b with
    | float y =>
      cases c with
      | float z => exact Binary.beq_trans (x := x) (y := y) hab hbc
      | _ => cases hbc
    | _ => cases hab
  | double x =>
    cases b with
    | double y =>
      cases c with
      | double z => exact Binary.beq_trans (x := x) (y := y) hab hbc
      | _ => cases hbc
    | _ => cases hab
  | str x =>
    cases b with
    | str y =>
      rw [eq_of_beq (a := x) (b := y) hab]
      exact hbc
    | _ => cases hab
  | array t xs =>
    cases b with
    | array u ys =>
      cases c with
      | array v zs =>
        simp only [same, Bool.and_eq_true] at hab hbc ⊢
        exact ⟨BEq.trans hab.1 hbc.1, sameAll_trans hab.2 hbc.2⟩
      | _ => cases hbc
    | _ => cases hab
  | enum t x =>
    cases b with
    | enum u y =>
      cases c with
      | enum v z =>
        simp only [same, Bool.and_eq_true] at hab hbc ⊢
        exact ⟨BEq.trans hab.1 hbc.1, BEq.trans hab.2 hbc.2⟩
      | _ => cases hbc
    | _ => cases hab
  | object t i xs =>
    cases b with
    | object u j ys =>
      cases c with
      | object v k zs =>
        simp only [same, Bool.and_eq_true] at hab hbc ⊢
        exact ⟨⟨BEq.trans hab.1.1 hbc.1.1, BEq.trans hab.1.2 hbc.1.2⟩, sameAll_trans hab.2 hbc.2⟩
      | _ => cases hbc
    | _ => cases hab

theorem sameAll_trans {xs ys zs : List Value} (hxy : sameAll xs ys = true) (hyz : sameAll ys zs = true) :
    sameAll xs zs = true := by
  cases xs with
  | nil =>
    cases ys with
    | nil => exact hyz
    | cons y ys => cases hxy
  | cons x xs =>
    cases ys with
    | nil => cases hxy
    | cons y ys =>
      cases zs with
      | nil => cases hyz
      | cons z zs =>
        simp only [sameAll, Bool.and_eq_true] at hxy hyz ⊢
        exact ⟨same_trans hxy.1 hyz.1, sameAll_trans hxy.2 hyz.2⟩

end

instance : PartialEquivBEq Value where
  symm h := (beq_comm _ _).trans h
  trans := same_trans

/-- a number that equals nothing -/
def isNaN : Value → Bool
  | float x => x.isNaN
  | double x => x.isNaN
  | _ => false

/-- NaN is the only constant that differs from itself -/
theorem beq_self_of_kind {v : Value} {k : Kind} (hkind : v.kind? = some k) : (v == v) = !v.isNaN := by
  cases v with
  | null | array _ _ | enum _ _ | object _ _ _ => cases hkind
  | float x => exact x.beq_self
  | double x => exact x.beq_self
  | boolean x | byte x | short x | char x | int x | long x | str x => exact beq_self_eq_true x

theorem beq_of_isNaN {v : Value} (h : v.isNaN = true) (w : Value) : (v == w) = false := by
  cases v with
  | float x =>
    cases w with
    | float y => exact Binary.beq_of_isNaN h y
    | _ => rfl
  | double x =>
    cases w with
    | double y => exact Binary.beq_of_isNaN h y
    | _ => rfl
  | _ => cases h

theorem isNaN_of_mem_boundaries {k : Kind} {v : Value} (h : v ∈ boundaries k) : v.isNaN = false := by
  have hnone : ∀ k, (boundaries k).all (fun v => !v.isNaN) = true := by
    intro k
    cases k <;> decide
  simpa using List.all_eq_true.1 (hnone k) v h

end Value

/-! ## Lists without repetitions, member by member -/

section Repeated

variable {α : Type} [BEq α]

theorem eraseDupsBy_loop_cons (b : α) (l acc : List α) :
    List.eraseDupsBy.loop (· == ·) (b :: l) acc =
      List.eraseDupsBy.loop (· == ·) l (if acc.any (b == ·) then acc else b :: acc) := by
  rw [List.eraseDupsBy.loop]
  cases acc.any (b == ·) with
  | true => rfl
  | false => rfl

theorem eraseDupsBy_loop_concat (l : List α) (a : α) (acc : List α) :
    List.eraseDupsBy.loop (· == ·) (l ++ [a]) acc =
      if (List.eraseDupsBy.loop (· == ·) l acc).any (a == ·) then List.eraseDupsBy.loop (· == ·) l acc
      else List.eraseDupsBy.loop (· == ·) l acc ++ [a] := by
  induction l generalizing acc with
  | nil =>
    rw [List.nil_append, eraseDupsBy_loop_cons]
    simp only [List.eraseDupsBy.loop, List.any_reverse]
    cases acc.any (a == ·) with
    | true => rfl
    | false => exact List.reverse_cons
  | cons b l ih =>
    rw [List.cons_append, eraseDupsBy_loop_cons, eraseDupsBy_loop_cons]
    exact ih _

/-- one more member is listed unless an equal one is -/
theorem eraseDups_concat (l : List α) (a : α) :
    (l ++ [a]).eraseDups = if l.eraseDups.any (a == ·) then l.eraseDups else l.eraseDups ++ [a] :=
  eraseDupsBy_loop_concat l a []

/-- a member is listed itself or has an equal in the list -/
theorem mem_or_exists_beq_of_mem {a : α} {l : List α} (h : a ∈ l) :
    a ∈ l.eraseDups ∨ ∃ b ∈ l.eraseDups, (a == b) = true := by
  induction l using List.reverseRecOn with
  | nil => cases h
  | append_singleton l c ih =>
    have hkept : ∀ b ∈ l.eraseDups, b ∈ (l ++ [c]).eraseDups := by
      intro b hb
      rw [eraseDups_concat]
      split_ifs
      · exact hb
      · exact List.mem_append_left _ hb
    rcases List.mem_append.1 h with h | h
    · rcases ih h with h | ⟨b, hb, hab⟩
      · exact Or.inl (hkept a h)
      · exact Or.inr ⟨b, hkept b hb, hab⟩
    · obtain rfl := List.mem_singleton.1 h
      by_cases hany : l.eraseDups.any (a == ·) = true
      · obtain ⟨b, hb, hab⟩ := List.any_eq_true.1 hany
        exact Or.inr ⟨b, hkept b hb, hab⟩
      · rw [eraseDups_concat, if_neg hany]
        exact Or.inl (List.mem_append_right _ (List.mem_singleton_self a))

/-- what has an equal among the members has one among those listed -/
theorem any_eraseDups [PartialEquivBEq α] (l : List α) (a : α) : l.eraseDups.any (a == ·) = l.any (a == ·) := by
  rw [Bool.eq_iff_iff, List.any_eq_true, List.any_eq_true]
  constructor
  · rintro ⟨b, hb, hab⟩
    exact ⟨b, mem_of_mem_eraseDups hb, hab⟩
  · rintro ⟨b, hb, hab⟩
    -- the equal member may have been left out itself, for one before it
    rcases mem_or_exists_beq_of_mem hb with hb | ⟨c, hc, hbc⟩
    · exact ⟨b, hb, hab⟩
    · exact ⟨c, hc, BEq.trans hab hbc⟩

end Repeated

/-! ## First readings -/

namespace Value

/-- a text that is read after others adds a value: it is a literal of the kind, and it is a new text with a new value -/
structure Adds (k : Kind) (before : List String) (text : String) (v : Value) : Prop where
  reads : readLiteral? k text = some v
  newText : text ∉ before
  noBoundary : ∀ b ∈ boundaries k, (b == v) = false
  newValue : ∀ t ∈ before, ∀ w, readLiteral? k t = some w → (w == v) = false

/-- the text at a place adds a value to those before it -/
def FirstAt (k : Kind) (texts : List String) (place : Nat) (v : Value) : Prop :=
  ∃ text, texts[place]? = some text ∧ Adds k (texts.take place) text v

/-- the values that the texts add, in the order of their places, and all of them -/
def InOrder (k : Kind) (texts : List String) (values : List Value) : Prop :=
  ∃ found : List (Nat × Value), found.Pairwise (·.1 < ·.1) ∧ (∀ i v, (i, v) ∈ found ↔ FirstAt k texts i v) ∧
    values = found.map Prod.snd

section Order

variable {k : Kind} {texts : List String} {text : String} {values : List Value} {v : Value} {i : Nat}

theorem FirstAt.lt_length (h : FirstAt k texts i v) : i < texts.length := by
  obtain ⟨text, htext, -⟩ := h
  exact (List.getElem?_eq_some_iff.1 htext).1

/-- a place of a longer list is a place of the shorter one or the last place -/
theorem firstAt_concat : FirstAt k (texts ++ [text]) i v ↔
    FirstAt k texts i v ∨ (i = texts.length ∧ Adds k texts text v) := by
  rcases Nat.lt_trichotomy i texts.length with hlt | rfl | hgt
  · simp only [FirstAt, List.getElem?_append_left hlt, List.take_append_of_le_length (Nat.le_of_lt hlt),
      Nat.ne_of_lt hlt, false_and, or_false]
  · simp [FirstAt]
  · have hlong : ¬FirstAt k (texts ++ [text]) i v := by
      intro h
      have := h.lt_length
      rw [List.length_append, List.length_singleton] at this
      omega
    have hshort : ¬FirstAt k texts i v := fun h => Nat.lt_asymm hgt h.lt_length
    simp only [hlong, hshort, Nat.ne_of_gt hgt, false_and, or_false]

theorem inOrder_nil (k : Kind) : InOrder k [] [] := by
  refine ⟨[], .nil, fun i v => ?_, rfl⟩
  simp [FirstAt]

theorem InOrder.skip (h : InOrder k texts values) (hnone : ∀ v, ¬Adds k texts text v) :
    InOrder k (texts ++ [text]) values := by
  obtain ⟨found, hascending, hall, rfl⟩ := h
  refine ⟨found, hascending, fun i v => ?_, rfl⟩
  rw [firstAt_concat, hall i v]
  simp only [hnone v, and_false, or_false]

theorem InOrder.add (h : InOrder k texts values) (hadds : Adds k texts text v) :
    InOrder k (texts ++ [text]) (values ++ [v]) := by
  obtain ⟨found, hascending, hall, rfl⟩ := h
  refine ⟨found ++ [(texts.length, v)], ?_, fun i w => ?_, ?_⟩
  · refine List.pairwise_append.2 ⟨hascending, List.pairwise_singleton _ _, fun p hp q hq => ?_⟩
    obtain rfl := List.mem_singleton.1 hq
    exact FirstAt.lt_length ((hall p.1 p.2).1 hp)
  · have hvalue : Adds k texts text w ↔ w = v := by
      constructor
      · intro hw
        exact Option.some.inj (hw.reads.symm.trans hadds.reads)
      · rintro rfl
        exact hadds
    rw [firstAt_concat, hvalue, List.mem_append, hall i w, List.mem_singleton, Prod.mk.injEq]
  · rw [List.map_append]
    rfl

/-- every value in order is read from one of the texts -/
theorem InOrder.exists_text (h : InOrder k texts values) (hv : v ∈ values) :
    ∃ text ∈ texts, readLiteral? k text = some v := by
  obtain ⟨found, -, hall, rfl⟩ := h
  obtain ⟨⟨i, w⟩, hfound, rfl⟩ := List.mem_map.1 hv
  obtain ⟨text, htext, hadds⟩ := (hall i w).1 hfound
  exact ⟨text, List.mem_of_getElem? htext, hadds.reads⟩

end Order

end Value

/-! ## Boundary constants and literals -/

namespace Shape

theorem primitiveValues_nil (k : Kind) : primitiveValues k [] = Value.boundaries k := by
  cases k <;> rfl

/-- a constant has an equal in the list if it equals a boundary constant or what one of the texts reads as -/
theorem any_primitiveValues (k : Kind) (texts : List String) (v : Value) :
    (primitiveValues k texts).any (v == ·) = true ↔
      (∃ b ∈ Value.boundaries k, (b == v) = true) ∨
        ∃ text ∈ texts, ∃ w, Value.readLiteral? k text = some w ∧ (w == v) = true := by
  rw [primitiveValues, any_eraseDups, List.any_append, Bool.or_eq_true, List.any_eq_true, List.any_eq_true]
  simp only [Value.beq_comm v, List.mem_filterMap]
  refine or_congr Iff.rfl ⟨?_, ?_⟩
  · rintro ⟨w, ⟨text, htext, hw⟩, hwv⟩
    exact ⟨text, htext, w, hw, hwv⟩
  · rintro ⟨text, htext, w, hw, hwv⟩
    exact ⟨w, ⟨text, htext, hw⟩, hwv⟩

/-- what one more text, not read before, adds to the list -/
theorem primitiveValues_append_singleton (k : Kind) (texts : List String) (text : String) :
    primitiveValues k (texts ++ [text]) = primitiveValues k texts ++
      ((Value.readLiteral? k text).filter fun v => !(primitiveValues k texts).any (v == ·)).toList := by
  cases hread : Value.readLiteral? k text with
  | none => simp [primitiveValues, hread]
  | some v =>
    have hlast : primitiveValues k (texts ++ [text]) =
        (Value.boundaries k ++ texts.filterMap (Value.readLiteral? k) ++ [v]).eraseDups := by
      simp [primitiveValues, hread]
    rw [hlast, eraseDups_concat, Option.filter_some]
    cases hequal : (primitiveValues k texts).any (v == ·) with
    | true => exact (if_pos hequal).trans (List.append_nil _).symm
    | false => exact if_neg (Bool.eq_false_iff.1 hequal)

/-- a text adds its value if it is new and nothing in the list equals the value -/
theorem adds_iff {k : Kind} {texts : List String} {text : String} {v : Value} :
    Value.Adds k texts text v ↔ text ∉ texts ∧ Value.readLiteral? k text = some v ∧
      (primitiveValues k texts.eraseDups).any (v == ·) = false := by
  have hany := any_primitiveValues k texts.eraseDups v
  simp only [List.mem_eraseDups] at hany
  constructor
  · intro h
    refine ⟨h.newText, h.reads, Bool.eq_false_iff.2 fun hequal => ?_⟩
    rcases hany.1 hequal with ⟨b, hb, hbv⟩ | ⟨t, ht, w, hw, hwv⟩
    · rw [h.noBoundary b hb] at hbv
      cases hbv
    · rw [h.newValue t ht w hw] at hwv
      cases hwv
  · rintro ⟨hnew, hread, hnone⟩
    have hnone := mt hany.2 (Bool.eq_false_iff.1 hnone)
    refine ⟨hread, hnew, fun b hb => ?_, fun t ht w hw => ?_⟩
    · exact Bool.eq_false_iff.2 fun hbv => hnone (Or.inl ⟨b, hb, hbv⟩)
    · exact Bool.eq_false_iff.2 fun hwv => hnone (Or.inr ⟨t, ht, w, hw, hwv⟩)

/-- **What one more text adds**: its value, unless the text was read before or the value is listed already. -/
theorem primitiveValues_concat (k : Kind) (texts : List String) (text : String) :
    (∃ v, Value.Adds k texts text v ∧
      primitiveValues k (texts ++ [text]).eraseDups = primitiveValues k texts.eraseDups ++ [v]) ∨
    ((∀ v, ¬Value.Adds k texts text v) ∧
      primitiveValues k (texts ++ [text]).eraseDups = primitiveValues k texts.eraseDups) := by
  have hlisted : texts.eraseDups.any (text == ·) = true ↔ text ∈ texts := by
    rw [any_eraseDups]
    simp
  by_cases hold : text ∈ texts
  · refine Or.inr ⟨fun v hv => hv.newText hold, ?_⟩
    rw [eraseDups_concat, if_pos (hlisted.2 hold)]
  · rw [eraseDups_concat, if_neg (mt hlisted.1 hold), primitiveValues_append_singleton]
    by_cases hadds : ∃ v, Value.Adds k texts text v
    · obtain ⟨v, hv⟩ := hadds
      obtain ⟨-, hread, hnone⟩ := adds_iff.1 hv
      refine Or.inl ⟨v, hv, ?_⟩
      rw [hread, Option.filter_some, hnone]
      rfl
    · have hnone : (Value.readLiteral? k text).filter
          (fun v => !(primitiveValues k texts.eraseDups).any (v == ·)) = none := by
        refine Option.filter_eq_none_iff.2 fun v hread hnew => hadds ⟨v, adds_iff.2 ⟨hold, hread, ?_⟩⟩
        simpa using hnew
      refine Or.inr ⟨not_exists.1 hadds, ?_⟩
      rw [hnone, Option.toList_none, List.append_nil]

/-- **The values after the boundary constants are the first readings, in order.** -/
theorem primitiveValues_inOrder (k : Kind) (texts : List String) :
    ∃ values, primitiveValues k texts.eraseDups = Value.boundaries k ++ values ∧ Value.InOrder k texts values := by
  induction texts using List.reverseRecOn with
  | nil => exact ⟨[], by rw [List.append_nil]; exact primitiveValues_nil k, Value.inOrder_nil k⟩
  | append_singleton texts text ih =>
    obtain ⟨values, hvalues, horder⟩ := ih
    rcases primitiveValues_concat k texts text with ⟨v, hadds, hstep⟩ | ⟨hnone, hstep⟩
    · exact ⟨values ++ [v], by rw [hstep, hvalues, List.append_assoc], horder.add hadds⟩
    · exact ⟨values, by rw [hstep, hvalues], horder.skip hnone⟩

/-- the value of every literal is listed: by an equal value, or as itself behind the boundary constants if it is NaN -/
theorem listed_of_reads {k : Kind} {texts : List String} {values : List Value}
    (hvalues : primitiveValues k texts.eraseDups = Value.boundaries k ++ values) {text : String} (htext : text ∈ texts)
    {v : Value} (hread : Value.readLiteral? k text = some v) :
    if v.isNaN then v ∈ values else ∃ w ∈ Value.boundaries k ++ values, (w == v) = true := by
  have hlisted : v ∈ Value.boundaries k ++ values ∨ ∃ w ∈ Value.boundaries k ++ values, (v == w) = true := by
    rw [← hvalues]
    apply mem_or_exists_beq_of_mem
    refine List.mem_append_right _ (List.mem_filterMap.2 ⟨text, ?_, hread⟩)
    exact List.mem_eraseDups.2 htext
  by_cases hnan : v.isNaN = true
  · -- nothing equals NaN, so it is listed itself, and no boundary constant is NaN
    rw [if_pos hnan]
    rcases hlisted with hv | ⟨w, -, hvw⟩
    · rcases List.mem_append.1 hv with hv | hv
      · exact absurd hnan (by simp [Value.isNaN_of_mem_boundaries hv])
      · exact hv
    · rw [Value.beq_of_isNaN hnan] at hvw
      cases hvw
  · rw [if_neg hnan]
    rcases hlisted with hv | ⟨w, hw, hvw⟩
    · refine ⟨v, hv, ?_⟩
      rw [Value.beq_self_of_kind (Value.kind?_of_readLiteral hread)]
      simpa using hnan
    · exact ⟨w, hw, BEq.symm hvw⟩

end Shape

/-! ## Recorded texts -/

/-- the table holds a literal for the name of a type -/
def LiteralTable.Records (t : LiteralTable) (ty : TypeName) (text : String) : Prop :=
  ∃ texts, t.values.get? ty.name = some texts ∧ text ∈ texts.items

theorem LiteralTable.mem_literalsFor {t : LiteralTable} {ty : TypeName} (harray : ty.isArray = false) {text : String} :
    text ∈ t.literalsFor ty ↔ t.Records ty text := by
  unfold literalsFor Records
  rw [harray, if_neg Bool.false_ne_true]
  cases t.values.get? ty.name with
  | none => simp [TextSet.empty]
  | some texts => simp

theorem LiteralTable.ascending_literalsFor (t : LiteralTable) (ty : TypeName) :
    (t.literalsFor ty).Pairwise (· < ·) := by
  unfold literalsFor
  split_ifs
  · exact .nil
  · exact TextSet.ascending _

namespace Context

/-- the literals of a type that the table of the operation records, in ascending order, and those that the table of the
type records, in ascending order -/
structure Recorded (ctx : Context) (ty : TypeName) (ofOperation ofType : List String) : Prop where
  ascendingOperation : ofOperation.Pairwise (· < ·)
  ascendingType : ofType.Pairwise (· < ·)
  operation : ∀ text, text ∈ ofOperation ↔ ∃ table, ctx.operationLiterals = some table ∧ table.Records ty text
  type : ∀ text, text ∈ ofType ↔ ctx.typeLiterals.Records ty text

theorem exists_recorded (ctx : Context) {ty : TypeName} (harray : ty.isArray = false) :
    ∃ ofOperation ofType, ctx.Recorded ty ofOperation ofType ∧
      ctx.literalTexts ty = (ofOperation ++ ofType).eraseDups := by
  have htype : ∀ text, text ∈ ctx.typeLiterals.literalsFor ty ↔ ctx.typeLiterals.Records ty text :=
    fun _ => LiteralTable.mem_literalsFor harray
  have hascending := ctx.typeLiterals.ascending_literalsFor ty
  cases hop : ctx.operationLiterals with
  | none =>
    refine ⟨[], ctx.typeLiterals.literalsFor ty, ⟨.nil, hascending, ?_, htype⟩, ?_⟩
    · simp [hop]
    · simp [literalTexts, literalTables, hop]
  | some table =>
    refine ⟨table.literalsFor ty, ctx.typeLiterals.literalsFor ty,
      ⟨table.ascending_literalsFor ty, hascending, fun text => ?_, htype⟩, ?_⟩
    · rw [LiteralTable.mem_literalsFor harray, hop]
      simp
    · simp [literalTexts, literalTables, hop]

end Context

/-! ## Value-like types and wrappers -/

theorem TypeName.isArray_of_kind {ty : TypeName} {k : Kind} (hkind : ty.kind? = some k) : ty.isArray = false := by
  cases harray : ty.isArray with
  | false => rfl
  | true =>
    rw [kind_none_of_isArray harray] at hkind
    cases hkind

theorem TypeName.kind_ofKind (k : Kind) : (ofKind k).kind? = some k := by
  cases k <;> decide

namespace Shape

theorem ofType_of_kind (u : UnitInfo) {ty : TypeName} {k : Kind} (hkind : ty.kind? = some k) :
    ofType u ty = .primitive ty k := by
  have harray : ty.isArray = false := TypeName.isArray_of_kind hkind
  simp [ofType, harray, hkind]

theorem ofType_of_unboxed (u : UnitInfo) {ty : TypeName} {k : Kind} (harray : ty.isArray = false)
    (hkind : ty.kind? = none) (hunboxed : u.hierarchy.unboxed? ty = some k) : ofType u ty = .boxed ty k := by
  simp [ofType, harray, hkind, hunboxed]

/-- only strings have null among their own values -/
theorem boxedValues_of_ne_string {k : Kind} (hk : k ≠ .string) (texts : List String) :
    boxedValues k texts = .null :: primitiveValues k texts := by
  rw [boxedValues, List.filter_eq_self.2]
  intro v hv
  rcases kind?_of_mem_primitiveValues hv with hkind | ⟨-, hstring⟩
  · cases v with
    | null => cases hkind
    | _ => rfl
  · exact absurd hstring hk

end Shape

/-! ## Built-in values -/

namespace Resolver

variable (r : Resolver)

/-- the values of a type that follow from its shape -/
def builtinValues (ty : TypeName) (ctx : Context) : Sequence Value × Context :=
  r.defaultsOf (.builtin (Shape.ofType r.unit ty)) ctx

/-- a request explores at least one level -/
theorem levels_eq_shapeStep (ty : TypeName) (ctx : Context) : ∃ inner, r.levels ty ctx = r.shapeStep inner := by
  obtain ⟨n, hn⟩ : ∃ n, r.depth ty ctx = n + 1 := by
    apply Nat.exists_eq_succ_of_ne_zero
    simp only [depth, reserve]
    omega
  refine ⟨r.shapeValues n, ?_⟩
  rw [levels, hn]
  rfl

theorem builtinValues_eq_shapeStep (ty : TypeName) (ctx : Context) :
    ∃ inner, r.builtinValues ty ctx = r.shapeStep inner (Shape.ofType r.unit ty) ctx := by
  obtain ⟨inner, hlevels⟩ := r.levels_eq_shapeStep (Strategy.builtin (Shape.ofType r.unit ty)).target ctx
  refine ⟨inner, ?_⟩
  -- the levels are replaced before anything is unfolded: their number is too large to count down
  rw [builtinValues, defaultsOf, hlevels]
  rfl

theorem builtinValues_of_kind {ty : TypeName} {k : Kind} (hkind : ty.kind? = some k) (ctx : Context) :
    r.builtinValues ty ctx = (.ofList (Shape.primitiveValues k (ctx.literalTexts ty)), ctx) := by
  obtain ⟨inner, hstep⟩ := r.builtinValues_eq_shapeStep ty ctx
  rw [hstep, Shape.ofType_of_kind r.unit hkind]
  rfl

theorem builtinValues_of_unboxed {ty : TypeName} {k : Kind} (harray : ty.isArray = false) (hkind : ty.kind? = none)
    (hunboxed : r.unit.hierarchy.unboxed? ty = some k) (ctx : Context) :
    r.builtinValues ty ctx = (.ofList (Shape.boxedValues k (ctx.literalTexts (.ofKind k))), ctx) := by
  obtain ⟨inner, hstep⟩ := r.builtinValues_eq_shapeStep ty ctx
  rw [hstep, Shape.ofType_of_unboxed r.unit harray hkind hunboxed]
  rfl

theorem builtinValues_of_wrapper {ty : TypeName} {k : Kind} (harray : ty.isArray = false) (hkind : ty.kind? = none)
    (hstring : k ≠ .string) (hunboxed : r.unit.hierarchy.unboxed? ty = some k) (ctx : Context) :
    ∃ values, r.builtinValues (.ofKind k) ctx = (.ofList values, ctx) ∧
      r.builtinValues ty ctx = (.ofList (.null :: values), ctx) := by
  refine ⟨Shape.primitiveValues k (ctx.literalTexts (.ofKind k)), ?_, ?_⟩
  · exact r.builtinValues_of_kind (TypeName.kind_ofKind k) ctx
  · rw [r.builtinValues_of_unboxed harray hkind hunboxed, Shape.boxedValues_of_ne_string hstring]

/-- **Literals are folded in once each, in the order of their first readings.** In every context, the built-in values of
a type of a value-like kind are the boundary constants of the kind and then values of recorded literals. No two of them
are equal. Every literal that is one of the kind is listed: a number by an equal number, NaN as itself. Nothing is
listed behind the boundary constants but what a recorded text reads as, and it is listed where it is first read when
the texts of the operation, in ascending order, are read before those of the type, in ascending order.

A type that was registered as the wrapper of a kind other than that of strings, and of no other kind, lists null and
then the values of the kind. If it was registered for several kinds, it lists null and then the values of one of them;
nothing says of which. -/
theorem literals_fold_in_order (ctx : Context) :
    (∀ ty k, ty.kind? = some k → ∃ ofOperation ofType values, ctx.Recorded ty ofOperation ofType ∧
      r.builtinValues ty ctx = (.ofList (Value.boundaries k ++ values), ctx) ∧
      Distinct (Value.boundaries k ++ values) ∧
      (∀ text ∈ ofOperation ++ ofType, ∀ v, Value.readLiteral? k text = some v →
        if v.isNaN then v ∈ values else ∃ w ∈ Value.boundaries k ++ values, (w == v) = true) ∧
      (∀ v ∈ values, ∃ text ∈ ofOperation ++ ofType, Value.readLiteral? k text = some v) ∧
      Value.InOrder k (ofOperation ++ ofType) values) ∧
    ∀ ty, ty.isArray = false → ty.kind? = none →
      (∀ k, k ≠ .string → (r.unit.hierarchy.wrappers k).any (· == ty) = true →
        (∀ j, (r.unit.hierarchy.wrappers j).any (· == ty) = true → j = k) →
        ∃ values, r.builtinValues (.ofKind k) ctx = (.ofList values, ctx) ∧
          r.builtinValues ty ctx = (.ofList (.null :: values), ctx)) ∧
      ((∃ k, (r.unit.hierarchy.wrappers k).any (· == ty) = true) →
        (∀ k, (r.unit.hierarchy.wrappers k).any (· == ty) = true → k ≠ .string) →
        ∃ k values, (r.unit.hierarchy.wrappers k).any (· == ty) = true ∧
          r.builtinValues (.ofKind k) ctx = (.ofList values, ctx) ∧
          r.builtinValues ty ctx = (.ofList (.null :: values), ctx)) := by
  refine ⟨fun ty k hkind => ?_, fun ty harray hkind => ⟨fun k hstring hwraps honly => ?_, fun hsome hstrings => ?_⟩⟩
  · obtain ⟨ofOperation, ofType, hrecorded, htexts⟩ := ctx.exists_recorded (TypeName.isArray_of_kind hkind)
    obtain ⟨values, hvalues, horder⟩ := Shape.primitiveValues_inOrder k (ofOperation ++ ofType)
    refine ⟨ofOperation, ofType, values, hrecorded, ?_, ?_, fun text htext v hread => ?_, fun v hv => ?_, horder⟩
    · rw [r.builtinValues_of_kind hkind, htexts, hvalues]
    · rw [← hvalues]
      exact Shape.distinct_primitiveValues k _
    · exact Shape.listed_of_reads hvalues htext hread
    · exact horder.exists_text hv
  · exact r.builtinValues_of_wrapper harray hkind hstring (Hierarchy.unboxed_of_only hwraps honly) ctx
  · obtain ⟨k, hunboxed⟩ := Hierarchy.exists_unboxed hsome
    have hwraps := Hierarchy.wraps_of_unboxed hunboxed
    obtain ⟨values, hvalues⟩ := r.builtinValues_of_wrapper harray hkind (hstrings k hwraps) hunboxed ctx
    exact ⟨k, values, hwraps, hvalues⟩

/-! A gauge that shows numbers. The table of the operation and the table of the type write the same numbers in several
ways, one of them a boundary constant, and both of them record NaN. -/

def gaugeUnit : UnitInfo :=
  { declaring := ⟨"Gauge", "", 0⟩
    hierarchy := Hierarchy.empty.addWrapper .double ⟨"Real", "<T>", 0⟩ }

def gaugeContext : Context :=
  { Context.forType ⟨"Gauge", "", 0⟩ with
    operationLiterals := some <| ["+2.5", "02.5", "-0.0", "wide", "NaN", "7"].foldl
      (fun table text => table.insert ⟨"double", "", 0⟩ text) .empty
    typeLiterals := ["nan", "7d", "NaN", "3", "1e0"].foldl
      (fun table text => table.insert ⟨"double", "", 0⟩ text) .empty }

def gaugeResolver : Resolver := .make (fun _ _ => none) gaugeUnit {}

theorem gauges_fold_in_order :
    (gaugeResolver.builtinValues ⟨"double", "", 0⟩ gaugeContext).1.toList.map Value.shown =
      ["-1.0", "0.0", "1.0", "2.5", "7.0", "NaN", "3.0", "NaN"] ∧
    (∃ ofOperation ofType values, gaugeContext.Recorded ⟨"double", "", 0⟩ ofOperation ofType ∧
      gaugeResolver.builtinValues ⟨"double", "", 0⟩ gaugeContext =
        (.ofList (Value.boundaries .double ++ values), gaugeContext) ∧
      Value.InOrder .double (ofOperation ++ ofType) values) ∧
    ∃ values, gaugeResolver.builtinValues (.ofKind .double) gaugeContext = (.ofList values, gaugeContext) ∧
      gaugeResolver.builtinValues ⟨"Real", "", 0⟩ gaugeContext = (.ofList (.null :: values), gaugeContext) := by
  obtain ⟨hprimitive, hwrapper⟩ := literals_fold_in_order gaugeResolver gaugeContext
  obtain ⟨ofOperation, ofType, values, hrecorded, hvalues, -, -, -, horder⟩ :=
    hprimitive ⟨"double", "", 0⟩ .double (by decide)
  refine ⟨by decide +kernel, ⟨ofOperation, ofType, values, hrecorded, hvalues, horder⟩, ?_⟩
  refine (hwrapper ⟨"Real", "", 0⟩ (by decide) (by decide)).1 .double (by decide) (by decide) fun j => ?_
  cases j <;> decide

/-! Numbers that were registered for two kinds. -/

def numberUnit : UnitInfo :=
  { declaring := ⟨"Gauge", "", 0⟩
    hierarchy := (Hierarchy.empty.addWrapper .int ⟨"Number", "", 0⟩).addWrapper .long ⟨"Number", "", 0⟩ }

def numberResolver (visits : Visits) : Resolver := .make (fun _ _ => none) (numberUnit.visiting visits) {}

/-- a type that was registered for two kinds lists the values of one of them, whatever the order of the visits is -/
theorem numbers_box_one_kind :
    (numberUnit.hierarchy.wrappers .int).any (· == ⟨"Number", "", 0⟩) = true ∧
    (numberUnit.hierarchy.wrappers .long).any (· == ⟨"Number", "", 0⟩) = true ∧
    ∀ visits, ¬ ∀ k, k = .int ∨ k = .long →
      ∃ values, (numberResolver visits).builtinValues (.ofKind k) gaugeContext = (.ofList values, gaugeContext) ∧
        (numberResolver visits).builtinValues ⟨"Number", "", 0⟩ gaugeContext =
          (.ofList (.null :: values), gaugeContext) := by
  refine ⟨by decide, by decide, ?_⟩
  intro visits hboth
  obtain ⟨ints, hints, hnumbers⟩ := hboth .int (Or.inl rfl)
  obtain ⟨longs, hlongs, hnumbers'⟩ := hboth .long (Or.inr rfl)
  rw [(numberResolver visits).builtinValues_of_kind (TypeName.kind_ofKind .int)] at hints
  rw [(numberResolver visits).builtinValues_of_kind (TypeName.kind_ofKind .long)] at hlongs
  have hsame : Value.null :: ints = .null :: longs := by
    have hfirst := congrArg (fun s => s.1.toList) (hnumbers.symm.trans hnumbers')
    simpa only [Sequence.toList_ofList] using hfirst
  have hints' := congrArg (fun s => s.1.toList) hints
  have hlongs' := congrArg (fun s => s.1.toList) hlongs
  simp only [Sequence.toList_ofList] at hints' hlongs'
  rw [← hints', ← hlongs'] at hsame
  exact absurd (congrArg (List.map Value.shown) hsame) (by decide +kernel)

end Resolver

end TestInputs
