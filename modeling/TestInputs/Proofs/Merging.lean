/-
Merging of literal tables. A set of texts is determined by its members and a map by what it binds each key to, since
both are kept in order. Merging joins two tables key by key: a key that one of them binds stays bound, to an empty set
if that is what was there, and a key that both bind gets the union. Hence the laws of union pass to the tables, and
tables can be folded together in any order.

Results:
- `TextSet.eq_of_mem_iff`, `TextMap.eq_of_get`: equal members, equal sets; equal bindings, equal maps;
- `TextMap.get_alter`, `get_merge`: what a changed map and a merged table bind each key to;
- `insert_eq_merge`: to record a literal is to merge with a table of one entry, so that
- `insert_merge`, `merge_insert`: it makes no difference whether an entry is recorded before merging or afterwards;
- `foldl_merge_of_perm`: tables are folded together in any order;
- `tables_form_semilattice`: all of this, and what is read from a merged table is the union.
-/
import Mathlib.Data.List.Perm.Basic
import Mathlib.Data.List.Sort
import TestInputs.Proofs.Literals
import TestInputs.Tuples

namespace TestInputs

/-! ## Sets of texts -/

namespace Text

namespace TextSet

variable {a b : TextSet} {s x : String}

/-- sets with the same members are equal -/
theorem eq_of_mem_iff (h : ∀ x, x ∈ a.items ↔ x ∈ b.items) : a = b := by
  have hitems : a.items = b.items := a.ascending.eq_of_mem_iff b.ascending h
  cases a
  cases b
  cases hitems
  rfl

theorem mem_empty : x ∈ empty.items ↔ False := by
  simp [empty]

theorem mem_insert : x ∈ (a.insert s).items ↔ x = s ∨ x ∈ a.items := mem_insertText

theorem mem_insertAll {texts : List String} : x ∈ (a.insertAll texts).items ↔ x ∈ a.items ∨ x ∈ texts := by
  induction texts generalizing a with
  | nil => simp [insertAll]
  | cons s texts ih =>
    have hstep : a.insertAll (s :: texts) = (a.insert s).insertAll texts := rfl
    rw [hstep, ih, mem_insert, List.mem_cons, or_comm (a := x = s), or_assoc]

theorem mem_union : x ∈ (a.union b).items ↔ x ∈ a.items ∨ x ∈ b.items := mem_insertAll

theorem empty_union (a : TextSet) : empty.union a = a :=
  eq_of_mem_iff fun x => by rw [mem_union, mem_empty, false_or]

theorem union_comm (a b : TextSet) : a.union b = b.union a :=
  eq_of_mem_iff fun x => by rw [mem_union, mem_union, or_comm]

theorem union_assoc (a b c : TextSet) : (a.union b).union c = a.union (b.union c) :=
  eq_of_mem_iff fun x => by rw [mem_union, mem_union, mem_union, mem_union, or_assoc]

theorem union_self (a : TextSet) : a.union a = a :=
  eq_of_mem_iff fun x => by rw [mem_union, or_self]

instance : Std.Commutative union := ⟨union_comm⟩

instance : Std.Associative union := ⟨union_assoc⟩

instance : Std.IdempotentOp union := ⟨union_self⟩

end TextSet

/-! ## Maps -/

section Bindings

variable {β : Type}

/-- the order of entries by their keys -/
def KeyLess (e f : String × β) : Prop := e.1 < f.1

instance : Std.Irrefl (KeyLess : String × β → String × β → Prop) := ⟨fun e => String.lt_irrefl e.1⟩

instance : Std.Antisymm (KeyLess : String × β → String × β → Prop) :=
  ⟨fun _ _ hlt hgt => absurd hgt (String.lt_asymm hlt)⟩

/-- what a list of entries binds a key to -/
def binding (es : List (String × β)) (key : String) : Option β :=
  (es.find? fun e => e.1 == key).map Prod.snd

theorem binding_cons (e : String × β) (es : List (String × β)) (key : String) :
    binding (e :: es) key = if e.1 = key then some e.2 else binding es key := by
  by_cases h : e.1 = key
  · simp [binding, h]
  · simp [binding, h]

/-- no key below all others is bound -/
theorem binding_of_lt {es : List (String × β)} {key : String} (h : ∀ e ∈ es, key < e.1) : binding es key = none := by
  have hnone : es.find? (fun e => e.1 == key) = none := by
    refine List.find?_eq_none.2 fun e he hkey => ?_
    have hlt := h e he
    rw [beq_iff_eq.1 hkey] at hlt
    exact String.lt_irrefl key hlt
  rw [binding, hnone]
  rfl

theorem mem_iff_binding {es : List (String × β)} (h : es.Pairwise KeyLess) {e : String × β} :
    e ∈ es ↔ binding es e.1 = some e.2 := by
  induction es with
  | nil => simp [binding]
  | cons f es ih =>
    obtain ⟨hfirst, hrest⟩ := List.pairwise_cons.1 h
    rw [binding_cons, List.mem_cons]
    by_cases hkey : f.1 = e.1
    · -- the key stands at the front, so no later entry has it
      have hlater : e ∉ es := fun he => String.lt_irrefl f.1 (by simpa [KeyLess, hkey] using hfirst e he)
      rw [if_pos hkey, Option.some.injEq]
      constructor
      · rintro (rfl | he)
        · rfl
        · exact absurd he hlater
      · intro hvalue
        exact Or.inl (Prod.ext hkey.symm hvalue.symm)
    · have hne : e ≠ f := fun he => hkey (congrArg Prod.fst he).symm
      rw [if_neg hkey, ← ih hrest, or_iff_right hne]

theorem binding_alterKey {es : List (String × β)} (h : es.Pairwise KeyLess) (key k : String) (change : Option β → β) :
    binding (alterKey key change es) k = if key = k then some (change (binding es k)) else binding es k := by
  induction es with
  | nil => rw [alterKey, binding_cons]; rfl
  | cons e es ih =>
    obtain ⟨hfirst, hrest⟩ := List.pairwise_cons.1 h
    rw [alterKey]
    by_cases hlt : key < e.1
    · -- the key is new, and below all that are there
      rw [if_pos hlt, binding_cons]
      by_cases hk : key = k
      · subst hk
        have hnew : binding (e :: es) key = none := by
          refine binding_of_lt fun f hf => ?_
          rcases List.mem_cons.1 hf with rfl | hf
          · exact hlt
          · exact String.lt_trans hlt (hfirst f hf)
        rw [if_pos rfl, if_pos rfl, hnew]
      · rw [if_neg hk, if_neg hk]
    · rw [if_neg hlt]
      by_cases hkey : key = e.1
      · rw [if_pos hkey, binding_cons, binding_cons, hkey]
        by_cases hk : e.1 = k
        · rw [if_pos hk, if_pos hk, if_pos hk]
        · rw [if_neg hk, if_neg hk, if_neg hk]
      · rw [if_neg hkey, binding_cons, binding_cons, ih hrest]
        by_cases hk : e.1 = k
        · rw [if_pos hk, if_pos hk, if_neg (hk ▸ hkey)]
        · rw [if_neg hk, if_neg hk]

end Bindings

namespace TextMap

variable {β : Type} {m n : TextMap β}

theorem get_alter (m : TextMap β) (key k : String) (change : Option β → β) :
    (m.alter key change).get? k = if key = k then some (change (m.get? k)) else m.get? k :=
  binding_alterKey m.ascending key k change

/-- maps with the same bindings are equal -/
theorem eq_of_get (h : ∀ k, m.get? k = n.get? k) : m = n := by
  have hmem : ∀ e, e ∈ m.entries ↔ e ∈ n.entries := by
    intro e
    rw [mem_iff_binding m.ascending, mem_iff_binding n.ascending]
    exact Eq.congr_left (h e.1)
  have hm : m.entries.Pairwise KeyLess := m.ascending
  have hentries : m.entries = n.entries := hm.eq_of_mem_iff n.ascending hmem
  cases m
  cases n
  cases hentries
  rfl

end TextMap

end Text

/-! ## Tables -/

namespace LiteralTable

open Text (TextSet TextMap KeyLess binding binding_cons binding_of_lt)

variable {a b c : LiteralTable}

theorem eq_of_parts (hvalues : ∀ k, a.values.get? k = b.values.get? k) (hreferences : a.references = b.references) :
    a = b := by
  have hvalues : a.values = b.values := TextMap.eq_of_get hvalues
  cases a
  cases b
  cases hvalues
  cases hreferences
  rfl

/-- entries with different keys are joined to a map one after the other -/
theorem get_foldl_alter {es : List (String × TextSet)} (h : es.Pairwise KeyLess) (m : TextMap TextSet) (k : String) :
    (es.foldl (fun m e => m.alter e.1 fun old => (old.getD .empty).union e.2) m).get? k =
      Option.merge TextSet.union (m.get? k) (binding es k) := by
  induction es generalizing m with
  | nil => exact Option.merge_none_right.symm
  | cons e es ih =>
    obtain ⟨hfirst, hrest⟩ := List.pairwise_cons.1 h
    rw [List.foldl_cons, ih hrest, TextMap.get_alter, binding_cons]
    by_cases hk : e.1 = k
    · have hlater : binding es k = none := binding_of_lt fun f hf => hk ▸ hfirst f hf
      rw [if_pos hk, if_pos hk, hlater, Option.merge_none_right]
      cases m.get? k with
      | none => rw [Option.getD_none, TextSet.empty_union, Option.merge_none_left]
      | some texts => rfl
    · rw [if_neg hk, if_neg hk]

/-- **Tables are merged key by key.** -/
theorem get_merge (a b : LiteralTable) (k : String) :
    (a.merge b).values.get? k = Option.merge TextSet.union (a.values.get? k) (b.values.get? k) :=
  get_foldl_alter b.values.ascending a.values k

theorem merge_comm (a b : LiteralTable) : a.merge b = b.merge a := by
  refine eq_of_parts (fun k => ?_) (TextSet.union_comm _ _)
  rw [get_merge, get_merge]
  exact Std.Commutative.comm _ _

theorem merge_assoc (a b c : LiteralTable) : (a.merge b).merge c = a.merge (b.merge c) := by
  refine eq_of_parts (fun k => ?_) (TextSet.union_assoc _ _ _)
  rw [get_merge, get_merge, get_merge, get_merge]
  exact Std.Associative.assoc _ _ _

theorem merge_self (a : LiteralTable) : a.merge a = a := by
  refine eq_of_parts (fun k => ?_) (TextSet.union_self _)
  rw [get_merge]
  exact Std.IdempotentOp.idempotent _

theorem merge_empty (a : LiteralTable) : a.merge empty = a := rfl

theorem empty_merge (a : LiteralTable) : empty.merge a = a := (merge_comm empty a).trans (merge_empty a)

instance : Std.Commutative merge := ⟨merge_comm⟩

instance : Std.Associative merge := ⟨merge_assoc⟩

/-! ## Recording and merging -/

/-- recording a literal is merging with the table that holds nothing else -/
theorem insert_eq_merge (a : LiteralTable) (ty : TypeName) (literal : String) :
    a.insert ty literal = a.merge (empty.insert ty literal) := by
  refine eq_of_parts (fun k => ?_) rfl
  rw [get_merge]
  simp only [insert, TextMap.get_alter]
  by_cases hk : ty.name = k
  · rw [if_pos hk, if_pos hk]
    cases a.values.get? k with
    | none => rfl
    | some old => rfl
  · rw [if_neg hk, if_neg hk]
    exact Option.merge_none_right.symm

theorem insertReference_eq_merge (a : LiteralTable) (ty : TypeName) :
    a.insertReference ty = a.merge (empty.insertReference ty) := rfl

theorem merge_right_comm (a b c : LiteralTable) : (a.merge b).merge c = (a.merge c).merge b := by
  rw [merge_assoc, merge_comm b, merge_assoc]

theorem insert_merge (a b : LiteralTable) (ty : TypeName) (literal : String) :
    (a.insert ty literal).merge b = (a.merge b).insert ty literal := by
  rw [insert_eq_merge, merge_right_comm, ← insert_eq_merge]

theorem merge_insert (a b : LiteralTable) (ty : TypeName) (literal : String) :
    a.merge (b.insert ty literal) = (a.merge b).insert ty literal := by
  rw [insert_eq_merge, ← merge_assoc, ← insert_eq_merge]

theorem insertReference_merge (a b : LiteralTable) (ty : TypeName) :
    (a.insertReference ty).merge b = (a.merge b).insertReference ty := by
  rw [insertReference_eq_merge, merge_right_comm, ← insertReference_eq_merge]

theorem merge_insertReference (a b : LiteralTable) (ty : TypeName) :
    a.merge (b.insertReference ty) = (a.merge b).insertReference ty := by
  rw [insertReference_eq_merge, ← merge_assoc, ← insertReference_eq_merge]

/-! ## What is read from a merged table -/

/-- the texts with a property, in strictly ascending order -/
structure Enumerates (P : String → Prop) (texts : List String) : Prop where
  ascending : texts.Pairwise (· < ·)
  members : ∀ text, text ∈ texts ↔ P text

theorem records_merge (a b : LiteralTable) (ty : TypeName) (text : String) :
    (a.merge b).Records ty text ↔ a.Records ty text ∨ b.Records ty text := by
  unfold Records
  rw [get_merge]
  cases a.values.get? ty.name with
  | none => simp
  | some old =>
    cases b.values.get? ty.name with
    | none => simp
    | some texts => simp [TextSet.mem_union]

theorem literalsFor_merge (a b : LiteralTable) (ty : TypeName) :
    Enumerates (fun text => ty.isArray = false ∧ (a.Records ty text ∨ b.Records ty text))
      ((a.merge b).literalsFor ty) := by
  refine ⟨ascending_literalsFor _ ty, fun text => ?_⟩
  cases harray : ty.isArray with
  | true => simp [literalsFor, harray]
  | false => rw [mem_literalsFor harray, records_merge, eq_self, true_and]

theorem references_merge (a b : LiteralTable) :
    Enumerates (fun text => text ∈ a.references.items ∨ text ∈ b.references.items) (a.merge b).references.items :=
  ⟨TextSet.ascending _, fun _ => TextSet.mem_union⟩

/-! ## Folding tables -/

/-- **Tables are folded together in any order.** -/
theorem foldl_merge_of_perm {tables order : List LiteralTable} (h : order.Perm tables) :
    order.foldl merge empty = tables.foldl merge empty :=
  h.foldl_op_eq

end LiteralTable

/-- the tables of code and specification that the settings allow -/
def Resolver.enabledTables (r : Resolver) (code spec : LiteralTable) : List LiteralTable :=
  (if r.config.useLiterals then [code] else []) ++ if r.config.useSpecLiterals then [spec] else []

theorem Resolver.foldl_enabledTables (r : Resolver) (code spec : LiteralTable) :
    (r.enabledTables code spec).foldl LiteralTable.merge .empty = r.enabledLiterals code spec := by
  unfold enabledTables enabledLiterals
  split_ifs
  · rfl
  · rfl
  · rfl
  · rfl

namespace LiteralTable

/-- **Literal tables form a semilattice.** Merging is commutative, associative and idempotent, and the empty table is
its unit. The literals of a type in a merged table are those of both tables, in strictly ascending order, and none for
an array type; the referenced types come from the texts of both tables in the same way. Whether an entry is recorded
before tables are merged or afterwards makes no difference. Hence the literals in effect are those of the tables of code
and specification that the settings allow, in whatever order these are folded. -/
theorem tables_form_semilattice :
    (∀ a b : LiteralTable, a.merge b = b.merge a) ∧
    (∀ a b c : LiteralTable, (a.merge b).merge c = a.merge (b.merge c)) ∧
    (∀ a : LiteralTable, a.merge a = a) ∧
    (∀ a : LiteralTable, a.merge empty = a ∧ empty.merge a = a) ∧
    (∀ (a b : LiteralTable) (ty : TypeName),
      Enumerates (fun text => ty.isArray = false ∧ (a.Records ty text ∨ b.Records ty text))
        ((a.merge b).literalsFor ty)) ∧
    (∀ a b : LiteralTable, ∃ texts,
      Enumerates (fun text => text ∈ a.references.items ∨ text ∈ b.references.items) texts ∧
        (a.merge b).referencedTypes = texts.map TypeName.parse) ∧
    (∀ (a b : LiteralTable) (ty : TypeName) (literal : String),
      (a.insert ty literal).merge b = (a.merge b).insert ty literal ∧
        a.merge (b.insert ty literal) = (a.merge b).insert ty literal) ∧
    (∀ (a b : LiteralTable) (ty : TypeName),
      (a.insertReference ty).merge b = (a.merge b).insertReference ty ∧
        a.merge (b.insertReference ty) = (a.merge b).insertReference ty) ∧
    ∀ (r : Resolver) (code spec : LiteralTable) (order : List LiteralTable), order.Perm (r.enabledTables code spec) →
      order.foldl merge empty = r.enabledLiterals code spec := by
  refine ⟨merge_comm, merge_assoc, merge_self, fun a => ⟨merge_empty a, empty_merge a⟩, literalsFor_merge,
    fun a b => ?_, fun a b ty literal => ?_, fun a b ty => ?_, fun r code spec order horder => ?_⟩
  · exact ⟨_, references_merge a b, rfl⟩
  · exact ⟨insert_merge a b ty literal, merge_insert a b ty literal⟩
  · exact ⟨insertReference_merge a b ty, merge_insertReference a b ty⟩
  · rw [foldl_merge_of_perm horder, r.foldl_enabledTables]

/-! Two tables of a scale. They share a key, each has one of its own, and one of these is bound to no literal. -/

def scaleCode : LiteralTable :=
  (empty.insert ⟨"int", "", 0⟩ "10").insert ⟨"int", "", 0⟩ "2"

def scaleSpec : LiteralTable :=
  { values := { entries := [("int", .ofList ["2", "07"]), ("long", .empty)], ascending := by decide }
    references := .ofList ["Scale"] }

def scaleResolver : Resolver := .make (fun _ _ => none) { declaring := ⟨"Scale", "", 0⟩ } {}

theorem scales_form_semilattice :
    [scaleSpec, scaleCode].Perm (scaleResolver.enabledTables scaleCode scaleSpec) ∧
      [scaleSpec, scaleCode].foldl merge empty = scaleResolver.enabledLiterals scaleCode scaleSpec ∧
      (scaleSpec.merge scaleCode).values.entries = [("int", .ofList ["07", "10", "2"]), ("long", .empty)] := by
  have horder : [scaleSpec, scaleCode].Perm (scaleResolver.enabledTables scaleCode scaleSpec) := .swap ..
  obtain ⟨-, -, -, -, -, -, -, -, hfold⟩ := tables_form_semilattice
  exact ⟨horder, hfold scaleResolver scaleCode scaleSpec _ horder, by decide⟩

end LiteralTable

end TestInputs
