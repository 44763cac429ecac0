/-
Units under test are read back from their documents. A document names types by their texts only, also in the keys of
the hierarchy, where types that differ in their generic parts alone are one type. Nothing is lost by that, because every
unit that can be described or read has canonical names throughout, and its hierarchy has one entry for each type in the
order of the texts. Hooks are not written; all else comes back, each list in its order.

The order in which wrappers are visited is no part of a document, and what is read may have another one. That shows only
where a type was registered for two kinds.

Results:
- `Edges.Canonical.alter`: the hierarchy keeps its form under every change of an entry;
- `Slot.ofDocument_toDocument` and so on up to `UnitInfo.ofDocument_toDocument`: what is written is read back;
- `canonical_ofDocument` for slots, operations, constructors, types, hierarchies and units: whatever is accepted has
  canonical names;
- `UnitInfo.Built.canonical`: so has every unit that is put together by any number of calls;
- `documents_read_back`: the statement for units and settings, and for the tuples that they give.
-/
import TestInputs.Proofs.Declarations
import TestInputs.Proofs.Names
import TestInputs.Proofs.Records

namespace TestInputs

open Document

/-! ## Names and kinds -/

namespace TypeName

theorem ofDocument_toDocument {ty : TypeName} (h : ty.Canonical) : ofDocument ty.toDocument = .ok ty :=
  congrArg Except.ok (parse_text h)

theorem canonical_ofDocument {d : Document} {ty : TypeName} (h : ofDocument d = .ok ty) : ty.Canonical := by
  obtain ⟨text, -, rfl⟩ := map_eq_ok.1 h
  exact canonical_parse text

theorem readList_listToDocument {types : List TypeName} (h : ∀ ty ∈ types, ty.Canonical) :
    readList ofDocument (listToDocument types) = .ok types :=
  readList_self fun ty hty => ofDocument_toDocument (h ty hty)

end TypeName

theorem Kind.ofLabel_label (k : Kind) : ofLabel? k.label = some k := by
  cases k <;> rfl

theorem Kind.ofDocument_label (k : Kind) : ofDocument (.text k.label) = .ok k := by
  simp [ofDocument, readName, ofLabel_label]

theorem Kind.label_injective {j k : Kind} (h : j.label = k.label) : j = k :=
  Option.some.inj (by rw [← ofLabel_label j, h, ofLabel_label])

theorem OperationKind.ofDocument_toDocument (k : OperationKind) : ofDocument k.toDocument = .ok k := by
  cases k <;> rfl

/-! ## Hierarchies -/

namespace Edges

/-- canonical names, one entry for each type, in the order of the texts -/
structure Canonical (edges : Edges) : Prop where
  keys : ∀ e ∈ edges, e.1.Canonical
  supertypes : ∀ e ∈ edges, ∀ t ∈ e.2, t.Canonical
  keyed : edges.Keyed
  ascending : edges.Pairwise fun e f => e.1.text < f.1.text

variable {edges : Edges}

theorem canonical_nil : Canonical [] := ⟨by simp, by simp, .nil, .nil⟩

theorem ascending_place {entry : TypeName × List TypeName} (h : edges.Pairwise fun e f => e.1.text < f.1.text)
    (hnew : ∀ e ∈ edges, entry.1.text ≠ e.1.text) :
    (place entry edges).Pairwise fun e f => e.1.text < f.1.text := by
  induction edges with
  | nil => exact List.pairwise_singleton _ _
  | cons e es ih =>
    obtain ⟨he, hes⟩ := List.pairwise_cons.1 h
    rw [place]
    split_ifs with hlt
    · refine List.pairwise_cons.2 ⟨?_, h⟩
      intro f hf
      rcases List.mem_cons.1 hf with rfl | hf
      · exact hlt
      · exact String.lt_trans hlt (he f hf)
    · refine List.pairwise_cons.2 ⟨?_, ih hes fun f hf => hnew f (List.mem_cons_of_mem _ hf)⟩
      intro f hf
      rcases mem_place.1 hf with rfl | hf
      · exact Std.lt_of_le_of_ne (String.not_lt.1 hlt) (Ne.symm (hnew e List.mem_cons_self))
      · exact he f hf

theorem place_last {entry : TypeName × List TypeName} (h : ∀ e ∈ edges, e.1.text < entry.1.text) :
    place entry edges = edges ++ [entry] := by
  induction edges with
  | nil => rfl
  | cons e es ih =>
    rw [place, if_neg (String.lt_asymm (h e List.mem_cons_self)), ih fun f hf => h f (List.mem_cons_of_mem _ hf)]
    rfl

/-- a type that comes after all others gets an entry at the end -/
theorem alter_last {sub : TypeName} (hnew : ∀ e ∈ edges, (e.1 == sub) = false)
    (hlast : ∀ e ∈ edges, e.1.text < sub.text) (change : List TypeName → List TypeName) :
    edges.alter sub change = edges ++ [(sub, change [])] := by
  have hnone : ¬ (edges.any fun e => e.1 == sub) = true := by
    intro hany
    obtain ⟨e, he, hsame⟩ := List.any_eq_true.1 hany
    rw [hnew e he] at hsame
    cases hsame
  have hplace : place (sub, change []) edges = edges ++ [(sub, change [])] := place_last hlast
  rw [Edges.alter, if_neg hnone, hplace]

/-- **The entries stay in order**, one for each type, when an entry is changed or a new one is made. -/
theorem Canonical.alter (h : edges.Canonical) {sub : TypeName} (hsub : sub.Canonical)
    {change : List TypeName → List TypeName}
    (hchange : ∀ sups, (∀ t ∈ sups, t.Canonical) → ∀ t ∈ change sups, t.Canonical) :
    (edges.alter sub change).Canonical := by
  have hkeyed := keyed_alter h.keyed sub change
  unfold Edges.alter at hkeyed ⊢
  split_ifs at hkeyed ⊢ with hany
  · have hkey : ∀ e : TypeName × List TypeName, (if e.1 == sub then (e.1, change e.2) else e).1 = e.1 := by
      intro e
      split_ifs <;> rfl
    refine ⟨?_, ?_, hkeyed, List.pairwise_map.2 ?_⟩
    · intro e he
      obtain ⟨f, hf, rfl⟩ := List.mem_map.1 he
      rw [hkey]
      exact h.keys f hf
    · intro e he
      obtain ⟨f, hf, rfl⟩ := List.mem_map.1 he
      split_ifs
      · exact hchange f.2 (h.supertypes f hf)
      · exact h.supertypes f hf
    · simp only [hkey]
      exact h.ascending
  · -- a type without an entry has a text of its own, so the order stays strict
    have hnew : ∀ e ∈ edges, sub.text ≠ e.1.text := by
      intro e he htext
      obtain rfl := TypeName.eq_of_text hsub (h.keys e he) htext
      exact hany (List.any_eq_true.2 ⟨e, he, BEq.rfl⟩)
    refine ⟨?_, ?_, hkeyed, ascending_place h.ascending hnew⟩
    · intro e he
      rcases mem_place.1 he with rfl | he
      · exact hsub
      · exact h.keys e he
    · intro e he
      rcases mem_place.1 he with rfl | he
      · exact hchange [] (by simp)
      · exact h.supertypes e he

end Edges

namespace Hierarchy

/-- canonical entries and canonical wrapper types -/
structure Canonical (h : Hierarchy) : Prop where
  edges : h.edges.Canonical
  wrappers : ∀ k ty, h.wrappers k = some ty → ty.Canonical

variable {h : Hierarchy}

theorem canonical_empty : Canonical empty := ⟨Edges.canonical_nil, by simp [empty]⟩

theorem Canonical.addSupertype (hc : h.Canonical) {sub sup : TypeName} (hsub : sub.Canonical) (hsup : sup.Canonical) :
    (h.addSupertype sub sup).Canonical := by
  refine ⟨?_, hc.wrappers⟩
  simp only [Hierarchy.addSupertype]
  refine hc.edges.alter hsub ?_
  intro sups hsups t ht
  split_ifs at ht
  · exact hsups t ht
  · rcases List.mem_append.1 ht with ht | ht
    · exact hsups t ht
    · rw [List.mem_singleton.1 ht]
      exact hsup

theorem Canonical.addWrapper (hc : h.Canonical) (k : Kind) {ty : TypeName} (hty : ty.Canonical) :
    (h.addWrapper k ty).Canonical := by
  refine ⟨hc.edges, fun j t ht => ?_⟩
  simp only [Hierarchy.addWrapper] at ht
  split_ifs at ht
  · cases ht
    exact hty
  · exact hc.wrappers j t ht

theorem Canonical.record (hc : h.Canonical) {edges : List (TypeName × TypeName)}
    (hedges : ∀ e ∈ edges, e.1.Canonical ∧ e.2.Canonical) : (h.record edges).Canonical := by
  induction edges generalizing h with
  | nil => exact hc
  | cons e edges ih =>
    obtain ⟨⟨hsub, hsup⟩, hrest⟩ := List.forall_mem_cons.1 hedges
    exact ih (hc.addSupertype hsub hsup) hrest

end Hierarchy

/-! ## Units -/

/-- all type names of a type have a property -/
structure TypeInfo.AllNames (P : TypeName → Prop) (info : TypeInfo) : Prop where
  ty : P info.ty
  parameters : ∀ c ∈ info.constructors, ∀ p ∈ c.parameters, P p
  subtypes : ∀ t ∈ info.subtypes, P t
  supertypes : ∀ t ∈ info.supertypes, P t

theorem TypeInfo.AllNames.imp {P Q : TypeName → Prop} (hpq : ∀ ty, P ty → Q ty) {info : TypeInfo}
    (h : info.AllNames P) : info.AllNames Q :=
  ⟨hpq _ h.ty, fun c hc p hp => hpq p (h.parameters c hc p hp), fun t ht => hpq t (h.subtypes t ht),
    fun t ht => hpq t (h.supertypes t ht)⟩

theorem Hierarchy.Canonical.link {h : Hierarchy} (hc : h.Canonical) {info : TypeInfo}
    (hinfo : info.AllNames TypeName.Canonical) : (h.link info).Canonical := by
  rw [link_eq_record]
  refine hc.record fun e he => ?_
  rcases List.mem_append.1 he with he | he
  · obtain ⟨sup, hsup, rfl⟩ := List.mem_map.1 he
    exact ⟨hinfo.ty, hinfo.supertypes sup hsup⟩
  · obtain ⟨sub, hsub, rfl⟩ := List.mem_map.1 he
    exact ⟨hinfo.subtypes sub hsub, hinfo.ty⟩

namespace UnitInfo

/-- canonical names in all parts of a unit -/
structure Canonical (u : UnitInfo) : Prop where
  declaring : u.declaring.Canonical
  slots : ∀ op ∈ u.operations, ∀ s ∈ op.parameters, s.ty.Canonical
  types : ∀ info ∈ u.types, info.AllNames TypeName.Canonical
  hierarchy : u.hierarchy.Canonical

/-- a unit that is read from a document, or put together from names that can be read or derived -/
inductive Built : UnitInfo → Prop
  | start {declaring : TypeName} (name : declaring.Reached) : Built { declaring }
  | type {u : UnitInfo} {info : TypeInfo} (unit : Built u) (names : info.AllNames TypeName.Reached) :
      Built (u.addType info)
  | operation {u : UnitInfo} {op : Operation} (unit : Built u) (names : ∀ s ∈ op.parameters, s.ty.Reached) :
      Built (u.addOperation op)
  | wrapper {u : UnitInfo} {k : Kind} {ty : TypeName} (unit : Built u) (name : ty.Reached) : Built (u.addWrapper k ty)
  | link {u : UnitInfo} (unit : Built u) : Built u.linkTypes
  | visit {u : UnitInfo} (visits : Visits) (unit : Built u) : Built (u.visiting visits)
  | read {d : Document} {u : UnitInfo} (accepted : ofDocument d = .ok u) : Built u

end UnitInfo

/-! ## What is written is read back -/

theorem Slot.ofDocument_toDocument {s : Slot} (h : s.ty.Canonical) : ofDocument s.toDocument = .ok s := by
  rw [ofDocument, toDocument, readFields_record _ _ ["name", "operation", "ordinal", "ty"] (by rfl) (by decide)]
  simp [readNamed, field, readText, TypeName.ofDocument_toDocument h, Draft.finish, required]

theorem Operation.ofDocument_toDocument {op : Operation} (h : ∀ s ∈ op.parameters, s.ty.Canonical) :
    ofDocument op.toDocument = .ok op := by
  have hslots : readList Slot.ofDocument (.list (op.parameters.map Slot.toDocument)) = .ok op.parameters :=
    readList_self fun s hs => Slot.ofDocument_toDocument (h s hs)
  rw [ofDocument, toDocument,
    readFields_record _ _ ["id", "kind", "literals", "name", "parameters", "spec_literals"] (by rfl) (by decide)]
  simp [readNamed, field, readText, OperationKind.ofDocument_toDocument, LiteralTable.ofDocument_toDocument, hslots,
    Draft.finish, required]

/-- the constructor as it is written -/
def Constructor.withoutHook (c : Constructor) : Constructor := { c with hook := none }

theorem Constructor.ofDocument_toDocument {c : Constructor} (h : ∀ p ∈ c.parameters, p.Canonical) :
    ofDocument c.toDocument = .ok c.withoutHook := by
  rw [ofDocument, toDocument, readFields_record _ _ ["parameters"] (by rfl) (by decide)]
  simp [readNamed, field, TypeName.readList_listToDocument h, required, withoutHook]

/-- the type as it is written -/
def TypeInfo.withoutHooks (info : TypeInfo) : TypeInfo :=
  { info with constructors := info.constructors.map Constructor.withoutHook }

theorem TypeInfo.ofDocument_toDocument {info : TypeInfo} (h : info.AllNames TypeName.Canonical) :
    ofDocument info.toDocument = .ok info.withoutHooks := by
  have hconstructors : readList Constructor.ofDocument (.list (info.constructors.map Constructor.toDocument)) =
      .ok (info.constructors.map Constructor.withoutHook) :=
    readList_map fun c hc => Constructor.ofDocument_toDocument (h.parameters c hc)
  have hconstants : readList readText (.list (info.constants.map .text)) = .ok info.constants :=
    readList_self fun _ _ => rfl
  rw [ofDocument, toDocument,
    readFields_record _ _
      ["constructors", "enum_constants", "is_abstract", "literals", "spec_literals", "subtypes",
        "supertypes", "ty"] (by rfl) (by decide)]
  simp [readNamed, field, readBoolean, TypeName.ofDocument_toDocument h.ty,
    TypeName.readList_listToDocument h.subtypes, TypeName.readList_listToDocument h.supertypes,
    LiteralTable.ofDocument_toDocument, hconstructors, hconstants, Draft.finish, required, withoutHooks]

namespace Hierarchy

theorem edgesOfDocument_record {edges : Edges} (h : edges.Canonical) :
    edgesOfDocument (.record (edges.map fun e => (e.1.text, TypeName.listToDocument e.2))) = .ok edges := by
  have hascending : (edges.map fun e => (e.1.text, TypeName.listToDocument e.2)).Pairwise (·.1 < ·.1) :=
    List.pairwise_map.2 h.ascending
  have hstep : ∀ done e rest, ∀ read : Edges, edges = done ++ e :: rest → read = done →
      ∃ read', ((readList TypeName.ofDocument (TypeName.listToDocument e.2)).map fun sups =>
        read.alter (TypeName.parse e.1.text) fun _ => sups) = .ok read' ∧ read' = done ++ [e] := by
    -- each entry comes after those that were read before it, and for another type
    rintro done e rest read hsplit rfl
    have hmem : e ∈ edges := by simp [hsplit]
    have hkeyed := h.keyed
    have htexts := h.ascending
    rw [Edges.Keyed, hsplit] at hkeyed
    rw [hsplit] at htexts
    have hnew : ∀ f ∈ read, (f.1 == e.1) = false :=
      fun f hf => (List.pairwise_append.1 hkeyed).2.2 f hf e List.mem_cons_self
    have hlast : ∀ f ∈ read, f.1.text < e.1.text :=
      fun f hf => (List.pairwise_append.1 htexts).2.2 f hf e List.mem_cons_self
    rw [TypeName.readList_listToDocument (h.supertypes e hmem), TypeName.parse_text (h.keys e hmem)]
    exact ⟨_, rfl, Edges.alter_last hnew hlast _⟩
  obtain ⟨read, hread, rfl⟩ := foldlM_accumulates
    (fun e : TypeName × List TypeName => (e.1.text, TypeName.listToDocument e.2))
    (fun (edges : Edges) f => (readList TypeName.ofDocument f.2).map fun sups =>
      edges.alter (TypeName.parse f.1) fun _ => sups) (fun done read => read = done) rfl hstep
  rw [edgesOfDocument, readEntries, sortFields_eq_self hascending]
  exact hread

/-- the wrapper types after one more field -/
def readWrapper (wrappers : Kind → Option TypeName) (f : String × Document) : Reading (Kind → Option TypeName) := do
  let k ← Kind.ofDocument (.text f.1)
  let ty ← TypeName.ofDocument f.2
  return fun j => if j = k then some ty else wrappers j

theorem readWrapper_label (wrappers : Kind → Option TypeName) (k : Kind) {ty : TypeName} (h : ty.Canonical) :
    readWrapper wrappers (k.label, ty.toDocument) = .ok fun j => if j = k then some ty else wrappers j := by
  simp only [readWrapper, Kind.ofDocument_label, TypeName.ofDocument_toDocument h]
  rfl

/-- what has been read of wrapper types: those of the kinds that a field was named for -/
def ReadSoFar (wrappers : Kind → Option TypeName) (done : List (String × Document)) (read : Kind → Option TypeName) :
    Prop :=
  ∀ j : Kind, (∃ f ∈ done, f.1 = j.label) ∧ read j = wrappers j ∨ (∀ f ∈ done, f.1 ≠ j.label) ∧ read j = none

theorem ReadSoFar.next {wrappers read : Kind → Option TypeName} {done : List (String × Document)}
    (h : ReadSoFar wrappers done read) {k : Kind} {ty : TypeName} (hk : wrappers k = some ty) :
    ReadSoFar wrappers (done ++ [(k.label, ty.toDocument)]) fun j => if j = k then some ty else read j := by
  intro j
  by_cases hj : j = k
  · subst hj
    exact Or.inl ⟨⟨_, List.mem_append_right _ List.mem_cons_self, rfl⟩, by simp only [if_true, hk]⟩
  · simp only [if_neg hj]
    rcases h j with ⟨⟨f, hf, hfj⟩, hread⟩ | ⟨hnone, hread⟩
    · exact Or.inl ⟨⟨f, List.mem_append_left _ hf, hfj⟩, hread⟩
    · refine Or.inr ⟨?_, hread⟩
      intro f hf hfj
      rcases List.mem_append.1 hf with hf | hf
      · exact hnone f hf hfj
      · rw [List.mem_singleton.1 hf] at hfj
        exact hj (Kind.label_injective hfj).symm

/-- wrapper types are read in the order of the names of their kinds, which is not that of the kinds -/
theorem wrappersOfDocument_record {wrappers : Kind → Option TypeName}
    (h : ∀ k ty, wrappers k = some ty → ty.Canonical) :
    wrappersOfDocument (.record (Kind.all.filterMap fun k => (wrappers k).map fun ty => (k.label, ty.toDocument))) =
      .ok wrappers := by
  let fields := Kind.all.filterMap fun k => (wrappers k).map fun ty => (k.label, ty.toDocument)
  have hfields : ∀ f, f ∈ sortFields fields ↔ ∃ k ty, wrappers k = some ty ∧ (k.label, ty.toDocument) = f := by
    intro f
    have hall : ∀ k, k ∈ Kind.all := by intro k; cases k <;> decide
    simp only [mem_sortFields, fields, List.mem_filterMap, hall, true_and, Option.map_eq_some_iff]
  have hstart : ReadSoFar wrappers [] fun _ => none := fun j => Or.inr ⟨by simp, rfl⟩
  obtain ⟨read, hread, hall⟩ : ∃ read, ((sortFields fields).map id).foldlM readWrapper (fun _ => none) = .ok read ∧
      ReadSoFar wrappers (sortFields fields) read := by
    refine foldlM_accumulates id readWrapper (ReadSoFar wrappers) hstart ?_
    intro done f rest read hsplit hdone
    obtain ⟨k, ty, hk, rfl⟩ := (hfields f).1 (by simp [hsplit])
    exact ⟨_, readWrapper_label read k (h k ty hk), hdone.next hk⟩
  rw [List.map_id] at hread
  have hsame : read = wrappers := by
    funext j
    rcases hall j with ⟨-, hj⟩ | ⟨hnone, hj⟩
    · exact hj
    · rw [hj]
      cases hw : wrappers j with
      | none => rfl
      | some ty => exact absurd rfl (hnone (j.label, ty.toDocument) ((hfields _).2 ⟨j, ty, hw, rfl⟩))
  exact hread.trans (congrArg Except.ok hsame)

theorem ofDocument_toDocument {h : Hierarchy} (hc : h.Canonical) :
    ofDocument h.toDocument = .ok (h.visiting .inOrder) := by
  rw [ofDocument, toDocument, readFields_record _ _ ["supertypes", "wrappers"] (by rfl) (by decide)]
  simp [readNamed, field, edgesOfDocument_record hc.edges, wrappersOfDocument_record hc.wrappers, visiting, empty]

end Hierarchy

namespace UnitInfo

/-- the unit as it is written -/
def withoutHooks (u : UnitInfo) : UnitInfo :=
  { u with types := u.types.map TypeInfo.withoutHooks }

/-- **A unit is read back** as it was, but for its hooks and the order of visits. -/
theorem ofDocument_toDocument {u : UnitInfo} (h : u.Canonical) :
    ofDocument u.toDocument = .ok (u.withoutHooks.visiting .inOrder) := by
  have hoperations : readList Operation.ofDocument (.list (u.operations.map Operation.toDocument)) =
      .ok u.operations := readList_self fun op hop => Operation.ofDocument_toDocument (h.slots op hop)
  have htypes : readList TypeInfo.ofDocument (.list (u.types.map TypeInfo.toDocument)) =
      .ok (u.types.map TypeInfo.withoutHooks) :=
    readList_map fun info hinfo => TypeInfo.ofDocument_toDocument (h.types info hinfo)
  rw [ofDocument, toDocument,
    readFields_record _ _ ["declaring", "hierarchy", "operations", "types"] (by rfl) (by decide)]
  simp [readNamed, field, TypeName.ofDocument_toDocument h.declaring, hoperations, htypes,
    Hierarchy.ofDocument_toDocument h.hierarchy, Draft.finish, required, withoutHooks, visiting]

end UnitInfo

/-! ## What is accepted has canonical names -/

theorem Slot.canonical_ofDocument {d : Document} {s : Slot} (h : ofDocument d = .ok s) : s.ty.Canonical := by
  obtain ⟨draft, hread, hfinish⟩ := bind_eq_ok.1 h
  have hdraft : ∀ ty, draft.ty = some ty → ty.Canonical := by
    refine readFields_invariant (P := fun s : Draft => ∀ ty, s.ty = some ty → ty.Canonical) ?_ (by simp) hread
    simp only [List.forall_mem_cons]
    refine ⟨keeps_field fun s d x hs _ => hs, keeps_field ?_, keeps_field fun s d x hs _ => hs,
      keeps_field fun s d x hs _ => hs, by simp⟩
    intro s d ty _ hty t ht
    cases ht
    exact TypeName.canonical_ofDocument hty
  obtain ⟨operation, -, hfinish⟩ := bind_eq_ok.1 hfinish
  obtain ⟨ty, hty, hfinish⟩ := bind_eq_ok.1 hfinish
  obtain ⟨ordinal, -, hfinish⟩ := bind_eq_ok.1 hfinish
  obtain ⟨name, -, hfinish⟩ := bind_eq_ok.1 hfinish
  cases hfinish
  exact hdraft ty (required_eq_ok.1 hty)

theorem Operation.canonical_ofDocument {d : Document} {op : Operation} (h : ofDocument d = .ok op) :
    ∀ s ∈ op.parameters, s.ty.Canonical := by
  obtain ⟨draft, hread, hfinish⟩ := bind_eq_ok.1 h
  have hdraft : ∀ slots, draft.parameters = some slots → ∀ s ∈ slots, s.ty.Canonical := by
    refine readFields_invariant
      (P := fun s : Draft => ∀ slots, s.parameters = some slots → ∀ s ∈ slots, s.ty.Canonical) ?_ (by simp) hread
    simp only [List.forall_mem_cons]
    refine ⟨keeps_field fun s d x hs _ => hs, keeps_field fun s d x hs _ => hs, keeps_field fun s d x hs _ => hs,
      keeps_field ?_, keeps_field fun s d x hs _ => hs, keeps_field fun s d x hs _ => hs, by simp⟩
    intro s d slots _ hslots slots' h'
    cases h'
    exact readList_all (fun _ _ => Slot.canonical_ofDocument) hslots
  obtain ⟨id, -, hfinish⟩ := bind_eq_ok.1 hfinish
  obtain ⟨name, -, hfinish⟩ := bind_eq_ok.1 hfinish
  obtain ⟨kind, -, hfinish⟩ := bind_eq_ok.1 hfinish
  obtain ⟨slots, hslots, hfinish⟩ := bind_eq_ok.1 hfinish
  cases hfinish
  exact hdraft slots (required_eq_ok.1 hslots)

theorem Constructor.canonical_ofDocument {d : Document} {c : Constructor} (h : ofDocument d = .ok c) :
    ∀ p ∈ c.parameters, p.Canonical := by
  obtain ⟨draft, hread, hfinish⟩ := bind_eq_ok.1 h
  have hdraft : ∀ parameters, draft = some parameters → ∀ p ∈ parameters, p.Canonical := by
    refine readFields_invariant
      (P := fun s : Option (List TypeName) => ∀ parameters, s = some parameters → ∀ p ∈ parameters, p.Canonical) ?_
      (by simp) hread
    simp only [List.forall_mem_cons]
    refine ⟨keeps_field ?_, by simp⟩
    intro s d parameters _ hparameters parameters' h'
    cases h'
    exact readList_all (fun _ _ => TypeName.canonical_ofDocument) hparameters
  obtain ⟨parameters, hparameters, rfl⟩ := map_eq_ok.1 hfinish
  exact hdraft parameters (required_eq_ok.1 hparameters)

/-- canonical names in what has been read of a type -/
structure TypeInfo.Draft.Canonical (s : TypeInfo.Draft) : Prop where
  ty : ∀ ty, s.ty = some ty → ty.Canonical
  parameters : ∀ c ∈ s.constructors, ∀ p ∈ c.parameters, p.Canonical
  subtypes : ∀ t ∈ s.subtypes, t.Canonical
  supertypes : ∀ t ∈ s.supertypes, t.Canonical

theorem TypeInfo.canonical_ofDocument {d : Document} {info : TypeInfo} (h : ofDocument d = .ok info) :
    info.AllNames TypeName.Canonical := by
  obtain ⟨draft, hread, hfinish⟩ := bind_eq_ok.1 h
  have hdraft : draft.Canonical := by
    refine readFields_invariant ?_ ⟨by simp, by simp, by simp, by simp⟩ hread
    simp only [List.forall_mem_cons]
    refine ⟨keeps_field ?_, keeps_field fun s d x hs _ => ⟨hs.1, hs.2, hs.3, hs.4⟩,
      keeps_field fun s d x hs _ => ⟨hs.1, hs.2, hs.3, hs.4⟩, keeps_field ?_, keeps_field ?_, keeps_field ?_,
      keeps_field fun s d x hs _ => ⟨hs.1, hs.2, hs.3, hs.4⟩, keeps_field fun s d x hs _ => ⟨hs.1, hs.2, hs.3, hs.4⟩,
      by simp⟩
    · intro s d ty hs hty
      refine ⟨fun t ht => ?_, hs.parameters, hs.subtypes, hs.supertypes⟩
      cases ht
      exact TypeName.canonical_ofDocument hty
    · intro s d constructors hs hread
      exact ⟨hs.ty, readList_all (fun _ _ => Constructor.canonical_ofDocument) hread, hs.subtypes, hs.supertypes⟩
    · intro s d subtypes hs hread
      exact ⟨hs.ty, hs.parameters, readList_all (fun _ _ => TypeName.canonical_ofDocument) hread, hs.supertypes⟩
    · intro s d supertypes hs hread
      exact ⟨hs.ty, hs.parameters, hs.subtypes, readList_all (fun _ _ => TypeName.canonical_ofDocument) hread⟩
  obtain ⟨ty, hty, rfl⟩ := map_eq_ok.1 hfinish
  exact ⟨hdraft.ty ty (required_eq_ok.1 hty), hdraft.parameters, hdraft.subtypes, hdraft.supertypes⟩

theorem Hierarchy.canonical_ofDocument {d : Document} {h : Hierarchy} (hread : ofDocument d = .ok h) :
    h.Canonical := by
  refine readFields_invariant ?_ canonical_empty hread
  simp only [List.forall_mem_cons]
  refine ⟨keeps_field ?_, keeps_field ?_, by simp⟩
  · intro h d edges hh hedges
    refine ⟨readEntries_invariant ?_ Edges.canonical_nil hedges, hh.wrappers⟩
    intro edges key d edges' hc hentry
    obtain ⟨sups, hsups, rfl⟩ := map_eq_ok.1 hentry
    have hcanonical := readList_all (fun _ _ => TypeName.canonical_ofDocument) hsups
    exact hc.alter (TypeName.canonical_parse key) fun _ _ => hcanonical
  · intro h d wrappers hh hwrappers
    refine ⟨hh.edges, ?_⟩
    refine readEntries_invariant (P := fun w : Kind → Option TypeName => ∀ k ty, w k = some ty → ty.Canonical) ?_
      (by simp) hwrappers
    intro wrappers key d wrappers' hc hentry j t ht
    obtain ⟨k, -, hentry⟩ := bind_eq_ok.1 hentry
    obtain ⟨ty, hty, hentry⟩ := bind_eq_ok.1 hentry
    cases hentry
    simp only at ht
    split_ifs at ht
    · cases ht
      exact TypeName.canonical_ofDocument hty
    · exact hc j t ht

namespace UnitInfo

/-- canonical names in what has been read of a unit -/
structure Draft.Canonical (s : Draft) : Prop where
  declaring : ∀ ty, s.declaring = some ty → ty.Canonical
  slots : ∀ op ∈ s.operations, ∀ slot ∈ op.parameters, slot.ty.Canonical
  types : ∀ info ∈ s.types, info.AllNames TypeName.Canonical
  hierarchy : s.hierarchy.Canonical

theorem canonical_ofDocument {d : Document} {u : UnitInfo} (h : ofDocument d = .ok u) : u.Canonical := by
  obtain ⟨draft, hread, hfinish⟩ := bind_eq_ok.1 h
  have hdraft : draft.Canonical := by
    refine readFields_invariant ?_ ⟨by simp, by simp, by simp, Hierarchy.canonical_empty⟩ hread
    simp only [List.forall_mem_cons]
    refine ⟨keeps_field ?_, keeps_field ?_, keeps_field ?_, keeps_field ?_, by simp⟩
    · intro s d ty hs hty
      refine ⟨fun t ht => ?_, hs.slots, hs.types, hs.hierarchy⟩
      cases ht
      exact TypeName.canonical_ofDocument hty
    · intro s d operations hs hread
      exact ⟨hs.declaring, readList_all (fun _ _ => Operation.canonical_ofDocument) hread, hs.types, hs.hierarchy⟩
    · intro s d types hs hread
      exact ⟨hs.declaring, hs.slots, readList_all (fun _ _ => TypeInfo.canonical_ofDocument) hread, hs.hierarchy⟩
    · intro s d hierarchy hs hread
      exact ⟨hs.declaring, hs.slots, hs.types, Hierarchy.canonical_ofDocument hread⟩
  obtain ⟨declaring, hdeclaring, rfl⟩ := map_eq_ok.1 hfinish
  exact ⟨hdraft.declaring declaring (required_eq_ok.1 hdeclaring), hdraft.slots, hdraft.types, hdraft.hierarchy⟩

/-! ## Units that are put together -/

theorem Canonical.linkTypes {u : UnitInfo} (h : u.Canonical) : u.linkTypes.Canonical := by
  refine ⟨h.declaring, h.slots, h.types, ?_⟩
  exact List.foldlRecOn (motive := fun g : Hierarchy => g.Canonical) u.types _ h.hierarchy
    fun _ hg info hinfo => hg.link (h.types info hinfo)

/-- **Every unit has canonical names**, however it was put together. -/
theorem Built.canonical {u : UnitInfo} (h : u.Built) : u.Canonical := by
  induction h with
  | start name => exact ⟨name.canonical, by simp, by simp, Hierarchy.canonical_empty⟩
  | type _ names ih =>
    -- linking may make entries for the subtypes as well as for the type itself
    have hinfo := names.imp fun _ => TypeName.Reached.canonical
    refine ⟨ih.declaring, ih.slots, ?_, ih.hierarchy.link hinfo⟩
    intro t ht
    rcases mem_replaceType ht with rfl | ht
    · exact hinfo
    · exact ih.types t ht
  | operation _ names ih =>
    refine ⟨ih.declaring, ?_, ih.types, ih.hierarchy⟩
    intro op hop
    rcases List.mem_append.1 hop with hop | hop
    · exact ih.slots op hop
    · rw [List.mem_singleton.1 hop]
      exact fun s hs => (names s hs).canonical
  | wrapper _ name ih => exact ⟨ih.declaring, ih.slots, ih.types, ih.hierarchy.addWrapper _ name.canonical⟩
  | link _ ih => exact ih.linkTypes
  | visit visits _ ih => exact ⟨ih.declaring, ih.slots, ih.types, ih.hierarchy.edges, ih.hierarchy.wrappers⟩
  | read accepted => exact canonical_ofDocument accepted

theorem withoutHooks_eq_self {u : UnitInfo} (h : ∀ info ∈ u.types, ∀ c ∈ info.constructors, c.hook = none) :
    u.withoutHooks = u := by
  have hconstructor : ∀ c : Constructor, c.hook = none → c.withoutHook = c := by
    rintro ⟨parameters, hook⟩ rfl
    rfl
  have hinfo : ∀ info ∈ u.types, info.withoutHooks = info := by
    intro info hinfo
    have hsame : ∀ c ∈ info.constructors, c.withoutHook = id c := fun c hc => hconstructor c (h info hinfo c hc)
    rw [TypeInfo.withoutHooks, List.map_congr_left hsame, List.map_id]
  have hsame : ∀ info ∈ u.types, info.withoutHooks = id info := hinfo
  rw [withoutHooks, List.map_congr_left hsame, List.map_id]

end UnitInfo

/-- a slot for a type that was registered for two kinds has the values of the kind that is visited first -/
example :
    let unit := UnitInfo.addWrapper (UnitInfo.addWrapper { declaring := .parse "Switch" } .boolean (.parse "Flag")) .int
      (.parse "Flag")
    let flags (visits : Visits) := ((Resolver.make (fun _ _ => none) (unit.visiting visits) {}).tuples
      (.ofTexts "set" .staticMethod ["Flag"])).toOption.map fun t => t.tuples.toList.length
    flags .inOrder = some 3 ∧ flags Resolver.backwards = some 4 := by
  decide +kernel

/-! Books on a shelf. Names are given with generic parts, blanks and brackets; pages have a constructor with a hook. -/

theorem Operation.reached_ofTexts (name : String) (kind : OperationKind) (types : List String) :
    ∀ s ∈ (ofTexts name kind types).parameters, s.ty.Reached := by
  intro s hs
  obtain ⟨i, hi, rfl⟩ := List.mem_mapIdx.1 hs
  exact .parse _

def bookType : TypeInfo :=
  { ty := .parse " lib.Book<T extends Page[]> "
    constructors := [⟨[.parse "int", .parse "lib.Page [] []"], none⟩]
    subtypes := [.parse "lib.Atlas<T>"]
    supertypes := [.parse "lib.Item"]
    literals := LiteralTable.empty.insert (.parse "int") "41" }

def shelfUnit : UnitInfo :=
  let described := UnitInfo.addType { declaring := .parse "lib.Shelf" } bookType
  (described.addWrapper .int (.parse "java.lang.Integer")).addOperation
    (.ofTexts "put" .method ["lib.Book<T>", "int[]"])

def pageType : TypeInfo :=
  { ty := .parse "lib.Page", constructors := [⟨[.parse "char"], some fun _ => .error ⟨"a blank page"⟩⟩] }

def pagedShelf : UnitInfo := (shelfUnit.addType pageType).linkTypes

def shelfSettings : Config := { maxArrayLength := 3, useSubtypes := false }

theorem built_shelfUnit : shelfUnit.Built := by
  have hnames : bookType.AllNames TypeName.Reached :=
    ⟨.parse _, by simpa [bookType] using ⟨.parse _, .parse _⟩, by simpa [bookType] using .parse _,
      by simpa [bookType] using .parse _⟩
  exact .operation (.wrapper (.type (.start (.parse _)) hnames) (.parse _)) (Operation.reached_ofTexts _ _ _)

theorem built_pagedShelf : pagedShelf.Built := by
  have hnames : pageType.AllNames TypeName.Reached :=
    ⟨.parse _, by simpa [pageType] using .parse _, by simp [pageType], by simp [pageType]⟩
  exact .link (.type built_shelfUnit hnames)

end TestInputs
