/-
Paths along declared edges. The search behind assignability works on a queue and uses up the edges of each type that it
visits; what it answers is whether a path leads from the queue to the target. A path that passes a visited type goes on
from one of its direct supertypes, which are in the queue by then, so nothing is missed.

Hence assignability depends on the edges and wrappers alone, not on the order or the texts in which edges were recorded,
and linking records exactly the edges that types declare. An edge that is there already is not recorded again.

Results:
- `reaches_iff`: the search finds the target if and only if a path leads there from the queue;
- `isAssignable_of_sameEdges`: hierarchies with the same edges and wrappers agree on all pairs of types;
- `leads_link_iff`: after linking a type there are its declared edges and those from before, and no others;
- `linkTypes_eq`: linking changes nothing when the declared edges of all types are recorded.
-/
import TestInputs.Proofs.Assignability

namespace TestInputs

/-- among members with different types, equal types mean the same member -/
theorem eq_of_pairwise_beq {α : Type} {key : α → TypeName} {xs : List α}
    (h : xs.Pairwise fun x y => (key x == key y) = false) {x y : α} (hx : x ∈ xs) (hy : y ∈ xs)
    (hxy : (key x == key y) = true) : x = y := by
  induction xs with
  | nil => simp at hx
  | cons z zs ih =>
    obtain ⟨hz, hzs⟩ := List.pairwise_cons.1 h
    rcases List.mem_cons.1 hx with rfl | hxs
    · rcases List.mem_cons.1 hy with rfl | hys
      · rfl
      · rw [hz y hys] at hxy
        cases hxy
    · rcases List.mem_cons.1 hy with rfl | hys
      · rw [BEq.comm, hz x hxs] at hxy
        cases hxy
      · exact ih hzs hxs hys

namespace Edges

/-! ## Paths -/

/-- declared edges lead from a type to another, or the types are equal -/
inductive Path (edges : Edges) : TypeName → TypeName → Prop
  | done {a b : TypeName} : (a == b) = true → Path edges a b
  | step {a b c : TypeName} : edges.Leads a b → Path edges b c → Path edges a c

variable {edges other : Edges} {a b ty target : TypeName}

theorem Leads.congr_left (h : edges.Leads a ty) (he : (a == b) = true) : edges.Leads b ty := by
  rw [Leads, parents_congr he] at h
  exact h

theorem Leads.congr_right (h : edges.Leads ty a) (he : (a == b) = true) : edges.Leads ty b := by
  obtain ⟨p, hp, hpa⟩ := h
  exact ⟨p, hp, BEq.trans hpa he⟩

theorem Path.congr (h : edges.Path a target) (he : (a == b) = true) : edges.Path b target := by
  cases h with
  | done hat => exact .done (BEq.trans (BEq.symm he) hat)
  | step hleads hpath => exact .step (hleads.congr_left he) hpath

theorem Path.mono (hsub : ∀ a b, edges.Leads a b → other.Leads a b) (h : edges.Path a target) :
    other.Path a target := by
  induction h with
  | done he => exact .done he
  | step hleads _ ih => exact .step (hsub _ _ hleads) ih

/-! ## The search -/

theorem leads_of_leads_without (h : (edges.without ty).Leads a b) : edges.Leads a b := by
  obtain ⟨p, hp, he⟩ := h
  obtain ⟨e, hmem, hrest⟩ := mem_parents.1 hp
  exact ⟨p, mem_parents.2 ⟨e, (List.mem_filter.1 hmem).1, hrest⟩, he⟩

theorem leads_without (hne : ¬ (a == ty) = true) (h : edges.Leads a b) : (edges.without ty).Leads a b := by
  obtain ⟨p, hp, he⟩ := h
  obtain ⟨e, hmem, hea, hpe⟩ := mem_parents.1 hp
  refine ⟨p, mem_parents.2 ⟨e, List.mem_filter.2 ⟨hmem, ?_⟩, hea, hpe⟩, he⟩
  rw [Bool.not_eq_true', Bool.eq_false_iff]
  intro hety
  exact hne (BEq.trans (BEq.symm hea) hety)

/-- a path avoids a type, or what follows its last visit starts at a direct supertype -/
theorem path_without (h : edges.Path a target) :
    (edges.without ty).Path a target ∨ (ty == target) = true ∨
      ∃ p ∈ edges.parents ty, (edges.without ty).Path p target := by
  induction h with
  | done he => exact Or.inl (.done he)
  | @step a b target hleads _ ih =>
    rcases ih with havoids | hlater
    · by_cases hty : (a == ty) = true
      · obtain ⟨p, hp, hpb⟩ := hleads.congr_left hty
        exact Or.inr (Or.inr ⟨p, hp, havoids.congr (BEq.symm hpb)⟩)
      · exact Or.inl (.step (leads_without hty hleads) havoids)
    · exact Or.inr hlater

/-- from the type itself no edge is left, so a path goes on from a direct supertype -/
theorem path_from (h : edges.Path ty target) :
    (ty == target) = true ∨ ∃ p ∈ edges.parents ty, (edges.without ty).Path p target := by
  cases h with
  | done he => exact Or.inl he
  | step hleads hpath =>
    rcases path_without hpath with havoids | hlater
    · obtain ⟨p, hp, hpb⟩ := hleads
      exact Or.inr ⟨p, hp, havoids.congr (BEq.symm hpb)⟩
    · exact hlater

theorem reaches_iff {queue : List TypeName} :
    edges.reaches target queue = true ↔ ∃ s ∈ queue, edges.Path s target := by
  fun_induction reaches target edges queue with
  | case1 => simp
  | case2 edges ty rest ih =>
    rw [Bool.or_eq_true, ih]
    constructor
    · rintro (he | ⟨s, hs, hpath⟩)
      · exact ⟨ty, List.mem_cons_self, .done he⟩
      · have hpath : edges.Path s target := hpath.mono fun _ _ => leads_of_leads_without
        rcases List.mem_append.1 hs with hs | hs
        · exact ⟨s, List.mem_cons_of_mem _ hs, hpath⟩
        · exact ⟨ty, List.mem_cons_self, .step ⟨s, hs, BEq.rfl⟩ hpath⟩
    · rintro ⟨s, hs, hpath⟩
      have hqueued : ∀ p ∈ edges.parents ty, p ∈ rest ++ edges.parents ty := fun p hp => List.mem_append_right _ hp
      rcases List.mem_cons.1 hs with rfl | hs
      · rcases path_from hpath with he | ⟨p, hp, hrest⟩
        · exact Or.inl he
        · exact Or.inr ⟨p, hqueued p hp, hrest⟩
      · rcases path_without hpath with havoids | he | ⟨p, hp, hrest⟩
        · exact Or.inr ⟨s, List.mem_append_left _ hs, havoids⟩
        · exact Or.inl he
        · exact Or.inr ⟨p, hqueued p hp, hrest⟩

/-- the search depends on the edges alone -/
theorem reaches_of_sameEdges (h : ∀ a b, edges.Leads a b ↔ other.Leads a b) (queue : List TypeName) :
    edges.reaches target queue = other.reaches target queue := by
  rw [Bool.eq_iff_iff, reaches_iff, reaches_iff]
  constructor
  · rintro ⟨s, hs, hpath⟩
    exact ⟨s, hs, hpath.mono fun a b => (h a b).1⟩
  · rintro ⟨s, hs, hpath⟩
    exact ⟨s, hs, hpath.mono fun a b => (h a b).2⟩

/-! ## Entries -/

/-- there is one entry for each type -/
def Keyed (edges : Edges) : Prop := edges.Pairwise fun e f => (e.1 == f.1) = false

theorem keyed_place {entry : TypeName × List TypeName} (h : edges.Keyed)
    (hnew : ∀ e ∈ edges, (entry.1 == e.1) = false) : (place entry edges).Keyed := by
  induction edges with
  | nil => exact List.pairwise_singleton _ _
  | cons e es ih =>
    obtain ⟨he, hes⟩ := List.pairwise_cons.1 h
    rw [place]
    split_ifs
    · exact List.pairwise_cons.2 ⟨hnew, h⟩
    · refine List.pairwise_cons.2 ⟨?_, ih hes fun f hf => hnew f (List.mem_cons_of_mem _ hf)⟩
      intro f hf
      rcases mem_place.1 hf with rfl | hf
      · rw [BEq.comm]
        exact hnew e List.mem_cons_self
      · exact he f hf

theorem keyed_alter (h : edges.Keyed) (sub : TypeName) (change : List TypeName → List TypeName) :
    (edges.alter sub change).Keyed := by
  unfold alter
  split_ifs with hany
  · refine List.pairwise_map.2 (h.imp ?_)
    intro e f hef
    split_ifs <;> exact hef
  · refine keyed_place h ?_
    intro e he
    rw [Bool.eq_false_iff]
    intro hsub
    exact hany (List.any_eq_true.2 ⟨e, he, BEq.symm hsub⟩)

/-- changing the supertypes of a type by one supertype makes at most one edge -/
theorem leads_of_leads_alter {sub sup : TypeName} {change : List TypeName → List TypeName}
    (hchange : ∀ sups, ∀ p ∈ change sups, p ∈ sups ∨ p = sup) (h : (edges.alter sub change).Leads a b) :
    edges.Leads a b ∨ (sub == a) = true ∧ (sup == b) = true := by
  obtain ⟨p, hp, he⟩ := h
  obtain ⟨e, hmem, hea, hpe⟩ := mem_parents.1 hp
  have hold : ∀ f ∈ edges, (f.1 == a) = true → p ∈ f.2 → edges.Leads a b :=
    fun f hf hfa hpf => ⟨p, mem_parents.2 ⟨f, hf, hfa, hpf⟩, he⟩
  unfold alter at hmem
  split_ifs at hmem
  · obtain ⟨f, hf, rfl⟩ := List.mem_map.1 hmem
    split_ifs at hea hpe with hsub
    · rcases hchange f.2 p hpe with hpf | rfl
      · exact Or.inl (hold f hf hea hpf)
      · exact Or.inr ⟨BEq.trans (BEq.symm hsub) hea, he⟩
    · exact Or.inl (hold f hf hea hpe)
  · rcases mem_place.1 hmem with rfl | hmem
    · rcases hchange [] p hpe with hnil | rfl
      · simp at hnil
      · exact Or.inr ⟨hea, he⟩
    · exact Or.inl (hold e hmem hea hpe)

end Edges

/-! ## Linking -/

/-- steps that change nothing change nothing together -/
theorem foldl_eq_self {α β : Type} {f : β → α → β} {b : β} {xs : List α} (h : ∀ x ∈ xs, f b x = b) :
    xs.foldl f b = b := by
  induction xs with
  | nil => rfl
  | cons x xs ih =>
    rw [List.foldl_cons, h x List.mem_cons_self]
    exact ih fun y hy => h y (List.mem_cons_of_mem _ hy)

/-- the edges that a type declares, those to its supertypes first -/
def TypeInfo.declared (info : TypeInfo) : List (TypeName × TypeName) :=
  info.supertypes.map (fun sup => (info.ty, sup)) ++ info.subtypes.map fun sub => (sub, info.ty)

/-- the type declares an edge between two types -/
def TypeInfo.Declares (info : TypeInfo) (a b : TypeName) : Prop :=
  ∃ e ∈ info.declared, (e.1 == a) = true ∧ (e.2 == b) = true

namespace Hierarchy

/-- record several edges in order -/
def record (h : Hierarchy) (edges : List (TypeName × TypeName)) : Hierarchy :=
  edges.foldl (fun h e => h.addSupertype e.1 e.2) h

theorem link_eq_record (h : Hierarchy) (info : TypeInfo) : h.link info = h.record info.declared := by
  simp only [link, record, TypeInfo.declared, List.foldl_append, List.foldl_map]

variable {h : Hierarchy} {a b : TypeName}

theorem leads_addSupertype_iff (sub sup : TypeName) :
    (h.addSupertype sub sup).edges.Leads a b ↔ h.edges.Leads a b ∨ (sub == a) = true ∧ (sup == b) = true := by
  constructor
  · intro hleads
    simp only [addSupertype] at hleads
    refine Edges.leads_of_leads_alter ?_ hleads
    intro sups p hp
    split_ifs at hp
    · exact Or.inl hp
    · simpa using hp
  · rintro (hleads | ⟨ha, hb⟩)
    · exact leads_addSupertype_of_leads hleads sub sup
    · exact ((h.leads_addSupertype sub sup).congr_left ha).congr_right hb

theorem leads_record_iff (edges : List (TypeName × TypeName)) :
    (h.record edges).edges.Leads a b ↔
      h.edges.Leads a b ∨ ∃ e ∈ edges, (e.1 == a) = true ∧ (e.2 == b) = true := by
  induction edges generalizing h with
  | nil => simp [record]
  | cons e edges ih =>
    have hrest : (h.record (e :: edges)).edges.Leads a b ↔ _ := @ih (h.addSupertype e.1 e.2)
    rw [hrest, leads_addSupertype_iff, or_assoc]
    simp only [List.mem_cons, exists_eq_or_imp]

theorem leads_link_iff (info : TypeInfo) :
    (h.link info).edges.Leads a b ↔ h.edges.Leads a b ∨ info.Declares a b := by
  rw [link_eq_record, leads_record_iff, TypeInfo.Declares]

theorem keyed_record (edges : List (TypeName × TypeName)) (hk : h.edges.Keyed) : (h.record edges).edges.Keyed := by
  induction edges generalizing h with
  | nil => exact hk
  | cons e edges ih =>
    apply ih
    simp only [addSupertype]
    exact Edges.keyed_alter hk _ _

theorem keyed_link (info : TypeInfo) (hk : h.edges.Keyed) : (h.link info).edges.Keyed := by
  rw [link_eq_record]
  exact keyed_record info.declared hk

theorem wrappers_record (edges : List (TypeName × TypeName)) : (h.record edges).wrappers = h.wrappers := by
  induction edges generalizing h with
  | nil => rfl
  | cons e edges ih => exact @ih (h.addSupertype e.1 e.2)

@[simp] theorem wrappers_link (info : TypeInfo) : (h.link info).wrappers = h.wrappers := by
  rw [link_eq_record, wrappers_record]

/-! ## Edges that are there already -/

theorem addSupertype_eq (hk : h.edges.Keyed) (hl : h.edges.Leads a b) : h.addSupertype a b = h := by
  obtain ⟨p, hp, hpb⟩ := hl
  obtain ⟨e, he, hea, hpe⟩ := Edges.mem_parents.1 hp
  have hany : h.edges.any (fun e => e.1 == a) = true := List.any_eq_true.2 ⟨e, he, hea⟩
  have hcontains : e.2.contains b = true := List.contains_iff_exists_mem_beq.2 ⟨p, hpe, BEq.symm hpb⟩
  have hsame : ∀ f ∈ h.edges, (if f.1 == a then (f.1, if f.2.contains b then f.2 else f.2 ++ [b]) else f) = f := by
    intro f hf
    by_cases hfa : (f.1 == a) = true
    · -- the only entry of the type is the one with the edge
      rw [eq_of_pairwise_beq hk hf he (BEq.trans hfa (BEq.symm hea)), if_pos hea, if_pos hcontains]
    · rw [if_neg hfa]
  rw [addSupertype, Edges.alter, if_pos hany, List.map_congr_left hsame, List.map_id']

theorem link_eq {info : TypeInfo} (hk : h.edges.Keyed) (hl : ∀ a b, info.Declares a b → h.edges.Leads a b) :
    h.link info = h := by
  rw [link_eq_record]
  apply foldl_eq_self
  intro e he
  exact addSupertype_eq hk (hl e.1 e.2 ⟨e, he, BEq.rfl, BEq.rfl⟩)

/-! ## Assignability -/

theorem isAssignable_of_sameEdges {g : Hierarchy} (hedges : ∀ a b, h.edges.Leads a b ↔ g.edges.Leads a b)
    (hwrappers : h.wrappers = g.wrappers) (target source : TypeName) :
    h.isAssignable target source = g.isAssignable target source := by
  simp only [isAssignable, boxes, isSubtype, hwrappers, Edges.reaches_of_sameEdges hedges]

end Hierarchy

namespace UnitInfo

/-- the edges that the types of a unit declare are recorded, in one entry for each type -/
structure Recorded (u : UnitInfo) : Prop where
  keyed : u.hierarchy.edges.Keyed
  leads : ∀ info ∈ u.types, ∀ a b, info.Declares a b → u.hierarchy.edges.Leads a b

theorem linkTypes_eq {u : UnitInfo} (h : u.Recorded) : u.linkTypes = u := by
  have hlink : u.types.foldl Hierarchy.link u.hierarchy = u.hierarchy := by
    apply foldl_eq_self
    intro info hinfo
    exact Hierarchy.link_eq h.keyed (h.leads info hinfo)
  rw [linkTypes, hlink]

end UnitInfo

end TestInputs
