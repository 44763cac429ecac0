/-
Assignability and the declared edges behind it. An edge leads from a type to a direct supertype; recording further edges
never loses one, so every edge that a type of the unit declares is there once all types are linked. Types are compared
without their generic parts throughout, and assignability does not tell equal types apart.

Results:
- `leads_linkTypes`: in a linked unit, an edge leads from every declared subtype to its type;
- `isAssignable_of_beq`, `isAssignable_of_leads`: equal types, and the ends of an edge between types that are no arrays,
  are assignable;
- `isAssignable_congr`, `isAssignable_congr_target`: equal types are assignable to the same types, and the same types to
  them.
-/
import Mathlib.Tactic.Common
import TestInputs.UnitInfo

namespace TestInputs

/-! ## Equal types -/

namespace TypeName

theorem beq_congr_left {a b : TypeName} (h : (a == b) = true) (t : TypeName) : (a == t) = (b == t) := by
  rw [Bool.eq_iff_iff]
  exact ⟨fun hat => BEq.trans (BEq.symm h) hat, fun hbt => BEq.trans h hbt⟩

theorem beq_congr_right {a b : TypeName} (h : (a == b) = true) (t : TypeName) : (t == a) = (t == b) := by
  rw [Bool.eq_iff_iff]
  exact ⟨fun hta => BEq.trans hta h, fun htb => BEq.trans htb (BEq.symm h)⟩

theorem isArray_congr {a b : TypeName} (h : (a == b) = true) : a.isArray = b.isArray := by
  simp only [isArray, ((beq_iff a b).1 h).2]

theorem kind?_congr {a b : TypeName} (h : (a == b) = true) : a.kind? = b.kind? := by
  simp only [kind?, isArray_congr h, ((beq_iff a b).1 h).1]

theorem dimensions_of_not_isArray {ty : TypeName} (h : ty.isArray = false) : ty.dimensions = 0 := by
  simpa [isArray] using h

theorem base_of_not_isArray {ty : TypeName} (h : ty.isArray = false) : ty.base = ty := by
  rw [base, ← dimensions_of_not_isArray h]

theorem base_beq {a b : TypeName} (h : (a == b) = true) : (a.base == b.base) = true :=
  (beq_iff _ _).2 ⟨((beq_iff a b).1 h).1, rfl⟩

end TypeName

theorem UnitInfo.typeInfo_congr {u : UnitInfo} {a b : TypeName} (h : (a == b) = true) :
    u.typeInfo? a = u.typeInfo? b := by
  simp only [typeInfo?, TypeName.beq_congr_right h]

/-! ## Edges -/

namespace Edges

/-- an edge from a type to a direct supertype -/
def Leads (edges : Edges) (sub sup : TypeName) : Prop := ∃ p ∈ edges.parents sub, (p == sup) = true

theorem mem_parents {edges : Edges} {ty p : TypeName} :
    p ∈ edges.parents ty ↔ ∃ e ∈ edges, (e.1 == ty) = true ∧ p ∈ e.2 := by
  simp [parents, and_assoc]

theorem parents_congr {a b : TypeName} (h : (a == b) = true) (edges : Edges) : edges.parents a = edges.parents b := by
  simp only [parents, TypeName.beq_congr_right h]

theorem without_congr {a b : TypeName} (h : (a == b) = true) (edges : Edges) : edges.without a = edges.without b := by
  simp only [without, TypeName.beq_congr_right h]

theorem reaches_of_mem {target p : TypeName} (he : (p == target) = true) {edges : Edges} {queue : List TypeName}
    (hp : p ∈ queue) : edges.reaches target queue = true := by
  fun_induction reaches target edges queue with
  | case1 => simp at hp
  | case2 edges ty rest ih =>
    rcases List.mem_cons.1 hp with rfl | hp
    · simp [he]
    · simp [ih (List.mem_append_left _ hp)]

theorem reaches_congr {target a b : TypeName} (h : (a == b) = true) (edges : Edges) :
    edges.reaches target [a] = edges.reaches target [b] := by
  rw [reaches, reaches, parents_congr h, without_congr h, TypeName.beq_congr_left h]

theorem reaches_congr_target {a b : TypeName} (h : (a == b) = true) (edges : Edges) (queue : List TypeName) :
    edges.reaches a queue = edges.reaches b queue := by
  fun_induction reaches a edges queue with
  | case1 => rw [reaches]
  | case2 edges ty rest ih =>
    rw [reaches, ← ih, TypeName.beq_congr_right h]

theorem reaches_of_leads {edges : Edges} {sub sup : TypeName} (h : edges.Leads sub sup) :
    edges.reaches sup [sub] = true := by
  obtain ⟨p, hp, he⟩ := h
  rw [reaches, reaches_of_mem he (List.mem_append_right _ hp), Bool.or_true]

theorem mem_place {entry x : TypeName × List TypeName} {edges : Edges} :
    x ∈ place entry edges ↔ x = entry ∨ x ∈ edges := by
  induction edges with
  | nil => simp [place]
  | cons e es ih =>
    simp only [place]
    split_ifs
    · simp
    · simp only [List.mem_cons, ih]
      tauto

/-- changing the supertypes of a type to more of them loses no edge -/
theorem leads_alter_of_leads {edges : Edges} {sub sup ty : TypeName} {change : List TypeName → List TypeName}
    (hchange : ∀ sups, sups ⊆ change sups) (h : edges.Leads sub sup) : (edges.alter ty change).Leads sub sup := by
  obtain ⟨p, hp, he⟩ := h
  obtain ⟨e, hmem, hsub, hpe⟩ := mem_parents.1 hp
  refine ⟨p, mem_parents.2 ?_, he⟩
  unfold alter
  split_ifs
  · refine ⟨if e.1 == ty then (e.1, change e.2) else e, List.mem_map.2 ⟨e, hmem, rfl⟩, ?_⟩
    split_ifs
    · exact ⟨hsub, hchange e.2 hpe⟩
    · exact ⟨hsub, hpe⟩
  · exact ⟨e, mem_place.2 (Or.inr hmem), hsub, hpe⟩

/-- an edge that every change puts there is there -/
theorem leads_alter {edges : Edges} {sub sup : TypeName} {change : List TypeName → List TypeName}
    (hchange : ∀ sups, ∃ p ∈ change sups, (p == sup) = true) : (edges.alter sub change).Leads sub sup := by
  unfold alter
  split_ifs with hany
  · obtain ⟨e, hmem, hsub⟩ := List.any_eq_true.1 hany
    obtain ⟨p, hp, he⟩ := hchange e.2
    exact ⟨p, mem_parents.2 ⟨(e.1, change e.2), List.mem_map.2 ⟨e, hmem, by simp [hsub]⟩, hsub, hp⟩, he⟩
  · obtain ⟨p, hp, he⟩ := hchange []
    exact ⟨p, mem_parents.2 ⟨(sub, change []), mem_place.2 (Or.inl rfl), BEq.rfl, hp⟩, he⟩

end Edges

/-! ## Linking -/

theorem foldl_of_mem {α β : Type} {f : β → α → β} {P : β → Prop} (hkeep : ∀ b x, P b → P (f b x)) {x : α} {xs : List α}
    (hx : x ∈ xs) (hmake : ∀ b, P (f b x)) (b : β) : P (xs.foldl f b) := by
  induction xs generalizing b with
  | nil => simp at hx
  | cons y xs ih =>
    rcases List.mem_cons.1 hx with rfl | hx
    · exact List.foldlRecOn xs f (hmake b) fun c hc z _ => hkeep c z hc
    · exact ih hx (f b y)

namespace Hierarchy

theorem leads_addSupertype (h : Hierarchy) (sub sup : TypeName) : (h.addSupertype sub sup).edges.Leads sub sup := by
  simp only [addSupertype]
  refine Edges.leads_alter fun sups => ?_
  split_ifs with hc
  · obtain ⟨p, hp, he⟩ := List.contains_iff_exists_mem_beq.1 hc
    exact ⟨p, hp, BEq.symm he⟩
  · exact ⟨sup, List.mem_append_right _ List.mem_cons_self, BEq.rfl⟩

theorem leads_addSupertype_of_leads {h : Hierarchy} {a b : TypeName} (hab : h.edges.Leads a b) (sub sup : TypeName) :
    (h.addSupertype sub sup).edges.Leads a b := by
  simp only [addSupertype]
  refine Edges.leads_alter_of_leads (fun sups p hp => ?_) hab
  split_ifs
  · exact hp
  · exact List.mem_append_left _ hp

theorem leads_link_of_leads {h : Hierarchy} {a b : TypeName} (hab : h.edges.Leads a b) (info : TypeInfo) :
    (h.link info).edges.Leads a b := by
  have hup : (info.supertypes.foldl (fun h sup => h.addSupertype info.ty sup) h).edges.Leads a b :=
    List.foldlRecOn (motive := fun h : Hierarchy => h.edges.Leads a b) info.supertypes _ hab
      fun _ hc sup _ => leads_addSupertype_of_leads hc info.ty sup
  exact List.foldlRecOn (motive := fun h : Hierarchy => h.edges.Leads a b) info.subtypes _ hup
    fun _ hc sub _ => leads_addSupertype_of_leads hc sub info.ty

theorem leads_link (h : Hierarchy) {info : TypeInfo} {sub : TypeName} (hs : sub ∈ info.subtypes) :
    (h.link info).edges.Leads sub info.ty :=
  foldl_of_mem (P := fun h : Hierarchy => h.edges.Leads sub info.ty)
    (fun _ s hc => leads_addSupertype_of_leads hc s info.ty) hs (fun h => leads_addSupertype h sub info.ty) _

end Hierarchy

/-- **Declared subtypes are linked.** -/
theorem UnitInfo.leads_linkTypes {u : UnitInfo} {info : TypeInfo} (hi : info ∈ u.types) {sub : TypeName}
    (hs : sub ∈ info.subtypes) : u.linkTypes.hierarchy.edges.Leads sub info.ty :=
  foldl_of_mem (P := fun h : Hierarchy => h.edges.Leads sub info.ty)
    (fun _ other hc => Hierarchy.leads_link_of_leads hc other) hi (fun h => h.leads_link hs) _

/-! ## Assignability -/

namespace Hierarchy

variable (h : Hierarchy)

theorem isAssignable_of_beq {target source : TypeName} (he : (target == source) = true) :
    h.isAssignable target source = true := by
  simp [isAssignable, he]

theorem boxes_congr_left {a b : TypeName} (hab : (a == b) = true) (t : TypeName) : h.boxes a t = h.boxes b t := by
  simp only [boxes, TypeName.kind?_congr hab]

theorem boxes_congr_right {a b : TypeName} (hab : (a == b) = true) (t : TypeName) : h.boxes t a = h.boxes t b := by
  simp only [boxes, TypeName.beq_congr_right hab]

/-- equal types are assignable to the same types -/
theorem isAssignable_congr {a b : TypeName} (hab : (a == b) = true) (target : TypeName) :
    h.isAssignable target a = h.isAssignable target b := by
  have hdim := ((TypeName.beq_iff a b).1 hab).2
  have hprim : a.base.isPrimitive = b.base.isPrimitive := by
    simp only [TypeName.isPrimitive, TypeName.kind?_congr (TypeName.base_beq hab)]
  simp only [isAssignable, TypeName.beq_congr_right hab, h.boxes_congr_left hab, h.boxes_congr_right hab, hdim, hprim,
    isSubtype, Edges.reaches_congr hab, Edges.reaches_congr (TypeName.base_beq hab)]

theorem isAssignable_congr_target {a b : TypeName} (hab : (a == b) = true) (source : TypeName) :
    h.isAssignable a source = h.isAssignable b source := by
  have hdim := ((TypeName.beq_iff a b).1 hab).2
  have hprim : a.base.isPrimitive = b.base.isPrimitive := by
    simp only [TypeName.isPrimitive, TypeName.kind?_congr (TypeName.base_beq hab)]
  simp only [isAssignable, TypeName.beq_congr_left hab, h.boxes_congr_left hab, h.boxes_congr_right hab, hdim, hprim,
    TypeName.isArray_congr hab, isSubtype, Edges.reaches_congr_target hab,
    Edges.reaches_congr_target (TypeName.base_beq hab)]

theorem isAssignable_of_leads {sub sup : TypeName} (hl : h.edges.Leads sub sup) (hsub : sub.isArray = false)
    (hsup : sup.isArray = false) : h.isAssignable sup sub = true := by
  have hdim : (sup.dimensions == sub.dimensions) = true := by
    rw [TypeName.dimensions_of_not_isArray hsub, TypeName.dimensions_of_not_isArray hsup, beq_self_eq_true]
  simp [isAssignable, hdim, hsup, isSubtype, Edges.reaches_of_leads hl]

end Hierarchy

end TestInputs
