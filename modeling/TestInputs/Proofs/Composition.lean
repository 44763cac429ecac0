/-
The lists behind composed sequences. A product stands on wheels, and its readings are described by two lists of lists:
`afresh`, the readings of wheels that are mounted anew, and `upcoming`, the readings from the current one on. A turn
takes the current reading off `upcoming` and nothing else, so that draining an odometer gives `upcoming`.

Results:
- `toList_readings`: the readings of wheels on which nothing was given up are exactly `upcoming`;
- `toList_product`: when every dimension restarts as it started, these are the tuples in lexicographic order, the last
  position fastest;
- `complete_product`, `complete_arrays`, `complete_sampledBy`: composing gives nothing up that its parts did not;
- `mem_product`, `mem_arrays`, `sublist_sampledBy`: the elements of products, of arrays and of samples come from what
  they are built over.
-/
import Mathlib.Data.List.Forall2
import TestInputs.Sequence.Arrays
import TestInputs.Sequence.Sampled

namespace TestInputs

variable {α : Type}

/-! ## Tuples in lexicographic order -/

theorem exists_partner {β : Type} {R : α → β → Prop} {as : List α} {bs : List β} (h : List.Forall₂ R as bs) {a : α}
    (ha : a ∈ as) : ∃ b ∈ bs, R a b := by
  induction h with
  | nil => simp at ha
  | cons hab _ ih =>
    rcases List.mem_cons.1 ha with rfl | ha
    · exact ⟨_, List.mem_cons_self, hab⟩
    · obtain ⟨b, hb, hr⟩ := ih ha
      exact ⟨b, List.mem_cons_of_mem _ hb, hr⟩

/-- all tuples with one member of each list, in lexicographic order with the last position fastest -/
def lexicographic : List (List α) → List (List α)
  | [] => [[]]
  | xs :: rest => xs.flatMap fun x => (lexicographic rest).map (x :: ·)

theorem mem_lexicographic {t : List α} {ls : List (List α)} :
    t ∈ lexicographic ls ↔ List.Forall₂ (fun x xs => x ∈ xs) t ls := by
  induction ls generalizing t with
  | nil => simp [lexicographic]
  | cons xs ls ih =>
    simp only [lexicographic, List.mem_flatMap, List.mem_map, ih]
    constructor
    · rintro ⟨x, hx, t, ht, rfl⟩
      exact .cons hx ht
    · rintro (_ | ⟨hx, ht⟩)
      exact ⟨_, hx, _, ht, rfl⟩

theorem lexicographic_eq_nil {ls : List (List α)} (h : [] ∈ ls) : lexicographic ls = [] := by
  induction ls with
  | nil => simp at h
  | cons xs ls ih =>
    rcases List.mem_cons.1 h with rfl | h
    · rfl
    · simp [lexicographic, ih h]

/-! ## Odometers -/

namespace Odometer

/-- the readings of wheels that are all mounted anew -/
def afresh (ws : List (Wheel α)) : List (List α) :=
  lexicographic (ws.map fun w => (w.again ()).toList)

/-- the readings from the current one on -/
def upcoming : List (Wheel α) → List (List α)
  | [] => [[]]
  | w :: ws =>
    (upcoming ws).map (w.value :: ·) ++ (w.rest ()).toList.flatMap fun x => (afresh ws).map (x :: ·)

/-- nothing is given up on a wheel, neither now nor when it is mounted anew -/
def Whole (w : Wheel α) : Prop := (w.rest ()).Complete ∧ (w.again ()).Complete

/-- the wheel shows the first element of the dimension -/
def Mounts (d : Dimension α) (w : Wheel α) : Prop :=
  d.first = .cons w.value w.rest ∧ d.again = w.again

theorem mounts_of_mount {ds : List (Dimension α)} {ws : List (Wheel α)} (h : mount ds = .running ws) :
    List.Forall₂ Mounts ds ws := by
  induction ds generalizing ws with
  | nil =>
    simp only [mount, Motion.running.injEq] at h
    rw [← h]
    exact .nil
  | cons d ds ih =>
    simp only [mount] at h
    split at h
    · cases h
    · cases h
    · rename_i a t hd
      cases hm : mount ds with
      | stopped => simp [hm, Motion.push] at h
      | cut => simp [hm, Motion.push] at h
      | running ms =>
        simp only [hm, Motion.push, Motion.running.injEq] at h
        rw [← h]
        exact .cons ⟨hd, rfl⟩ (ih hm)

/-- mounting complete dimensions works unless one of them has no elements -/
theorem mount_cases {ds : List (Dimension α)} (h : ∀ d ∈ ds, d.first.Complete) :
    (mount ds = .stopped ∧ ∃ d ∈ ds, d.first = .nil) ∨ ∃ ws, mount ds = .running ws := by
  induction ds with
  | nil => exact Or.inr ⟨[], rfl⟩
  | cons d ds ih =>
    have hd := h d List.mem_cons_self
    cases hf : d.first with
    | nil => exact Or.inl ⟨by simp [mount, hf], d, List.mem_cons_self, hf⟩
    | cut => rw [hf] at hd; exact hd.elim
    | cons a t =>
      rcases ih fun e he => h e (List.mem_cons_of_mem _ he) with ⟨hs, e, he, hn⟩ | ⟨ws, hw⟩
      · exact Or.inl ⟨by simp [mount, hf, hs, Motion.push], e, List.mem_cons_of_mem _ he, hn⟩
      · exact Or.inr ⟨⟨a, t, d.again⟩ :: ws, by simp [mount, hf, hw, Motion.push]⟩

theorem whole_of_mounts {ds : List (Dimension α)} {ws : List (Wheel α)} (hm : List.Forall₂ Mounts ds ws)
    (hf : ∀ d ∈ ds, d.first.Complete) (ha : ∀ d ∈ ds, (d.again ()).Complete) : ∀ w ∈ ws, Whole w := by
  induction hm with
  | nil => simp
  | @cons d w ds ws hdw _ ih =>
    intro v hv
    rcases List.mem_cons.1 hv with rfl | hv
    · have h1 := hf d List.mem_cons_self
      have h2 := ha d List.mem_cons_self
      rw [hdw.1] at h1
      rw [hdw.2] at h2
      exact ⟨h1, h2⟩
    · exact ih (fun e he => hf e (List.mem_cons_of_mem _ he)) (fun e he => ha e (List.mem_cons_of_mem _ he)) v hv

theorem afresh_of_mounts {ds : List (Dimension α)} {ws : List (Wheel α)} (hm : List.Forall₂ Mounts ds ws) :
    afresh ws = lexicographic (ds.map fun d => (d.again ()).toList) := by
  unfold afresh
  congr 1
  induction hm with
  | nil => rfl
  | cons hdw _ ih => simp [hdw.2, ih]

/-- dimensions that restart as they started come up in lexicographic order -/
theorem upcoming_of_mounts {ds : List (Dimension α)} {ws : List (Wheel α)} (hm : List.Forall₂ Mounts ds ws)
    (hs : ∀ d ∈ ds, d.again () = d.first) : upcoming ws = lexicographic (ds.map fun d => d.first.toList) := by
  induction hm with
  | nil => rfl
  | @cons d w ds ws hdw hm ih =>
    have hrest : ∀ e ∈ ds, e.again () = e.first := fun e he => hs e (List.mem_cons_of_mem _ he)
    have hfresh : afresh ws = lexicographic (ds.map fun d => d.first.toList) := by
      rw [afresh_of_mounts hm, List.map_congr_left fun e he => by rw [hrest e he]]
    simp only [upcoming, ih hrest, hfresh, List.map_cons, hdw.1, Sequence.toList_cons, lexicographic,
      List.flatMap_cons]

theorem again_restart {ws : List (Wheel α)} : ∀ d ∈ restart ws, d.again () = d.first := by
  intro d hd
  obtain ⟨w, _, rfl⟩ := List.mem_map.1 hd
  rfl

theorem complete_restart {ws : List (Wheel α)} (h : ∀ w ∈ ws, Whole w) : ∀ d ∈ restart ws, d.first.Complete := by
  intro d hd
  obtain ⟨w, hw, rfl⟩ := List.mem_map.1 hd
  exact (h w hw).2

theorem upcoming_of_restart {ws ms : List (Wheel α)} (h : mount (restart ws) = .running ms) :
    upcoming ms = afresh ws ∧ afresh ms = afresh ws := by
  have hm := mounts_of_mount h
  rw [upcoming_of_mounts hm again_restart, afresh_of_mounts hm]
  constructor <;> simp [afresh, restart, Dimension.ofFactory, Function.comp_def]

/-- what a turn of whole wheels does: it takes the current reading off the upcoming ones -/
theorem turn_cases {ws : List (Wheel α)} (h : ∀ w ∈ ws, Whole w) :
    (turn ws = .stopped ∧ upcoming ws = [reading ws]) ∨
      ∃ ms, turn ws = .running ms ∧ upcoming ws = reading ws :: upcoming ms ∧ afresh ms = afresh ws ∧
        ∀ w ∈ ms, Whole w := by
  induction ws with
  | nil => exact Or.inl ⟨rfl, rfl⟩
  | cons w ws ih =>
    have hw := h w List.mem_cons_self
    have hws : ∀ v ∈ ws, Whole v := fun v hv => h v (List.mem_cons_of_mem _ hv)
    rcases ih hws with ⟨ht, hu⟩ | ⟨ms, ht, hu, hf, hms⟩
    · -- the wheels to the right have run out, so this one moves on
      cases hr : w.rest () with
      | nil => exact Or.inl ⟨by simp [turn, ht, hr], by simp [upcoming, hu, hr, reading]⟩
      | cut => rw [Whole, hr] at hw; exact hw.1.elim
      | cons a t =>
        have hfirst := complete_restart hws
        rcases mount_cases hfirst with ⟨hm, d, hd, hn⟩ | ⟨ns, hm⟩
        · have hfresh : afresh ws = [] := by
            obtain ⟨v, hv, rfl⟩ := List.mem_map.1 hd
            have hn : v.again () = .nil := hn
            exact lexicographic_eq_nil (List.mem_map.2 ⟨v, hv, by rw [hn]; rfl⟩)
          exact Or.inl ⟨by simp [turn, ht, hr, hm, Motion.push], by simp [upcoming, hu, hfresh, reading]⟩
        · obtain ⟨hup, hfr⟩ := upcoming_of_restart hm
          refine Or.inr ⟨⟨a, t, w.again⟩ :: ns, by simp [turn, ht, hr, hm, Motion.push], ?_, ?_, ?_⟩
          · simp [upcoming, hu, hr, hup, hfr, reading]
          · simp only [afresh, List.map_cons, lexicographic] at hfr ⊢
            rw [hfr]
          · intro v hv
            rcases List.mem_cons.1 hv with rfl | hv
            · rw [Whole, hr] at hw
              exact hw
            · refine whole_of_mounts (mounts_of_mount hm) hfirst (fun d hd => ?_) v hv
              rw [again_restart d hd]
              exact hfirst d hd
    · refine Or.inr ⟨w :: ms, by simp [turn, ht], by simp [upcoming, hu, hf, reading], ?_, ?_⟩
      · simp only [afresh, List.map_cons, lexicographic] at hf ⊢
        rw [hf]
      · intro v hv
        rcases List.mem_cons.1 hv with rfl | hv
        · exact hw
        · exact hms v hv

theorem readings_eq (ws : List (Wheel α)) :
    readings ws = .cons (reading ws) fun _ =>
      match turn ws with
      | .stopped => .nil
      | .cut => .cut
      | .running ms => readings ms := by
  rw [readings]
  congr 1
  funext _
  split <;> rename_i h <;> simp [h]

theorem toList_readings {ws : List (Wheel α)} (h : ∀ w ∈ ws, Whole w) :
    (readings ws).toList = upcoming ws ∧ (readings ws).Complete := by
  rw [readings_eq]
  rcases turn_cases h with ⟨ht, hu⟩ | ⟨ms, ht, hu, -, hms⟩
  · simp [ht, hu]
  · have := (full_left_of_turn ht).2
    obtain ⟨h1, h2⟩ := toList_readings hms
    simp [ht, hu, h1, h2]
termination_by left ws

/-! ## What the wheels show -/

/-- the wheel shows elements of the dimension, now, further on, and when it is mounted anew -/
structure Shows (d : Dimension α) (w : Wheel α) : Prop where
  value : w.value ∈ d.first.toList
  rest : ∀ x ∈ (w.rest ()).toList, x ∈ d.first.toList
  again : w.again () = d.first

theorem shows_of_mounts {d : Dimension α} {w : Wheel α} (hm : Mounts d w) (hs : d.again () = d.first) : Shows d w := by
  obtain ⟨hfirst, hagain⟩ := hm
  refine ⟨?_, fun x hx => ?_, by rw [← hagain, hs]⟩
  · rw [hfirst, Sequence.toList_cons]
    exact List.mem_cons_self
  · rw [hfirst, Sequence.toList_cons]
    exact List.mem_cons_of_mem _ hx

/-- wheels that are mounted anew show the same dimensions -/
theorem shows_of_restart {ds : List (Dimension α)} {ws ms : List (Wheel α)} (h : List.Forall₂ Shows ds ws)
    (hm : mount (restart ws) = .running ms) : List.Forall₂ Shows ds ms := by
  have hmounts := mounts_of_mount hm
  rw [restart, List.forall₂_map_left_iff] at hmounts
  clear hm
  induction h generalizing ms with
  | nil =>
    cases hmounts
    exact .nil
  | @cons d w ds ws hdw _ ih =>
    cases hmounts with
    | @cons _ m _ ms hwm hrest =>
      have hshows : Shows (.ofFactory w.again) m := shows_of_mounts hwm rfl
      have hfirst : (Dimension.ofFactory w.again).first = d.first := hdw.again
      refine .cons ⟨?_, ?_, ?_⟩ (ih hrest)
      · exact hfirst ▸ hshows.value
      · exact hfirst ▸ hshows.rest
      · exact hshows.again.trans hfirst

/-- a turn leaves the wheels on elements of their dimensions -/
theorem shows_of_turn {ds : List (Dimension α)} {ws ms : List (Wheel α)} (h : List.Forall₂ Shows ds ws)
    (ht : turn ws = .running ms) : List.Forall₂ Shows ds ms := by
  induction h generalizing ms with
  | nil => cases ht
  | @cons d w ds ws hdw hrest ih =>
    simp only [turn] at ht
    split at ht
    · rename_i ws' hturn
      cases ht
      exact .cons hdw (ih hturn)
    · cases ht
    · split at ht
      · cases ht
      · cases ht
      · rename_i a t hw
        have hlater := hdw.rest
        rw [hw, Sequence.toList_cons] at hlater
        cases hm : mount (restart ws) with
        | stopped => simp [hm, Motion.push] at ht
        | cut => simp [hm, Motion.push] at ht
        | running ns =>
          simp only [hm, Motion.push, Motion.running.injEq] at ht
          subst ht
          refine .cons ⟨hlater a List.mem_cons_self, ?_, hdw.again⟩ (shows_of_restart hrest hm)
          intro x hx
          exact hlater x (List.mem_cons_of_mem _ hx)

theorem forall₂_reading {ds : List (Dimension α)} {ws : List (Wheel α)} (h : List.Forall₂ Shows ds ws) :
    List.Forall₂ (fun x d => x ∈ d.first.toList) (reading ws) ds := by
  induction h with
  | nil => exact .nil
  | cons hdw _ ih => exact .cons hdw.value ih

/-- every reading consists of elements of the dimensions, also when the enumeration is given up later -/
theorem forall₂_of_mem_readings {ds : List (Dimension α)} {ws : List (Wheel α)} (h : List.Forall₂ Shows ds ws)
    {t : List α} (ht : t ∈ (readings ws).toList) : List.Forall₂ (fun x d => x ∈ d.first.toList) t ds := by
  rw [readings_eq, Sequence.toList_cons] at ht
  rcases List.mem_cons.1 ht with rfl | ht
  · exact forall₂_reading h
  · cases hturn : turn ws with
    | stopped => simp [hturn] at ht
    | cut => simp [hturn] at ht
    | running ms =>
      have := (full_left_of_turn hturn).2
      rw [hturn] at ht
      exact forall₂_of_mem_readings (shows_of_turn h hturn) ht
termination_by left ws

end Odometer

/-! ## Products -/

/-- nothing is given up on a dimension, and it restarts as it started -/
def Dimension.Steady (d : Dimension α) : Prop := d.first.Complete ∧ d.again () = d.first

namespace Sequence

/-- a product gives nothing up if its dimensions do not, neither at their start nor when they are mounted anew -/
theorem complete_product_of_complete {ds : List (Dimension α)} (hf : ∀ d ∈ ds, d.first.Complete)
    (ha : ∀ d ∈ ds, (d.again ()).Complete) : (product ds).Complete := by
  rcases Odometer.mount_cases hf with ⟨hm, -⟩ | ⟨ws, hm⟩
  · simp [product, hm]
  · have hw := Odometer.whole_of_mounts (Odometer.mounts_of_mount hm) hf ha
    simp only [product, hm]
    exact (Odometer.toList_readings hw).2

theorem complete_product {ds : List (Dimension α)} (h : ∀ d ∈ ds, d.Steady) : (product ds).Complete :=
  complete_product_of_complete (fun d hd => (h d hd).1) fun d hd => (h d hd).2 ▸ (h d hd).1

/-- **Products are lexicographic.** Dimensions that restart as they started are combined in lexicographic order. -/
theorem toList_product {ds : List (Dimension α)} (h : ∀ d ∈ ds, d.Steady) :
    (product ds).toList = lexicographic (ds.map fun d => d.first.toList) := by
  have hf : ∀ d ∈ ds, d.first.Complete := fun d hd => (h d hd).1
  have ha : ∀ d ∈ ds, (d.again ()).Complete := fun d hd => (h d hd).2 ▸ hf d hd
  rcases Odometer.mount_cases hf with ⟨hm, d, hd, hn⟩ | ⟨ws, hm⟩
  · have hnil : [] ∈ ds.map fun d => d.first.toList := List.mem_map.2 ⟨d, hd, by rw [hn]; rfl⟩
    simp [product, hm, lexicographic_eq_nil hnil]
  · have hw := Odometer.mounts_of_mount hm
    have hl := (Odometer.toList_readings (Odometer.whole_of_mounts hw hf ha)).1
    simp only [product, hm, hl]
    exact Odometer.upcoming_of_mounts hw fun d hd => (h d hd).2

/-- the tuples of dimensions that restart as they started, whether or not something is given up -/
theorem mem_product {ds : List (Dimension α)} (h : ∀ d ∈ ds, d.again () = d.first) {t : List α}
    (ht : t ∈ (product ds).toList) : List.Forall₂ (fun x d => x ∈ d.first.toList) t ds := by
  unfold product at ht
  split at ht
  · cases ht
  · cases ht
  · rename_i ws hm
    have hmounts := (List.forall₂_and_left ds ws).2 ⟨h, Odometer.mounts_of_mount hm⟩
    have hshows : List.Forall₂ Odometer.Shows ds ws :=
      hmounts.imp fun d w hdw => Odometer.shows_of_mounts hdw.2 hdw.1
    exact Odometer.forall₂_of_mem_readings hshows ht

/-! ## Concatenations -/

@[simp] theorem append_nil (s : Sequence α) : (s.append fun _ => .nil) = s := by
  induction s with
  | nil => rfl
  | cut => rfl
  | cons a t ih =>
    rw [append]
    congr 1
    funext _
    exact ih ()

theorem complete_concat {parts : List (Sequence α)} (h : ∀ s ∈ parts, s.Complete) : (concat parts).Complete := by
  induction parts with
  | nil => trivial
  | cons s parts ih =>
    rw [concat, complete_append]
    exact ⟨h s List.mem_cons_self, ih fun t ht => h t (List.mem_cons_of_mem _ ht)⟩

theorem toList_concat {parts : List (Sequence α)} (h : ∀ s ∈ parts, s.Complete) :
    (concat parts).toList = parts.flatMap toList := by
  induction parts with
  | nil => rfl
  | cons s parts ih =>
    rw [concat, toList_append (h s List.mem_cons_self), ih fun t ht => h t (List.mem_cons_of_mem _ ht),
      List.flatMap_cons]

/-! ## Arrays -/

theorem steady_replicate {component : Unit → Sequence α} (h : (component ()).Complete) (n : Nat) :
    ∀ d ∈ List.replicate n (Dimension.ofFactory component), d.Steady := by
  intro d hd
  rw [List.eq_of_mem_replicate hd]
  exact ⟨h, rfl⟩

theorem filledArrays_spec {component : Unit → Sequence α} (h : (component ()).Complete) (length count : Nat) :
    (filledArrays component length count).Complete ∧
      ∀ t ∈ (filledArrays component length count).toList, ∀ x ∈ t, x ∈ (component ()).toList := by
  induction count generalizing length with
  | zero => simp [filledArrays]
  | succ count ih =>
    have hs := steady_replicate h length
    have hc := complete_product hs
    have hmem : ∀ t ∈ (product (List.replicate length (Dimension.ofFactory component))).toList, ∀ x ∈ t,
        x ∈ (component ()).toList := by
      intro t ht x hx
      obtain ⟨d, hd, hxd⟩ := exists_partner (mem_product (fun d hd => (hs d hd).2) ht) hx
      rw [List.eq_of_mem_replicate hd] at hxd
      exact hxd
    simp only [filledArrays]
    split
    · simp
    · rename_i hp
      rw [hp] at hc
      exact hc.elim
    · rename_i a s hp
      rw [← hp, complete_append, toList_append hc]
      refine ⟨⟨hc, (ih _).1⟩, fun t ht => ?_⟩
      rcases List.mem_append.1 ht with ht | ht
      · exact hmem t ht
      · exact (ih _).2 t ht

theorem complete_arrays {component : Unit → Sequence α} (h : (component ()).Complete) (n : Nat) :
    (arrays component n).Complete := by
  simp [arrays, (filledArrays_spec h 1 n).1]

theorem mem_arrays {component : Unit → Sequence α} (h : (component ()).Complete) {n : Nat} {t : List α}
    (ht : some t ∈ (arrays component n).toList) : ∀ x ∈ t, x ∈ (component ()).toList := by
  simp only [arrays, toList_cons, toList_map, List.mem_cons, List.mem_map, reduceCtorEq, Option.some.injEq,
    exists_eq_right, false_or] at ht
  rcases ht with rfl | ht
  · simp
  · exact (filledArrays_spec h 1 n).2 t ht

/-! ## Samples -/

theorem thin_spec (fraction : Double) (draws : Draws) (s : Sequence α) :
    (thin fraction draws s).toList.Sublist s.toList ∧ ((thin fraction draws s).Complete ↔ s.Complete) := by
  induction s generalizing draws with
  | nil => simp [thin]
  | cut => simp [thin]
  | cons a t ih =>
    simp only [thin]
    split
    · exact ⟨((ih () _).1).cons_cons a, (ih () _).2⟩
    · exact ⟨((ih () _).1).cons a, (ih () _).2⟩

theorem sampled_spec (sampling : Sampling) (s : Sequence α) :
    (s.sampled sampling).toList.Sublist s.toList ∧ ((s.sampled sampling).Complete ↔ s.Complete) := by
  cases s with
  | nil => simp [sampled]
  | cut => simp [sampled]
  | cons a t =>
    simp only [sampled]
    split_ifs
    · simp
    · obtain ⟨h1, h2⟩ := thin_spec sampling.fraction (Draws.ofSeed sampling.seed) (t ())
      exact ⟨h1.cons_cons a, h2⟩

/-- a sample has no elements but those it is taken from, in their order -/
theorem sublist_sampledBy (sampling : Option Sampling) (s : Sequence α) :
    (s.sampledBy sampling).toList.Sublist s.toList := by
  cases sampling with
  | none => exact List.Sublist.refl _
  | some sampling => exact (sampled_spec sampling s).1

@[simp] theorem complete_sampledBy (sampling : Option Sampling) (s : Sequence α) :
    (s.sampledBy sampling).Complete ↔ s.Complete := by
  cases sampling with
  | none => rfl
  | some sampling => exact (sampled_spec sampling s).2

/-! ## Draining -/

theorem advanceBy_length {s : Sequence α} (h : s.Complete) : s.advanceBy s.toList.length = .nil := by
  induction s with
  | nil => rfl
  | cut => exact h.elim
  | cons a t ih => exact ih () h

end Sequence

end TestInputs
