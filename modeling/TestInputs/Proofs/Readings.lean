/-
The readings of an odometer in full generality. A dimension may start with one list and restart with another: the first
sequence was derived for it before, later ones come from a way to start it afresh, which may give more elements, fewer
or none. The first element of a dimension is combined with the first sequences to its right; every later element comes
with the dimensions to its right mounted anew. When one of these has no element, the odometer stops, and it stops for
good: the wheels to the left need the same dimension afresh. So what was to be read with the later elements is a product
with an empty list, which is empty as well.

Results:
- `toList_product_of_finite`: the product of finite dimensions in terms of their lists alone;
- `forall₂_of_mem_readingsOf`: every reading is a whole one, with one element for each dimension;
- `length_lexicographic`: the number of tuples is the product of the lengths;
- `product_reads_in_order`: a product as a caller sees it, for dimensions with first sequences and for those without.
-/
import TestInputs.Proofs.Cursors

namespace TestInputs

variable {α : Type}

/-- nothing is given up on a dimension, neither at its start nor when it is mounted anew -/
def Dimension.Finite (d : Dimension α) : Prop := d.first.Complete ∧ (d.again ()).Complete

/-- what a dimension starts with, and what it restarts with -/
def Dimension.lists (d : Dimension α) : List α × List α := (d.first.toList, (d.again ()).toList)

/-! ## Readings as lists -/

/-- the first element of the leftmost dimension with the readings of the others, and then each later element with all
tuples that the others restart with -/
def carried : List (List α × List α) → List (List α)
  | [] => [[]]
  | ([], _) :: _ => []
  | (x :: later, _) :: rest =>
    (carried rest).map (x :: ·) ++ later.flatMap fun y => (lexicographic (rest.map Prod.snd)).map (y :: ·)

/-- a dimension that starts without elements leaves nothing to read -/
def readingsOf (ds : List (List α × List α)) : List (List α) :=
  if ds.any fun d => d.1.isEmpty then [] else carried ds

theorem readingsOf_eq_nil {ds : List (List α × List α)} (h : ∃ d ∈ ds, d.1 = []) : readingsOf ds = [] := by
  obtain ⟨d, hd, hnil⟩ := h
  exact if_pos (List.any_eq_true.2 ⟨d, hd, by rw [hnil]; rfl⟩)

theorem readingsOf_eq_carried {ds : List (List α × List α)} (h : ∀ d ∈ ds, d.1 ≠ []) : readingsOf ds = carried ds := by
  apply if_neg
  intro hany
  obtain ⟨d, hd, hnil⟩ := List.any_eq_true.1 hany
  exact h d hd (List.isEmpty_iff.1 hnil)

theorem forall₂_of_mem_carried {ds : List (List α × List α)} {t : List α} (h : t ∈ carried ds) :
    List.Forall₂ (fun x d => x ∈ d.1 ∨ x ∈ d.2) t ds := by
  induction ds generalizing t with
  | nil =>
    rw [List.mem_singleton.1 h]
    exact .nil
  | cons d ds ih =>
    obtain ⟨xs, again⟩ := d
    cases xs with
    | nil => cases h
    | cons x later =>
      rcases List.mem_append.1 h with h | h
      · obtain ⟨u, hu, rfl⟩ := List.mem_map.1 h
        exact .cons (Or.inl List.mem_cons_self) (ih hu)
      · obtain ⟨y, hy, h⟩ := List.mem_flatMap.1 h
        obtain ⟨u, hu, rfl⟩ := List.mem_map.1 h
        have hfresh := (List.forall₂_map_right_iff (f := Prod.snd)).1 (mem_lexicographic.1 hu)
        exact .cons (Or.inl (List.mem_cons_of_mem _ hy)) (hfresh.imp fun _ _ hx => Or.inr hx)

/-- no reading is partial: it has one element for each dimension, from its start or from a restart -/
theorem forall₂_of_mem_readingsOf {ds : List (List α × List α)} {t : List α} (h : t ∈ readingsOf ds) :
    List.Forall₂ (fun x d => x ∈ d.1 ∨ x ∈ d.2) t ds := by
  unfold readingsOf at h
  split_ifs at h
  · cases h
  · exact forall₂_of_mem_carried h

/-- the first reading shows the first elements -/
theorem head?_carried {ds : List (List α × List α)} {t : List α}
    (h : List.Forall₂ (fun d x => d.1.head? = some x) ds t) : (carried ds).head? = some t := by
  induction h with
  | nil => rfl
  | @cons d x ds t hx _ ih =>
    obtain ⟨xs, again⟩ := d
    cases xs with
    | nil => cases hx
    | cons y later =>
      obtain rfl : y = x := Option.some.inj hx
      rw [carried, List.head?_append, List.head?_map, ih]
      rfl

theorem length_lexicographic (ls : List (List α)) :
    (lexicographic ls).length = (ls.map List.length).foldr (· * ·) 1 := by
  induction ls with
  | nil => rfl
  | cons xs ls ih =>
    have hparts : ∀ ys : List α, (ys.flatMap fun y => (lexicographic ls).map (y :: ·)).length =
        ys.length * (lexicographic ls).length := by
      intro ys
      induction ys with
      | nil => simp
      | cons y ys ihys =>
        rw [List.flatMap_cons, List.length_append, List.length_map, ihys, List.length_cons, Nat.succ_mul, Nat.add_comm]
    rw [lexicographic, hparts, ih, List.map_cons, List.foldr_cons]

/-! ## Products of finite dimensions -/

namespace Odometer

/-- what comes up on mounted wheels, in terms of the lists of their dimensions -/
theorem upcoming_eq_carried {ds : List (Dimension α)} {ws : List (Wheel α)} (hm : List.Forall₂ Mounts ds ws) :
    upcoming ws = carried (ds.map Dimension.lists) := by
  induction hm with
  | nil => rfl
  | @cons d w ds ws hdw hm ih =>
    have hfirst : d.lists = (w.value :: (w.rest ()).toList, (d.again ()).toList) := by
      rw [Dimension.lists, hdw.1, Sequence.toList_cons]
    have hfresh : afresh ws = lexicographic ((ds.map Dimension.lists).map Prod.snd) := by
      rw [afresh_of_mounts hm, List.map_map]
      rfl
    rw [upcoming, ih, hfresh, List.map_cons, hfirst, carried]

theorem first_ne_nil_of_mounts {ds : List (Dimension α)} {ws : List (Wheel α)} (hm : List.Forall₂ Mounts ds ws) :
    ∀ d ∈ ds, d.first.toList ≠ [] := by
  intro d hd
  obtain ⟨w, -, hdw⟩ := exists_partner hm hd
  rw [hdw.1]
  exact List.cons_ne_nil _ _

end Odometer

namespace Sequence

/-- **The product of finite dimensions** depends on their lists alone. -/
theorem toList_product_of_finite {ds : List (Dimension α)} (h : ∀ d ∈ ds, d.Finite) :
    (product ds).toList = readingsOf (ds.map Dimension.lists) := by
  have hf : ∀ d ∈ ds, d.first.Complete := fun d hd => (h d hd).1
  have ha : ∀ d ∈ ds, (d.again ()).Complete := fun d hd => (h d hd).2
  rcases Odometer.mount_cases hf with ⟨hm, d, hd, hn⟩ | ⟨ws, hm⟩
  · have hempty : ∃ l ∈ ds.map Dimension.lists, l.1 = [] :=
      ⟨d.lists, List.mem_map_of_mem hd, by rw [Dimension.lists, hn]; rfl⟩
    rw [readingsOf_eq_nil hempty, product, hm]
    rfl
  · have hw := Odometer.mounts_of_mount hm
    have hfirst : ∀ l ∈ ds.map Dimension.lists, l.1 ≠ [] :=
      List.forall_mem_map.2 (Odometer.first_ne_nil_of_mounts hw)
    rw [readingsOf_eq_carried hfirst, ← Odometer.upcoming_eq_carried hw, product, hm]
    exact (Odometer.toList_readings (Odometer.whole_of_mounts hw hf ha)).1

end Sequence

theorem Dimension.steady_of_factories {factories : List (Unit → Sequence α)} (h : ∀ f ∈ factories, (f ()).Complete) :
    ∀ d ∈ factories.map Dimension.ofFactory, d.Steady := by
  intro d hd
  obtain ⟨f, hf, rfl⟩ := List.mem_map.1 hd
  exact ⟨h f hf, rfl⟩

/-- the lists of first sequences, each with the list that its partner restarts with -/
def Dimension.pairedLists (firsts : List (Sequence α)) (factories : List (Unit → Sequence α)) :
    List (List α × List α) :=
  (firsts.map Sequence.toList).zip (factories.map fun f => (f ()).toList)

theorem Dimension.lists_pair (firsts : List (Sequence α)) (factories : List (Unit → Sequence α)) :
    (Dimension.pair firsts factories).map Dimension.lists = Dimension.pairedLists firsts factories := by
  rw [Dimension.pair, Dimension.pairedLists, List.map_zipWith, List.zip_map, List.zip, List.map_zipWith]
  rfl

/-- **Products read like an odometer.** First sequences are paired with ways to restart, and what has no partner is
dropped. If all of the pairs are finite, the product is, and a caller who moves through it in any way sees nothing if
some first sequence is empty, and else exactly the carried readings in order, all of them whole, whether or not the ways
to restart give any elements. When all first sequences come from the ways to restart, these are the tuples in
lexicographic order, as many as the product of the lengths; without dimensions there is the empty tuple alone. -/
theorem product_reads_in_order (α : Type) :
    (∀ (firsts : List (Sequence α)) (factories : List (Unit → Sequence α)),
      (∀ d ∈ Dimension.pair firsts factories, d.Finite) →
      (Sequence.product (Dimension.pair firsts factories)).Complete ∧
      ((∃ d ∈ Dimension.pairedLists firsts factories, d.1 = []) →
        Sequence.cursor.RunsThrough (.product (Dimension.pair firsts factories)) []) ∧
      ((∀ d ∈ Dimension.pairedLists firsts factories, d.1 ≠ []) →
        Sequence.cursor.RunsThrough (.product (Dimension.pair firsts factories))
          (carried (Dimension.pairedLists firsts factories))) ∧
      ∀ t ∈ (Sequence.product (Dimension.pair firsts factories)).toList,
        List.Forall₂ (fun x d => x ∈ d.1 ∨ x ∈ d.2) t (Dimension.pairedLists firsts factories)) ∧
    (∀ factories : List (Unit → Sequence α), (∀ f ∈ factories, (f ()).Complete) →
      (Sequence.product (factories.map Dimension.ofFactory)).Complete ∧
      Sequence.cursor.RunsThrough (.product (factories.map Dimension.ofFactory))
        (lexicographic (factories.map fun f => (f ()).toList)) ∧
      (Sequence.product (factories.map Dimension.ofFactory)).toList.length =
        (factories.map fun f => (f ()).toList.length).foldr (· * ·) 1) ∧
    (Sequence.product ([] : List (Dimension α))).toList = [[]] := by
  refine ⟨?_, ?_, ?_⟩
  · intro firsts factories h
    have hlist := Sequence.toList_product_of_finite h
    rw [Dimension.lists_pair] at hlist
    refine ⟨?_, ?_, ?_, ?_⟩
    · exact Sequence.complete_product_of_complete (fun d hd => (h d hd).1) fun d hd => (h d hd).2
    · intro hempty
      rw [Sequence.runsThrough_iff, hlist, readingsOf_eq_nil hempty]
    · intro hfirst
      rw [Sequence.runsThrough_iff, hlist, readingsOf_eq_carried hfirst]
    · intro t ht
      rw [hlist] at ht
      exact forall₂_of_mem_readingsOf ht
  · intro factories h
    have hsteady := Dimension.steady_of_factories h
    have hlist : (Sequence.product (factories.map Dimension.ofFactory)).toList =
        lexicographic (factories.map fun f => (f ()).toList) := by
      rw [Sequence.toList_product hsteady, List.map_map]
      rfl
    refine ⟨Sequence.complete_product hsteady, Sequence.runsThrough_iff.2 hlist, ?_⟩
    rw [hlist, length_lexicographic, List.map_map]
    rfl
  · rw [Sequence.toList_product_of_finite (by simp)]
    rfl

/-! Three dials: the second has nothing to restart with, and the last way to restart has no partner. -/

def dialStarts : List (Sequence Nat) := [.ofList [1, 2], .ofList [3], .ofList [4, 5, 6]]

def dialRestarts : List (Unit → Sequence Nat) :=
  [fun _ => .ofList [7, 8], fun _ => .nil, fun _ => .ofList [9], fun _ => .ofList [0]]

theorem finite_dials : ∀ d ∈ Dimension.pair dialStarts dialRestarts, d.Finite := by
  intro d hd
  simp only [Dimension.pair, dialStarts, dialRestarts, List.zipWith_cons_cons, List.zipWith_nil_left, List.mem_cons,
    List.not_mem_nil, or_false] at hd
  rcases hd with rfl | rfl | rfl
  · exact ⟨Sequence.complete_ofList _, Sequence.complete_ofList _⟩
  · exact ⟨Sequence.complete_ofList _, Sequence.complete_nil⟩
  · exact ⟨Sequence.complete_ofList _, Sequence.complete_ofList _⟩

theorem dials_read_in_order :
    (∀ d ∈ Dimension.pair dialStarts dialRestarts, d.Finite) ∧
    Sequence.cursor.RunsThrough (.product (Dimension.pair dialStarts dialRestarts)) [[1, 3, 4], [1, 3, 5], [1, 3, 6]] ∧
    Sequence.cursor.RunsThrough (.product ([fun _ => .ofList [7, 8], fun _ => .ofList [9]].map Dimension.ofFactory))
      [[7, 9], [8, 9]] := by
  obtain ⟨hpairs, hfactories, -⟩ := product_reads_in_order Nat
  refine ⟨finite_dials, (hpairs dialStarts dialRestarts finite_dials).2.2.1 (by decide), ?_⟩
  refine (hfactories [fun _ => .ofList [7, 8], fun _ => .ofList [9]] ?_).2.1
  intro f hf
  simp only [List.mem_cons, List.not_mem_nil, or_false] at hf
  rcases hf with rfl | rfl <;> exact Sequence.complete_ofList _

end TestInputs
