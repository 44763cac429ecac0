/-
Arrays by length. The arrays over a component sequence are the absent one, the empty one, and then all arrays of length
one, of length two and so on up to a greatest length. The arrays of one length come up as on an odometer with one wheel
for each element: the place of an array in its block, written with the elements as digits, is the array itself. A
greater length only adds blocks at the end.

Results:
- `mem_ofLength`, `length_ofLength`: the arrays of a length are all lists of that length over the elements, and as many
  as the power says;
- `getElem?_ofLength`: the digits of its place spell the array;
- `upTo_prefix`: a greater length continues the list for a smaller one;
- `arrays_come_by_length`: the statement for sequences of arrays and their callers.
-/
import Mathlib.Algebra.BigOperators.Intervals
import TestInputs.Proofs.Listing
import TestInputs.Proofs.Readings

namespace TestInputs

variable {α β : Type}

/-! ## Blocks of one length -/

/-- where all parts have the same length, the place of a member tells the part and the place in it -/
theorem getElem?_flatMap_of_length {xs : List α} {f : α → List β} {size : Nat} (h : ∀ x ∈ xs, (f x).length = size)
    (hsize : 0 < size) (i : Nat) : (xs.flatMap f)[i]? = xs[i / size]?.bind fun x => (f x)[i % size]? := by
  induction xs generalizing i with
  | nil => simp
  | cons x xs ih =>
    have hx := h x List.mem_cons_self
    have hxs : ∀ y ∈ xs, (f y).length = size := fun y hy => h y (List.mem_cons_of_mem _ hy)
    rw [List.flatMap_cons]
    by_cases hi : i < size
    · rw [List.getElem?_append_left (hx ▸ hi), Nat.div_eq_of_lt hi, Nat.mod_eq_of_lt hi]
      rfl
    · have hle : size ≤ i := Nat.not_lt.1 hi
      rw [List.getElem?_append_right (hx ▸ hle), hx, ih hxs, Nat.div_eq_sub_div hsize hle, Nat.mod_eq_sub_mod hle]
      rfl

/-- the digits of a number below some place are those of its remainder there -/
theorem digit_mod_pow (base i : Nat) {k n : Nat} (h : k < n) :
    i % base ^ n / base ^ k % base = i / base ^ k % base := by
  have hsplit : base ^ n = base ^ k * base ^ (n - k) := by rw [← pow_add, Nat.add_sub_cancel' h.le]
  rw [hsplit, Nat.mod_mul_right_div_self, Nat.mod_mod_of_dvd _ (dvd_pow_self base (by omega))]

namespace Arrays

/-- all arrays of a length over a list, the last element varying fastest -/
def ofLength (xs : List α) (n : Nat) : List (List α) := lexicographic (List.replicate n xs)

/-- the absent array, the empty one, and all others up to a length, short ones first -/
def upTo (xs : List α) (longest : Nat) : List (Option (List α)) :=
  none :: some [] :: ((List.range' 1 longest).flatMap (ofLength xs)).map some

theorem ofLength_succ (xs : List α) (n : Nat) :
    ofLength xs (n + 1) = xs.flatMap fun x => (ofLength xs n).map (x :: ·) := rfl

theorem mem_ofLength {xs t : List α} {n : Nat} : t ∈ ofLength xs n ↔ t.length = n ∧ ∀ x ∈ t, x ∈ xs := by
  rw [ofLength, mem_lexicographic]
  constructor
  · intro h
    refine ⟨by rw [h.length_eq, List.length_replicate], fun x hx => ?_⟩
    obtain ⟨ys, hys, hxy⟩ := exists_partner h hx
    rw [List.eq_of_mem_replicate hys] at hxy
    exact hxy
  · rintro ⟨rfl, h⟩
    induction t with
    | nil => exact .nil
    | cons x t ih => exact .cons (h x List.mem_cons_self) (ih fun y hy => h y (List.mem_cons_of_mem _ hy))

theorem length_ofLength (xs : List α) (n : Nat) : (ofLength xs n).length = xs.length ^ n := by
  rw [ofLength, length_lexicographic, List.map_replicate]
  exact List.prod_replicate n xs.length

/-- **The place of an array spells it.** The digits of the place to the base of the number of elements, as many as the
array is long and the highest first, are the places of the elements. -/
theorem getElem?_ofLength {xs : List α} {n i : Nat} (hi : i < xs.length ^ n) :
    ∃ t, (ofLength xs n)[i]? = some t ∧ t.length = n ∧
      ∀ p < n, t[p]? = xs[i / xs.length ^ (n - 1 - p) % xs.length]? := by
  induction n generalizing i with
  | zero =>
    obtain rfl : i = 0 := by simpa using hi
    exact ⟨[], rfl, rfl, fun p hp => by cases hp⟩
  | succ n ih =>
    have hpower : xs.length ^ (n + 1) = xs.length ^ n * xs.length := pow_succ _ _
    have hpos : 0 < xs.length ^ n := by
      rw [hpower] at hi
      exact Nat.pos_of_mul_pos_right (Nat.zero_lt_of_lt hi)
    have hdigit : i / xs.length ^ n < xs.length := by
      rw [Nat.div_lt_iff_lt_mul hpos, Nat.mul_comm, ← hpower]
      exact hi
    obtain ⟨u, hu, hlength, hdigits⟩ := ih (Nat.mod_lt i hpos)
    have hblock : ∀ x ∈ xs, ((ofLength xs n).map (x :: ·)).length = xs.length ^ n := by
      intro x _
      rw [List.length_map, length_ofLength]
    refine ⟨xs[i / xs.length ^ n] :: u, ?_, by rw [List.length_cons, hlength], fun p hp => ?_⟩
    · rw [ofLength_succ, getElem?_flatMap_of_length hblock hpos, List.getElem?_eq_getElem hdigit, Option.bind_some,
        List.getElem?_map, hu]
      rfl
    · cases p with
      | zero =>
        rw [List.getElem?_cons_zero, Nat.add_sub_cancel, Nat.sub_zero, Nat.mod_eq_of_lt hdigit,
          List.getElem?_eq_getElem hdigit]
      | succ p =>
        have hp : p < n := Nat.lt_of_succ_lt_succ hp
        have hexponent : n + 1 - 1 - (p + 1) = n - 1 - p := by omega
        -- the digits behind the first are those of the remainder
        rw [List.getElem?_cons_succ, hdigits p hp, hexponent, digit_mod_pow _ _ (by omega)]

/-! ## All lengths -/

theorem length_upTo (xs : List α) (longest : Nat) :
    (upTo xs longest).length = 2 + ∑ n ∈ Finset.Icc 1 longest, xs.length ^ n := by
  rw [upTo, List.length_cons, List.length_cons, List.length_map, List.length_flatMap]
  induction longest with
  | zero => rfl
  | succ longest ih =>
    rw [List.range'_concat, List.map_append, List.sum_append, Finset.sum_Icc_succ_top (by omega)]
    simp only [List.map_cons, List.map_nil, List.sum_cons, List.sum_nil, length_ofLength] at ih ⊢
    rw [Nat.one_mul, Nat.add_comm 1 longest]
    omega

/-- without elements, and without a length to build, the two boundary values are left -/
theorem upTo_of_empty {xs : List α} {longest : Nat} (h : xs = [] ∨ longest = 0) :
    upTo xs longest = [none, some []] := by
  rcases h with rfl | rfl
  · have hnone : ∀ n ∈ List.range' 1 longest, ofLength ([] : List α) n = [] := by
      intro n hn
      have hpos := (List.mem_range'_1.1 hn).1
      exact lexicographic_eq_nil (List.mem_replicate.2 ⟨by omega, rfl⟩)
    rw [upTo, List.flatMap_eq_nil_iff.2 hnone]
    rfl
  · rfl

theorem upTo_prefix (xs : List α) {m n : Nat} (h : m ≤ n) : upTo xs m <+: upTo xs n := by
  obtain ⟨k, rfl⟩ := Nat.exists_eq_add_of_le h
  rw [upTo, upTo, ← List.range'_append_1, List.flatMap_append, List.map_append]
  exact List.prefix_append _ _

end Arrays

/-! ## Sequences of arrays -/

/-- **Arrays come by length.** Over a finite component sequence the arrays up to a length are finitely many. A caller
who moves through them in any way sees the absent array, the empty one, and then block by block the arrays of each
length; their number is that of the two boundary values and a power for each length, and the boundary values are all
there is if there are no elements or no length to build. The block of a length holds exactly the lists of that length
over the elements, each at the place that its elements spell. The list for a length starts the list for every greater
one. -/
theorem arrays_come_by_length (component : Unit → Sequence α) (h : (component ()).Complete) :
    (∀ longest,
      (Sequence.arrays component longest).Complete ∧
      Sequence.cursor.RunsThrough (.arrays component longest) (Arrays.upTo (component ()).toList longest) ∧
      (Sequence.arrays component longest).toList.length =
        2 + ∑ n ∈ Finset.Icc 1 longest, (component ()).toList.length ^ n ∧
      ((component ()).toList = [] ∨ longest = 0 →
        Sequence.cursor.RunsThrough (.arrays component longest) [none, some []])) ∧
    (∀ n,
      (∀ t, t ∈ Arrays.ofLength (component ()).toList n ↔ t.length = n ∧ ∀ x ∈ t, x ∈ (component ()).toList) ∧
      (Arrays.ofLength (component ()).toList n).length = (component ()).toList.length ^ n ∧
      ∀ i < (component ()).toList.length ^ n, ∃ t, (Arrays.ofLength (component ()).toList n)[i]? = some t ∧
        t.length = n ∧ ∀ p < n, t[p]? =
          (component ()).toList[i / (component ()).toList.length ^ (n - 1 - p) % (component ()).toList.length]?) ∧
    ∀ m n, m ≤ n → (Sequence.arrays component m).toList <+: (Sequence.arrays component n).toList := by
  have hlist : ∀ longest, (Sequence.arrays component longest).toList = Arrays.upTo (component ()).toList longest :=
    Sequence.toList_arrays h
  refine ⟨fun longest => ⟨Sequence.complete_arrays h longest, ?_, ?_, fun hempty => ?_⟩, fun n => ⟨?_, ?_, ?_⟩, ?_⟩
  · exact Sequence.runsThrough_iff.2 (hlist longest)
  · rw [hlist, Arrays.length_upTo]
  · rw [Sequence.runsThrough_iff, hlist, Arrays.upTo_of_empty hempty]
  · exact fun t => Arrays.mem_ofLength
  · exact Arrays.length_ofLength _ n
  · exact fun i hi => Arrays.getElem?_ofLength hi
  · intro m n hmn
    rw [hlist, hlist]
    exact Arrays.upTo_prefix _ hmn

/-! Arrays over a short list of numbers, and over no numbers at all. -/

def twoNumbers : Unit → Sequence Nat := fun _ => .ofList [3, 5]

theorem numbers_come_by_length :
    (twoNumbers ()).Complete ∧
    Sequence.cursor.RunsThrough (.arrays twoNumbers 2)
      [none, some [], some [3], some [5], some [3, 3], some [3, 5], some [5, 3], some [5, 5]] ∧
    (Sequence.arrays twoNumbers 9).toList.length = 2 + ∑ n ∈ Finset.Icc 1 9, 2 ^ n ∧
    (∃ t, (Arrays.ofLength [3, 5] 4)[9]? = some t ∧ t.length = 4 ∧ ∀ p < 4, t[p]? = [3, 5][9 / 2 ^ (4 - 1 - p) % 2]?) ∧
    (Sequence.arrays twoNumbers 2).toList <+: (Sequence.arrays twoNumbers 7).toList ∧
    (Sequence.nil : Sequence Nat).Complete ∧
    Sequence.cursor.RunsThrough (.arrays (fun _ => (.nil : Sequence Nat)) 6) [none, some []] := by
  obtain ⟨hall, hblocks, hprefix⟩ := arrays_come_by_length twoNumbers (Sequence.complete_ofList _)
  obtain ⟨hnone, -, -⟩ := arrays_come_by_length (fun _ => (.nil : Sequence Nat)) Sequence.complete_nil
  exact ⟨Sequence.complete_ofList _, (hall 2).2.1, (hall 9).2.2.1, (hblocks 4).2.2 9 (by decide),
    hprefix 2 7 (by decide), Sequence.complete_nil, (hnone 6).2.2.2 (Or.inl rfl)⟩

end TestInputs
