/-
Sampling as thinning by place. Which elements of a sequence a sample keeps is settled before any of them is seen: the
first one, and every later one for which the draw of its place says so. The draws form a stream that the seed and the
fraction determine, and each place after the first has a draw of its own.

In the sequence a draw happens when the cursor moves, while it looks for the next element to keep. `Sampler` shows this
course move by move, with the position in the stream of draws as part of its state. What keeps places and draws aligned
is an invariant of its moves: a sampler that stands on an element has taken one draw for each element after the first up
to that one, kept or passed, and one that has come to the end has taken none for the end, however often it is moved on.

Results:
- `toList_thin`, `toList_sampled`: a sample lists the elements at the places that are kept;
- `Sampling.isIdentity_iff`: everything is kept exactly if the fraction is at least one;
- `aligned_settle`, `aligned_advance`, `aligned_after`: the search for the next element, a move, and any number of moves
  keep places and draws aligned;
- `Aligned.element?_eq`: an aligned sampler shows the sample;
- `samples_thin_by_place`: the statement for samples of finite sequences.
-/
import Mathlib.Algebra.Order.Field.Rat
import Mathlib.Algebra.Order.Field.Power
import TestInputs.Proofs.Cursors

namespace TestInputs

variable {α β : Type}

/-! ## Members at places -/

/-- the members of a list at the places for which `keep` holds -/
def atPlaces (keep : Nat → Bool) (xs : List α) : List α :=
  (xs.zipIdx.filter fun p => keep p.2).map Prod.fst

@[simp] theorem atPlaces_nil (keep : Nat → Bool) : atPlaces keep ([] : List α) = [] := rfl

theorem atPlaces_cons (keep : Nat → Bool) (x : α) (xs : List α) :
    atPlaces keep (x :: xs) =
      if keep 0 then x :: atPlaces (fun i => keep (i + 1)) xs else atPlaces (fun i => keep (i + 1)) xs := by
  have hrest : ((xs.zipIdx 1).filter fun p => keep p.2).map Prod.fst = atPlaces (fun i => keep (i + 1)) xs := by
    rw [List.zipIdx_succ, List.filter_map, List.map_map]
    rfl
  rw [atPlaces, List.zipIdx_cons, List.filter_cons, Nat.zero_add]
  split_ifs
  · rw [List.map_cons, hrest]
  · exact hrest

theorem atPlaces_append (keep : Nat → Bool) (xs ys : List α) :
    atPlaces keep (xs ++ ys) = atPlaces keep xs ++ atPlaces (fun i => keep (xs.length + i)) ys := by
  induction xs generalizing keep with
  | nil => simp
  | cons x xs ih =>
    have hshift : ∀ i, xs.length + i + 1 = (x :: xs).length + i := by
      intro i
      rw [List.length_cons]
      omega
    rw [List.cons_append, atPlaces_cons, atPlaces_cons, ih]
    simp only [hshift]
    split_ifs
    · rw [List.cons_append]
    · rfl

theorem atPlaces_map (keep : Nat → Bool) (f : α → β) (xs : List α) :
    atPlaces keep (xs.map f) = (atPlaces keep xs).map f := by
  induction xs generalizing keep with
  | nil => rfl
  | cons x xs ih =>
    rw [List.map_cons, atPlaces_cons, atPlaces_cons, ih]
    split_ifs <;> rfl

theorem atPlaces_sublist (keep : Nat → Bool) (xs : List α) : (atPlaces keep xs).Sublist xs := by
  have hall : xs.zipIdx.map Prod.fst = xs := List.zipIdx_map_fst 0 xs
  conv_rhs => rw [← hall]
  exact List.filter_sublist.map _

theorem atPlaces_prefix (keep : Nat → Bool) {xs ys : List α} (h : xs <+: ys) :
    atPlaces keep xs <+: atPlaces keep ys := by
  obtain ⟨zs, rfl⟩ := h
  rw [atPlaces_append]
  exact List.prefix_append _ _

theorem atPlaces_eq_self {keep : Nat → Bool} (h : ∀ i, keep i = true) (xs : List α) : atPlaces keep xs = xs := by
  rw [atPlaces, List.filter_eq_self.2 fun p _ => h p.2, List.zipIdx_map_fst]

/-- one place further -/
theorem atPlaces_take_succ (keep : Nat → Bool) {xs : List α} {m : Nat} {x : α} (hx : xs[m]? = some x) :
    atPlaces keep (xs.take (m + 1)) = atPlaces keep (xs.take m) ++ if keep m then [x] else [] := by
  have hm : m < xs.length := (List.getElem?_eq_some_iff.1 hx).1
  rw [List.take_add_one, hx, Option.toList_some, atPlaces_append, List.length_take_of_le hm.le, atPlaces_cons]
  simp

/-- a member that is kept comes behind those that are kept before it -/
theorem getElem?_atPlaces {keep : Nat → Bool} {xs : List α} {m : Nat} {x : α} (hx : xs[m]? = some x)
    (hkeep : keep m = true) : (atPlaces keep xs)[(atPlaces keep (xs.take m)).length]? = some x := by
  obtain ⟨hm, hx⟩ := List.getElem?_eq_some_iff.1 hx
  have hsplit : xs = xs.take m ++ x :: xs.drop (m + 1) := by
    rw [← hx, ← List.drop_eq_getElem_cons hm, List.take_append_drop]
  conv_lhs => rw [hsplit, atPlaces_append, ← hsplit]
  rw [List.getElem?_append_right (le_refl _), Nat.sub_self, List.length_take_of_le hm.le, atPlaces_cons]
  simp [hkeep]

/-! ## Draws and fractions -/

namespace Draws

/-- the position after a number of words -/
def skip : Nat → Draws → Draws
  | 0, d => d
  | n + 1, d => skip n d.next.2

theorem skip_succ (n : Nat) (d : Draws) : skip (n + 1) d = (skip n d).next.2 := by
  induction n generalizing d with
  | zero => rfl
  | succ n ih => exact ih d.next.2

end Draws

namespace Binary

/-- the number m · 2^q -/
def value {f : Format} (x : Binary f) : ℚ := x.significand * 2 ^ x.exponent

theorem value_one : (one : Double).value = 1 := by
  have hsignificand : (one : Double).significand = 2 ^ 52 := by decide
  have hexponent : (one : Double).exponent = -52 := by decide
  rw [value, hsignificand, hexponent]
  norm_num

/-- one is neither NaN nor zero, so only the same bits are equal to it -/
theorem beq_one_iff {x : Double} : (x == one) = true ↔ x = one := by
  constructor
  · intro h
    have hequal : x.equal one = true := h
    have hzero : (one : Double).isZero = false := by decide
    simp only [equal, hzero, Bool.and_false, Bool.or_false, Bool.and_eq_true, beq_iff_eq] at hequal
    exact congrArg mk hequal.2
  · rintro rfl
    decide

/-- smaller bits have a smaller exponent -/
theorem value_lt_one {x : Double} (h : x.bits.toNat < (one : Double).bits.toNat) : x.value < 1 := by
  have hbits : x.bits.toNat < 1023 * 2 ^ 52 := h
  have hmagnitude : x.magnitude = x.bits.toNat := Nat.mod_eq_of_lt (show x.bits.toNat < 2 ^ 63 by omega)
  have hfield : x.exponentField = x.bits.toNat / 2 ^ 52 := by rw [← hmagnitude]; rfl
  have hfraction : x.fractionField < 2 ^ 52 := Nat.mod_lt _ (by decide)
  have hsignificand : x.significand < 2 ^ 53 := by
    have hhidden : Nat.pow 2 Format.double.fractionBits = 2 ^ 52 := rfl
    rw [significand, hhidden]
    split_ifs <;> omega
  have hexponent : x.exponent ≤ -53 := by
    have hleast : Format.double.leastExponent = -1074 := rfl
    rw [exponent, hleast, hfield]
    split_ifs <;> omega
  calc x.value ≤ x.significand * 2 ^ (-53 : ℤ) :=
        mul_le_mul_of_nonneg_left (zpow_le_zpow_right₀ (by norm_num) hexponent) (Nat.cast_nonneg _)
    _ < (2 ^ 53 : ℕ) * 2 ^ (-53 : ℤ) := by
        apply mul_lt_mul_of_pos_right
        · exact_mod_cast hsignificand
        · positivity
    _ = 1 := by norm_num

end Binary

namespace Sampling

/-- everything is kept exactly if the fraction is at least one -/
theorem isIdentity_iff (s : Sampling) : s.isIdentity = true ↔ 1 ≤ s.fraction.value := by
  have hle : s.fraction.bits.toNat ≤ (Binary.one : Double).bits.toNat := by
    have hvalid := s.valid
    simp only [Binary.isFraction, Bool.and_eq_true, decide_eq_true_eq] at hvalid
    exact hvalid.2
  rw [isIdentity, Binary.beq_one_iff]
  constructor
  · intro hone
    rw [hone, Binary.value_one]
  · intro hvalue
    rcases Nat.lt_or_eq_of_le hle with hlt | heq
    · exact absurd hvalue (not_le.2 (Binary.value_lt_one hlt))
    · exact congrArg Binary.mk (BitVec.eq_of_toNat_eq heq)

/-- the decision that is drawn after a number of earlier ones -/
def draw (s : Sampling) (earlier : Nat) : Bool :=
  (((Draws.ofSeed s.seed).skip earlier).decide s.fraction).1

/-- is the element at a place kept? The first one is; a fraction of one keeps all others, and else the draws decide,
one for each place -/
def keeps (s : Sampling) : Nat → Bool
  | 0 => true
  | i + 1 => s.isIdentity || s.draw i

/-- the stream after a number of elements that were drawn for; a fraction of one takes no draws -/
def drawsAfter (s : Sampling) (count : Nat) : Draws :=
  if s.isIdentity then Draws.ofSeed s.seed else (Draws.ofSeed s.seed).skip count

theorem keeps_of_isIdentity {s : Sampling} (h : s.isIdentity = true) (i : Nat) : s.keeps i = true := by
  cases i with
  | zero => rfl
  | succ i => rw [keeps, h, Bool.true_or]

theorem keeps_succ {s : Sampling} (h : s.isIdentity = false) (i : Nat) : s.keeps (i + 1) = s.draw i := by
  rw [keeps, h, Bool.false_or]

end Sampling

/-! ## Samples -/

namespace Sequence

theorem toList_thin (fraction : Double) (draws : Draws) (s : Sequence α) :
    (thin fraction draws s).toList = atPlaces (fun i => ((draws.skip i).decide fraction).1) s.toList := by
  induction s generalizing draws with
  | nil => rfl
  | cut => rfl
  | cons a t ih =>
    -- a decision moves the stream on by one word
    have hrest : (draws.decide fraction).2 = draws.next.2 := rfl
    rw [toList_cons, atPlaces_cons]
    cases hdecide : draws.decide fraction with
    | mk kept rest =>
      rw [hdecide] at hrest
      subst hrest
      cases kept with
      | true => simp only [thin, hdecide, toList_cons, ih, Draws.skip, if_true]
      | false => simp only [thin, hdecide, ih, Draws.skip, Bool.false_eq_true, if_false]

/-- **A sample lists the elements at the places that are kept.** -/
theorem toList_sampled (sampling : Sampling) (s : Sequence α) :
    (s.sampled sampling).toList = atPlaces sampling.keeps s.toList := by
  cases s with
  | nil => rfl
  | cut => rfl
  | cons a t =>
    rw [sampled]
    split_ifs with hidentity
    · rw [atPlaces_eq_self (Sampling.keeps_of_isIdentity hidentity)]
    · have hdraws : (fun i => sampling.keeps (i + 1)) = sampling.draw :=
        funext fun i => Sampling.keeps_succ (by simpa using hidentity) i
      rw [toList_cons, toList_cons, toList_thin, atPlaces_cons, hdraws]
      rfl

theorem advanceBy_succ (n : Nat) (s : Sequence α) : s.advanceBy (n + 1) = (s.advanceBy n).advance := by
  induction n generalizing s with
  | zero => rfl
  | succ n ih => exact ih s.advance

theorem toList_advanceBy (n : Nat) (s : Sequence α) : (s.advanceBy n).toList = s.toList.drop n := by
  induction n with
  | zero => rfl
  | succ n ih => rw [advanceBy_succ, toList_advance, ih, List.tail_drop]

end Sequence

/-! ## Moves -/

/-- a cursor that samples: where it stands in the sequence, and its position in the stream of draws -/
structure Sampler (α : Type) where
  inner : Sequence α
  draws : Draws

namespace Sampler

variable (sampling : Sampling)

def start (s : Sequence α) : Sampler α := ⟨s, Draws.ofSeed sampling.seed⟩

/-- draw for the current element and those behind it until one is kept; at the end there is nothing to draw for -/
def settle (draws : Draws) : Sequence α → Sampler α
  | .nil => ⟨.nil, draws⟩
  | .cut => ⟨.cut, draws⟩
  | .cons a t =>
    if sampling.isIdentity then ⟨.cons a t, draws⟩
    else
      match draws.decide sampling.fraction with
      | (true, draws) => ⟨.cons a t, draws⟩
      | (false, draws) => settle draws (t ())

/-- move to the next element that is kept -/
def advance (s : Sampler α) : Sampler α := settle sampling s.draws s.inner.advance

/-- move a number of times from the start -/
def after (s : Sequence α) : Nat → Sampler α
  | 0 => start sampling s
  | k + 1 => (after s k).advance sampling

/-- after a number of moves places and draws are aligned: the sampler stands on a kept element with that many kept ones
before it, and has taken a draw for each element after the first up to there, or it has passed all kept elements, and
has taken no more draws than that -/
inductive Aligned (s : Sequence α) (moves : Nat) : Sampler α → Prop
  | standing {m : Nat} (inside : m < s.toList.length) (kept : sampling.keeps m = true)
      (passed : (atPlaces sampling.keeps (s.toList.take m)).length = moves) :
      Aligned s moves ⟨s.advanceBy m, sampling.drawsAfter m⟩
  | ended (passed : (atPlaces sampling.keeps s.toList).length ≤ moves) :
      Aligned s moves ⟨s.advanceBy s.toList.length, sampling.drawsAfter (s.toList.length - 1)⟩

variable {sampling} {s : Sequence α}

/-- a sampler does not move at the end, and takes no draw -/
theorem settle_of_toList_nil (draws : Draws) {rest : Sequence α} (h : rest.toList = []) :
    settle sampling draws rest = ⟨rest, draws⟩ := by
  cases rest with
  | nil => rfl
  | cut => rfl
  | cons a t => cases h

theorem aligned_of_end {p moves : Nat} (hp : p < s.toList.length)
    (hpassed : (atPlaces sampling.keeps (s.toList.take (p + 1))).length = moves)
    (hend : (s.advanceBy (p + 1)).toList = []) :
    Aligned sampling s moves (settle sampling (sampling.drawsAfter p) (s.advanceBy (p + 1))) := by
  have hlength : s.toList.length = p + 1 := by
    rw [Sequence.toList_advanceBy, List.drop_eq_nil_iff] at hend
    omega
  have hended : Aligned sampling s moves ⟨s.advanceBy s.toList.length, sampling.drawsAfter (s.toList.length - 1)⟩ := by
    apply Aligned.ended
    rw [← hpassed, ← hlength, List.take_length]
  rw [hlength, Nat.add_sub_cancel] at hended
  rw [settle_of_toList_nil _ hend]
  exact hended

/-- the search for the next element to keep, from behind the place `p` on -/
theorem aligned_settle {p moves : Nat} (hp : p < s.toList.length)
    (hpassed : (atPlaces sampling.keeps (s.toList.take (p + 1))).length = moves) :
    Aligned sampling s moves (settle sampling (sampling.drawsAfter p) (s.advanceBy (p + 1))) := by
  generalize hrest : s.advanceBy (p + 1) = rest
  induction rest generalizing p with
  | nil => exact hrest ▸ aligned_of_end hp hpassed (by rw [hrest]; rfl)
  | cut => exact hrest ▸ aligned_of_end hp hpassed (by rw [hrest]; rfl)
  | cons a t ih =>
    have hdrop : s.toList.drop (p + 1) = a :: (t ()).toList := by rw [← Sequence.toList_advanceBy, hrest]; rfl
    have hplace : s.toList[p + 1]? = some a := by rw [← List.head?_drop, hdrop]; rfl
    have hinside : p + 1 < s.toList.length := (List.getElem?_eq_some_iff.1 hplace).1
    have hstanding : sampling.keeps (p + 1) = true →
        Aligned sampling s moves ⟨.cons a t, sampling.drawsAfter (p + 1)⟩ := by
      intro hkept
      rw [← hrest]
      exact .standing hinside hkept hpassed
    cases hidentity : sampling.isIdentity with
    | true =>
      have hdraws : sampling.drawsAfter p = sampling.drawsAfter (p + 1) := by
        simp only [Sampling.drawsAfter, hidentity, if_true]
      simp only [settle, hidentity, if_true, hdraws]
      exact hstanding (Sampling.keeps_of_isIdentity hidentity _)
    | false =>
      have hkeeps := Sampling.keeps_succ hidentity p
      have hdecide : (sampling.drawsAfter p).decide sampling.fraction =
          (sampling.draw p, sampling.drawsAfter (p + 1)) := by
        simp only [Sampling.drawsAfter, Sampling.draw, hidentity, Bool.false_eq_true, if_false, Draws.skip_succ]
        rfl
      simp only [settle, hidentity, Bool.false_eq_true, if_false, hdecide]
      cases hdraw : sampling.draw p with
      | true => exact hstanding (hkeeps.trans hdraw)
      | false =>
        -- the element is passed, which leaves as many kept ones before the next place
        refine ih () hinside ?_ (by rw [Sequence.advanceBy_succ, hrest]; rfl)
        rw [atPlaces_take_succ _ hplace, hkeeps, hdraw, ← hpassed]
        simp

/-- **A move keeps places and draws aligned.** -/
theorem aligned_advance {moves : Nat} {sampler : Sampler α} (h : Aligned sampling s moves sampler) :
    Aligned sampling s (moves + 1) (sampler.advance sampling) := by
  cases h with
  | @standing m hinside hkept hpassed =>
    rw [advance, ← Sequence.advanceBy_succ]
    apply aligned_settle hinside
    rw [atPlaces_take_succ _ (List.getElem?_eq_getElem hinside), if_pos hkept, List.length_append, hpassed]
    rfl
  | ended hpassed =>
    have hend : (s.advanceBy s.toList.length).toList = [] := by
      rw [Sequence.toList_advanceBy, List.drop_length]
    rw [advance, Sequence.advance_of_toList_nil hend, settle_of_toList_nil _ hend]
    exact .ended (Nat.le_succ_of_le hpassed)

/-- **Any number of moves keeps places and draws aligned.** -/
theorem aligned_after (sampling : Sampling) (s : Sequence α) (moves : Nat) :
    Aligned sampling s moves (after sampling s moves) := by
  induction moves with
  | zero =>
    have hstart : Sampling.drawsAfter sampling 0 = Draws.ofSeed sampling.seed := by
      unfold Sampling.drawsAfter
      split_ifs <;> rfl
    cases hlist : s.toList with
    | nil =>
      have hended : Aligned sampling s 0 _ := .ended (by rw [hlist]; exact le_refl 0)
      rw [hlist, List.length_nil, hstart] at hended
      exact hended
    | cons a as =>
      have hstanding : Aligned sampling s 0 _ := .standing (m := 0) (by rw [hlist]; exact Nat.zero_lt_succ _) rfl rfl
      rw [hstart] at hstanding
      exact hstanding
  | succ moves ih => exact aligned_advance ih

/-- an aligned sampler shows the element of the sample at the number of its moves -/
theorem Aligned.element?_eq {moves : Nat} {sampler : Sampler α} (h : Aligned sampling s moves sampler) :
    sampler.inner.element? = (s.sampled sampling).toList[moves]? := by
  rw [Sequence.toList_sampled, Sequence.element?_eq_head?]
  cases h with
  | standing hinside hkept hpassed =>
    rw [Sequence.toList_advanceBy, List.head?_drop, ← hpassed,
      getElem?_atPlaces (List.getElem?_eq_getElem hinside) hkept, List.getElem?_eq_getElem hinside]
  | ended hpassed =>
    rw [Sequence.toList_advanceBy, List.drop_length, List.getElem?_eq_none hpassed]
    rfl

end Sampler

/-! ## Thinning -/

/-- **A sample thins by place.** A sample of a finite sequence is finite. With a fraction of at least one it is the
whole list; with a smaller one it is the first element and those of the others for which the draw of their place says
so. A caller who moves through it in any way sees these elements and no others, in their order and the first of them in
front. What they are makes no difference to which are kept, and what follows makes none to what is kept before it. Move
by move, each element after the first takes one draw, whether it is kept or not, and the end takes none. -/
theorem samples_thin_by_place (sampling : Sampling) (s : Sequence α) (h : s.Complete) :
    (s.sampled sampling).Complete ∧
    Sequence.cursor.RunsThrough (s.sampled sampling) (atPlaces sampling.keeps s.toList) ∧
    (1 ≤ sampling.fraction.value → (s.sampled sampling).toList = s.toList) ∧
    (sampling.fraction.value < 1 → ∀ x xs, s.toList = x :: xs →
      (s.sampled sampling).toList = x :: atPlaces sampling.draw xs) ∧
    ((s.sampled sampling).toList.Sublist s.toList ∧ (s.sampled sampling).toList.head? = s.toList.head?) ∧
    (∀ (β : Type) (f : α → β), ((s.map f).sampled sampling).toList = (s.sampled sampling).toList.map f) ∧
    (∀ t : Sequence α, t.toList <+: s.toList → (t.sampled sampling).toList <+: (s.sampled sampling).toList) ∧
    ∀ moves, Sampler.Aligned sampling s moves (Sampler.after sampling s moves) ∧
      (Sampler.after sampling s moves).inner.element? = (s.sampled sampling).toList[moves]? := by
  have hlist := s.toList_sampled sampling
  refine ⟨(Sequence.sampled_spec sampling s).2.2 h, Sequence.runsThrough_iff.2 hlist, ?_, ?_, ⟨?_, ?_⟩, ?_, ?_, ?_⟩
  · intro hwhole
    have hidentity := sampling.isIdentity_iff.2 hwhole
    rw [hlist, atPlaces_eq_self (Sampling.keeps_of_isIdentity hidentity)]
  · intro hbelow x xs hxs
    have hidentity : sampling.isIdentity = false := by
      rw [Bool.eq_false_iff, Ne, sampling.isIdentity_iff]
      exact not_le.2 hbelow
    rw [hlist, hxs, atPlaces_cons]
    simp only [Sampling.keeps_succ hidentity]
    rfl
  · rw [hlist]
    exact atPlaces_sublist _ _
  · rw [hlist]
    cases s.toList with
    | nil => rfl
    | cons x xs => rw [atPlaces_cons]; rfl
  · intro β f
    rw [Sequence.toList_sampled, Sequence.toList_map, atPlaces_map, hlist]
  · intro t hprefix
    rw [Sequence.toList_sampled, hlist]
    exact atPlaces_prefix _ hprefix
  · intro moves
    have haligned := Sampler.aligned_after sampling s moves
    exact ⟨haligned, haligned.element?_eq⟩

/-! A quarter of some numbers, and all of them. -/

def someNumbers : Sequence Nat := .ofList [10, 11, 12, 13, 14, 15, 16, 17, 18]

def quarter : Sampling := { fraction := .ofBits 0x3fd0000000000000, seed := 7, valid := by decide }

def everything : Sampling := { fraction := .one, seed := 42, valid := by decide }

theorem numbers_thin_by_place :
    someNumbers.Complete ∧ quarter.fraction.value < 1 ∧
    (someNumbers.sampled quarter).toList = 10 :: atPlaces quarter.draw [11, 12, 13, 14, 15, 16, 17, 18] ∧
    (someNumbers.sampled quarter).toList = [10, 11, 13, 17] ∧
    (Sampler.after quarter someNumbers 1).inner.element? = (someNumbers.sampled quarter).toList[1]? ∧
    1 ≤ everything.fraction.value ∧ (someNumbers.sampled everything).toList = someNumbers.toList := by
  have hcomplete : someNumbers.Complete := Sequence.complete_ofList _
  have hbelow : quarter.fraction.value < 1 := Binary.value_lt_one (by decide)
  have hwhole : 1 ≤ everything.fraction.value := Binary.value_one.ge
  obtain ⟨-, -, -, hdrawn, -, -, -, hmoves⟩ := samples_thin_by_place quarter someNumbers hcomplete
  obtain ⟨-, -, hall, -⟩ := samples_thin_by_place everything someNumbers hcomplete
  exact ⟨hcomplete, hbelow, hdrawn hbelow _ _ rfl, by decide +kernel, (hmoves 1).2, hwhole, hall hwhole⟩

end TestInputs
