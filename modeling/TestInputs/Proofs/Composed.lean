/-
Composed cursors run through lists. A cursor is put together from leaves, which are lists, iterators and nothing, by
joining, filtering, mapping and sampling, by products, arrays and instances, to any depth. Inputs may have been moved
before, and the ways to restart a dimension may lead to other cursors than its start.

`Composed` puts such a cursor, as a state of its machine, beside the sequence that is enumerated in its place. Whatever
the machine does move by move, a caller sees the list of the sequence.

Results:
- `toList_sampled_eq_thinned`: a sample of a sequence, with one draw after the other;
- `Composed.shows`: a composed cursor shows the list of its sequence, in which nothing is given up;
- `composed_runs_through_one_list`: it runs through exactly one list, and which one for queues, filters and maps.
-/
import TestInputs.Proofs.Reels

namespace TestInputs

variable {σ α : Type}

/-! ## Samples -/

theorem toList_thin_eq_thinned {sampling : Sampling} (h : sampling.isIdentity = false) (draws : Draws)
    (q : Sequence α) : (q.thin sampling.fraction draws).toList = Machine.thinned sampling draws q.toList := by
  induction q generalizing draws with
  | nil => rfl
  | cut => rfl
  | cons a t ih =>
    have hkeep : Machine.keepNext sampling draws = draws.decide sampling.fraction := by simp [Machine.keepNext, h]
    rw [Sequence.toList_cons, Machine.thinned, hkeep, Sequence.thin]
    cases draws.decide sampling.fraction with
    | mk kept rest => cases kept <;> simp [ih]

theorem thinned_of_isIdentity {sampling : Sampling} (h : sampling.isIdentity = true) (draws : Draws) (xs : List α) :
    Machine.thinned sampling draws xs = xs := by
  induction xs with
  | nil => rfl
  | cons x xs ih => simp [Machine.thinned, Machine.keepNext, h, ih]

theorem toList_sampled_eq_thinned (sampling : Sampling) (q : Sequence α) : (q.sampled sampling).toList =
    q.toList.head?.toList ++ Machine.thinned sampling (Draws.ofSeed sampling.seed) q.toList.tail := by
  cases q with
  | nil => rfl
  | cut => rfl
  | cons a t =>
    rw [Sequence.sampled]
    split_ifs with hidentity
    · rw [Sequence.toList_cons, List.tail_cons, thinned_of_isIdentity hidentity]
      rfl
    · rw [Sequence.toList_cons, toList_thin_eq_thinned (by simpa using hidentity)]
      rfl

/-! ## Composed cursors -/

/-- states of machines that are put together from lists and iterators, beside the sequences that are enumerated for
them. Instances are those of the constructor that was chosen for its arguments. -/
inductive Composed : {σ α : Type} → Machine σ α → σ → Sequence α → Prop
  | exhausted {α : Type} : Composed (.exhausted : Machine Unit α) () .nil
  | indexed {α : Type} (values : List α) : Composed .indexed { values } (.ofList values)
  | buffered {ι α : Type} {next : ι → Option α × ι} {i : ι} {q : Sequence α} : q.Complete →
      Machine.Yields next i q.toList → Composed (.buffered next) (Machine.buffer next i) q
  | boxed {ι α : Type} {σ : ι → Type} {machines : ∀ i, Machine (σ i) α} {i : ι} {s : σ i} {q : Sequence α} :
      Composed (machines i) s q → Composed (.boxed machines) ⟨i, s⟩ q
  | used {σ α : Type} {m : Machine σ α} {s t : σ} {q : Sequence α} (steps : List CursorStep) : Composed m s q →
      t ∈ m.after s steps → Composed m t (Sequence.cursor.after q steps)
  | joined {σ α : Type} {m : Machine σ α} {parts : List (σ × Sequence α)} : (∀ p ∈ parts, Composed m p.1 p.2) →
      Composed m.joined (m.join (parts.map Prod.fst)) (.concat (parts.map Prod.snd))
  | filtered {σ α : Type} {m : Machine σ α} {s t : σ} {q : Sequence α} (p : α → Bool) : Composed m s q →
      t ∈ m.settle p s → Composed (m.filtered p) t (q.filter p)
  | mapped {σ α β : Type} {m : Machine σ α} {s : σ} {q : Sequence α} (f : α → β) : Composed m s q →
      Composed (m.mapped f) s (q.map f)
  | sampled {σ α : Type} {m : Machine σ α} {s : σ} {q : Sequence α} (sampling : Sampling) : Composed m s q →
      Composed (m.sampled sampling) (s, Draws.ofSeed sampling.seed) (q.sampled sampling)
  | product {σ α : Type} {m : Machine σ α} {dimensions : List (Reel σ × Dimension α)} :
      (∀ d ∈ dimensions, Composed m d.1.state d.2.first) →
      (∀ d ∈ dimensions, Composed m (d.1.again ()) (d.2.again ())) →
      Composed m.product (m.mount (dimensions.map Prod.fst)) (.product (dimensions.map Prod.snd))
  | arrays {σ α : Type} {m : Machine σ α} {component : Unit → σ} {q : Unit → Sequence α} (maxLength : Nat) :
      Composed m (component ()) (q ()) → Composed (m.arrays component maxLength) .absent (.arrays q maxLength)
  | instances {σ : Type} {m : Machine σ Value} {info : TypeInfo} {h : Hierarchy} {c : Constructor} {index : Nat}
      {arguments : List (Reel σ × Argument)} {i : Instantiation} :
      (∀ a ∈ arguments, Composed m a.1.state a.2.dimension.first) →
      (∀ a ∈ arguments, Composed m (a.1.again ()) (a.2.dimension.again ())) →
      info.accepting h (arguments.map Prod.snd) = [(c, index)] → info.instantiate h (arguments.map Prod.snd) = .ok i →
      Composed (m.making fun tuple => (c.build info.ty index tuple).toOption)
        (m.begin (fun tuple => (c.build info.ty index tuple).toOption) (m.mount (arguments.map Prod.fst))) i.instances

namespace Composed

/-- nothing is given up in the sequence, and the state shows its list -/
def Faithful (m : Machine σ α) (s : σ) (q : Sequence α) : Prop := q.Complete ∧ m.Shows q.toList s

variable {m : Machine σ α} {s : σ} {q : Sequence α}

theorem faithful_used {t : σ} (h : Faithful m s q) (steps : List CursorStep) (ht : t ∈ m.after s steps) :
    Faithful m t (Sequence.cursor.after q steps) := by
  obtain ⟨u, hu, hshows⟩ := h.2.after steps
  obtain rfl := Part.mem_unique ht hu
  have hdrain : (Sequence.cursor.after q steps).toList = q.toList.drop (position q.toList.length steps) :=
    (Sequence.runsThrough_toList q).drain steps
  refine ⟨Sequence.complete_after h.1 steps, ?_⟩
  rw [hdrain]
  exact hshows

theorem faithful_joined {parts : List (σ × Sequence α)} (h : ∀ p ∈ parts, Faithful m p.1 p.2) :
    Faithful m.joined (m.join (parts.map Prod.fst)) (.concat (parts.map Prod.snd)) := by
  have hcomplete : ∀ q ∈ parts.map Prod.snd, q.Complete := List.forall_mem_map.2 fun p hp => (h p hp).1
  have hparts : List.Forall₂ m.Shows (parts.map fun p => p.2.toList) (parts.map Prod.fst) := by
    rw [List.forall₂_map_left_iff, List.forall₂_map_right_iff, List.forall₂_same]
    exact fun p hp => (h p hp).2
  refine ⟨Sequence.complete_concat hcomplete, ?_⟩
  rw [Sequence.toList_concat hcomplete, List.flatMap_map, List.flatMap_def]
  exact Machine.shows_join hparts

theorem faithful_filtered {t : σ} (h : Faithful m s q) (p : α → Bool) (ht : t ∈ m.settle p s) :
    Faithful (m.filtered p) t (q.filter p) := by
  obtain ⟨u, hu, hshows⟩ := h.2.settle p
  obtain rfl := Part.mem_unique ht hu
  refine ⟨(Sequence.complete_filter p q).2 h.1, ?_⟩
  rw [Sequence.toList_filter]
  exact hshows

theorem faithful_sampled (h : Faithful m s q) (sampling : Sampling) :
    Faithful (m.sampled sampling) (s, Draws.ofSeed sampling.seed) (q.sampled sampling) := by
  refine ⟨(Sequence.sampled_spec sampling q).2.2 h.1, ?_⟩
  rw [toList_sampled_eq_thinned]
  exact h.2.sampled sampling _

theorem faithful_product {dimensions : List (Reel σ × Dimension α)}
    (hfirst : ∀ d ∈ dimensions, Faithful m d.1.state d.2.first)
    (hagain : ∀ d ∈ dimensions, Faithful m (d.1.again ()) (d.2.again ())) :
    Faithful m.product (m.mount (dimensions.map Prod.fst)) (.product (dimensions.map Prod.snd)) := by
  have hfinite : ∀ d ∈ dimensions.map Prod.snd, d.Finite :=
    List.forall_mem_map.2 fun d hd => ⟨(hfirst d hd).1, (hagain d hd).1⟩
  have hwinds : List.Forall₂ m.Winds ((dimensions.map Prod.snd).map Dimension.lists) (dimensions.map Prod.fst) := by
    rw [List.map_map, List.forall₂_map_left_iff, List.forall₂_map_right_iff, List.forall₂_same]
    exact fun d hd => ⟨(hfirst d hd).2, (hagain d hd).2⟩
  refine ⟨?_, ?_⟩
  · exact Sequence.complete_product_of_complete (fun d hd => (hfinite d hd).1) fun d hd => (hfinite d hd).2
  · rw [Sequence.toList_product_of_finite hfinite]
    exact Machine.shows_mount hwinds

theorem faithful_arrays {component : Unit → σ} {q : Unit → Sequence α} (h : Faithful m (component ()) (q ()))
    (maxLength : Nat) : Faithful (m.arrays component maxLength) .absent (.arrays q maxLength) := by
  refine ⟨Sequence.complete_arrays h.1 maxLength, ?_⟩
  rw [Sequence.toList_arrays h.1]
  exact Machine.shows_arrays h.2 maxLength

/-- a constructor that was chosen has made something of the first tuple -/
theorem faithful_instances {m : Machine σ Value} {info : TypeInfo} {c : Constructor} {index : Nat} {s : Reels σ Value}
    {arguments : List Argument} {i : Instantiation}
    (h : Faithful m.product s (.product (arguments.map Argument.dimension)))
    (hi : info.instancesOf c index arguments = .ok i) :
    Faithful (m.making fun tuple => (c.build info.ty index tuple).toOption)
      (m.begin (fun tuple => (c.build info.ty index tuple).toOption) s) i.instances := by
  obtain ⟨hcomplete, hshows⟩ := h
  rw [Resolver.instances_eq hi]
  refine ⟨(Sequence.complete_filterMap _ _).2 hcomplete, ?_⟩
  rw [Sequence.toList_filterMap]
  simp only [TypeInfo.instancesOf] at hi
  generalize Sequence.product (arguments.map Argument.dimension) = tuples at hcomplete hshows hi
  cases tuples with
  | nil => cases hi
  | cut => exact hcomplete.elim
  | cons first rest =>
    cases hbuild : c.build info.ty index first with
    | error failure => simp [hbuild] at hi
    | ok value => exact Machine.shows_begin hshows (by rw [hbuild]; rfl)

/-- **Composed cursors show the lists of their sequences.** -/
theorem shows (h : Composed m s q) : Faithful m s q := by
  induction h with
  | exhausted => exact ⟨trivial, Machine.shows_exhausted⟩
  | indexed values =>
    refine ⟨Sequence.complete_ofList values, ?_⟩
    rw [Sequence.toList_ofList]
    exact Machine.shows_indexed values 0
  | buffered hcomplete hyields => exact ⟨hcomplete, Machine.shows_buffered hyields⟩
  | boxed _ ih => exact ⟨ih.1, ih.2.boxed⟩
  | used steps _ ht ih => exact faithful_used ih steps ht
  | joined _ ih => exact faithful_joined ih
  | filtered p _ ht ih => exact faithful_filtered ih p ht
  | mapped f _ ih =>
    refine ⟨(Sequence.complete_map f _).2 ih.1, ?_⟩
    rw [Sequence.toList_map]
    exact ih.2.mapped f
  | sampled sampling _ ih => exact faithful_sampled ih sampling
  | product _ _ hfirst hagain => exact faithful_product hfirst hagain
  | arrays maxLength _ ih => exact faithful_arrays ih maxLength
  | @instances σ m info h c index arguments i _ _ haccepts hi hfirst hagain =>
    have hproduct : Faithful m.product (m.mount (arguments.map Prod.fst))
        (.product ((arguments.map Prod.snd).map Argument.dimension)) := by
      let dimensions := arguments.map fun a => (a.1, a.2.dimension)
      have hdimensions : Faithful m.product (m.mount (dimensions.map Prod.fst)) (.product (dimensions.map Prod.snd)) :=
        faithful_product (List.forall_mem_map.2 hfirst) (List.forall_mem_map.2 hagain)
      simpa only [dimensions, List.map_map, Function.comp_def] using hdimensions
    obtain ⟨c', index', haccepts', hi⟩ := Resolver.instantiate_ok hi
    rw [haccepts] at haccepts'
    cases haccepts'
    exact faithful_instances hproduct hi

end Composed

/-! ## Lists and cursors -/

/-- **Composed cursors run through exactly one list each**, that of the sequence enumerated in their place. A queue
runs through the lists of its inputs, one after the other, and so does a queue of their sequences. A filter settles, and
then runs through what it accepts of the list. A map runs through the images. -/
theorem composed_runs_through_one_list :
    (∀ {σ α : Type} {m : Machine σ α} {s : σ} {q : Sequence α}, Composed m s q →
      q.Complete ∧ m.RunsThrough s q.toList ∧ ∃! xs, m.RunsThrough s xs) ∧
    (∀ {σ α : Type} {m : Machine σ α} {inputs : List σ} {lists : List (List α)},
      List.Forall₂ m.RunsThrough inputs lists → m.joined.RunsThrough (m.join inputs) lists.flatten) ∧
    (∀ {σ α : Type} {m : Machine σ α} {parts : List (σ × Sequence α)}, (∀ p ∈ parts, Composed m p.1 p.2) →
      Joined.cursor.RunsThrough (.ofParts (parts.map Prod.snd)) ((parts.map Prod.snd).flatMap Sequence.toList)) ∧
    (∀ {σ α : Type} {m : Machine σ α} {s : σ} {xs : List α} (p : α → Bool), m.RunsThrough s xs →
      ∃ t ∈ m.settle p s, (m.filtered p).RunsThrough t (xs.filter p)) ∧
    (∀ {σ α β : Type} {m : Machine σ α} {s : σ} {xs : List α} (f : α → β), m.RunsThrough s xs →
      (m.mapped f).RunsThrough s (xs.map f)) := by
  refine ⟨?_, ?_, ?_, ?_, ?_⟩
  · intro σ α m s q h
    obtain ⟨hcomplete, hshows⟩ := h.shows
    have hruns : m.RunsThrough s q.toList := Machine.runsThrough_iff_shows.2 hshows
    exact ⟨hcomplete, hruns, q.toList, hruns, fun xs hxs => hxs.drains.unique hruns.drains⟩
  · intro σ α m inputs lists h
    have hshows : List.Forall₂ m.Shows lists inputs :=
      .flip (h.imp fun _ _ hruns => Machine.runsThrough_iff_shows.1 hruns)
    exact Machine.runsThrough_iff_shows.2 (Machine.shows_join hshows)
  · intro σ α m parts h
    have hcomplete : ∀ q ∈ parts.map Prod.snd, q.Complete := List.forall_mem_map.2 fun p hp => (h p hp).shows.1
    rw [← Joined.toList_ofParts hcomplete]
    exact Joined.reads_joined.runsThrough (Joined.settled_ofParts hcomplete)
  · intro σ α m s xs p h
    obtain ⟨t, ht, hshows⟩ := (Machine.runsThrough_iff_shows.1 h).settle p
    exact ⟨t, ht, Machine.runsThrough_iff_shows.2 hshows⟩
  · intro σ α β m s xs f h
    exact Machine.runsThrough_iff_shows.2 ((Machine.runsThrough_iff_shows.1 h).mapped f)

/-! ## A queue of three kinds -/

/-- kinds of inputs: lists, nothing, and the even numbers that a counter gives -/
inductive InputKind where
  | list
  | nothing
  | counter

namespace InputKind

def State : InputKind → Type
  | list => Indexed Int
  | nothing => Unit
  | counter => Buffered Int Int

/-- count up to four -/
def next (i : Int) : Option Int × Int := if i ≤ 4 then (some i, i + 1) else (none, i)

def isEven (i : Int) : Bool := i % 2 == 0

def machine : (kind : InputKind) → Machine kind.State Int
  | list => .indexed
  | nothing => .exhausted
  | counter => (Machine.buffered next).filtered isEven

/-- a list that was moved before, nothing, and a counter that has settled -/
def mixedParts : List ((Σ kind, State kind) × Sequence Int) :=
  [(⟨list, (⟨[7, 1, 2], 1⟩ : Indexed Int)⟩, Sequence.cursor.after (.ofList [7, 1, 2]) [.advance]),
   (⟨nothing, ()⟩, .nil),
   (⟨counter, (⟨3, some 2⟩ : Buffered Int Int)⟩, (Sequence.counted id .nil 1 4).filter isEven)]

theorem yields_next : Machine.Yields next 1 [1, 2, 3, 4] :=
  .item rfl (.item rfl (.item rfl (.item rfl (.ended rfl))))

theorem composed_mixedParts : ∀ p ∈ mixedParts, Composed (.boxed machine) p.1 p.2 := by
  have hlist : Composed (machine list) (⟨[7, 1, 2], 1⟩ : Indexed Int)
      (Sequence.cursor.after (.ofList [7, 1, 2]) [.advance]) :=
    .used [.advance] (.indexed [7, 1, 2]) (Part.mem_bind (Part.mem_some _) (Part.mem_some _))
  have hcounter : Composed (machine counter) (⟨3, some 2⟩ : Buffered Int Int)
      ((Sequence.counted id .nil 1 4).filter isEven) := by
    refine .filtered isEven (.buffered (Sequence.complete_counted id 1 4) yields_next) ?_
    exact Machine.mem_settle_of_advance (by decide) (Part.mem_some _) (Machine.mem_settle_of_all (by decide))
  simp only [mixedParts, List.forall_mem_cons]
  exact ⟨.boxed hlist, .boxed .exhausted, .boxed hcounter, List.forall_mem_nil _⟩

end InputKind

open InputKind in
theorem mixed_runs_through_one_list :
    let m := Machine.boxed machine
    let queue := m.join (mixedParts.map Prod.fst)
    (m.joined.mapped (10 * ·)).RunsThrough queue [10, 20, 20, 40] ∧
      (m.joined.arrays (fun _ => queue) 1).RunsThrough .absent
        [none, some [], some [1], some [2], some [2], some [4]] ∧
      Joined.cursor.RunsThrough (.ofParts (mixedParts.map Prod.snd)) [1, 2, 2, 4] := by
  intro m queue
  have hqueue : Composed m.joined queue (.concat (mixedParts.map Prod.snd)) := .joined composed_mixedParts
  have harrays : Composed (m.joined.arrays (fun _ => queue) 1) .absent
      (.arrays (fun _ => .concat (mixedParts.map Prod.snd)) 1) := .arrays 1 hqueue
  obtain ⟨hone, -, hparts, -, -⟩ := composed_runs_through_one_list
  refine ⟨(hone (hqueue.mapped (10 * ·))).2.1, ?_, hparts composed_mixedParts⟩
  have hruns := (hone harrays).2.1
  rwa [Sequence.toList_arrays hqueue.shows.1] at hruns

end TestInputs
