/-
Cursors that turn other cursors like wheels. A product keeps its dimensions, each of which can be started afresh, and
the tuple that they show. A move turns the last dimension that has another element and starts those to its right afresh.
Arrays go through the products of one cursor with itself, length by length, and know which length they are at. Instances
keep what was made of the current tuple, and pass tuples of which nothing can be made.

The tuple is kept beside the dimensions and not read from them, and some dimensions have been moved when a restart fails.
What a turn leads to is said once, by `Leads`, in terms of the lists that the dimensions show now and would show after a
restart.

Results:
- `leads_turn`: a turn takes the current tuple off the readings, and nothing else;
- `shows_mount`: a product shows the readings of its dimensions;
- `shows_arrays`: arrays show the absent one, the empty one, and all others by length;
- `shows_begin`: instances show all that can be made of the tuples.
-/
import TestInputs.Proofs.Listing
import TestInputs.Proofs.Machines
import TestInputs.Proofs.Readings

namespace TestInputs

variable {σ α β : Type}

/-! ## Products -/

/-- one dimension of a product: where it stands, and a way to start it afresh -/
structure Reel (σ : Type) where
  state : σ
  again : Unit → σ

/-- the dimensions of a product and the current tuple -/
structure Reels (σ α : Type) where
  reels : List (Reel σ)
  current : Option (List α)

/-- what a turn of reels leads to: all of them ran out, one could not be started afresh, or there is a next tuple -/
inductive Turn (α : Type) where
  | ranOut
  | stopped
  | moved (tuple : List α)

def Turn.tuple? : Turn α → Option (List α)
  | ranOut => none
  | stopped => none
  | moved tuple => some tuple

namespace Machine

section Reels

variable (m : Machine σ α)

/-- put the reels as they stand together with the tuple that they show -/
def mount (reels : List (Reel σ)) : Reels σ α := ⟨reels, reels.mapM fun r => m.element? r.state⟩

/-- start reels afresh from left to right, as far as they have elements -/
def renew : List (Reel σ) → List (Reel σ) × Option (List α)
  | [] => ([], some [])
  | r :: reels =>
    match m.element? (r.again ()) with
    | none => (r :: reels, none)
    | some a => ({ r with state := r.again () } :: (renew reels).1, (renew reels).2.map (a :: ·))

/-- move a reel whose right neighbours have all run out, and start these afresh if it has another element -/
def turnReel (r : Reel σ) (right : List (Reel σ)) : Part (List (Reel σ) × Turn α) :=
  (m.advance r.state).map fun state =>
    match m.element? state, m.renew right with
    | none, _ => ({ r with state } :: right, .ranOut)
    | some a, (right, some tuple) => ({ r with state } :: right, .moved (a :: tuple))
    | some _, (right, none) => ({ r with state } :: right, .stopped)

/-- move the last reel that can be moved; to its left the tuple stays as it is -/
def turn : List (Reel σ) → List α → Part (List (Reel σ) × Turn α)
  | r :: reels, a :: tuple =>
    (turn reels tuple).bind fun turned =>
      match turned with
      | (right, .moved tuple) => .some (r :: right, .moved (a :: tuple))
      | (right, .stopped) => .some (r :: right, .stopped)
      | (right, .ranOut) => m.turnReel r right
  | reels, _ => .some (reels, .ranOut)

/-- the tuples of several dimensions -/
def product : Machine (Reels σ α) (List α) where
  hasElement s := s.current.isSome
  element? s := s.current
  advance s :=
    match s.current with
    | none => .some s
    | some tuple => (m.turn s.reels tuple).map fun turned => ⟨turned.1, turned.2.tuple?⟩

end Reels

/-- the reel can be started afresh, with the second list -/
def Restarts (m : Machine σ α) (d : List α × List α) (r : Reel σ) : Prop := m.Shows d.2 (r.again ())

/-- the reel shows the first list now, and the second one when it is started afresh -/
def Winds (m : Machine σ α) (d : List α × List α) (r : Reel σ) : Prop := m.Shows d.1 r.state ∧ m.Restarts d r

/-- the tuple has the first element of each of the first lists -/
def Heads (ds : List (List α × List α)) (tuple : List α) : Prop :=
  List.Forall₂ (fun d a => d.1.head? = some a) ds tuple

variable {m : Machine σ α} {ds : List (List α × List α)} {reels : List (Reel σ)} {tuple : List α}

theorem map_snd_restarted (ds : List (List α × List α)) :
    (ds.map fun d => (d.2, d.2)).map Prod.snd = ds.map Prod.snd := by
  rw [List.map_map]
  rfl

/-- dimensions that start as they restart -/
theorem carried_restarted (ds : List (List α × List α)) :
    carried (ds.map fun d => (d.2, d.2)) = lexicographic (ds.map Prod.snd) := by
  induction ds with
  | nil => rfl
  | cons d ds ih =>
    obtain ⟨xs, again⟩ := d
    cases again with
    | nil => rfl
    | cons x later => simp only [List.map_cons, carried, ih, map_snd_restarted, lexicographic, List.flatMap_cons]

theorem readingsOf_restarted (ds : List (List α × List α)) :
    readingsOf (ds.map fun d => (d.2, d.2)) = lexicographic (ds.map Prod.snd) := by
  unfold readingsOf
  split_ifs with hempty
  · obtain ⟨d, hd, hnil⟩ := List.any_eq_true.1 hempty
    obtain ⟨e, he, rfl⟩ := List.mem_map.1 hd
    exact (lexicographic_eq_nil (List.mem_map.2 ⟨e, he, List.isEmpty_iff.1 hnil⟩)).symm
  · exact carried_restarted ds

/-- reels can all be started afresh, or else one of them has nothing to restart with -/
theorem renew_cases (h : List.Forall₂ m.Restarts ds reels) :
    ((m.renew reels).2 = none ∧ lexicographic (ds.map Prod.snd) = []) ∨
      ∃ tuple, (m.renew reels).2 = some tuple ∧ Heads (ds.map fun d => (d.2, d.2)) tuple ∧
        List.Forall₂ m.Winds (ds.map fun d => (d.2, d.2)) (m.renew reels).1 := by
  induction h with
  | nil => exact Or.inr ⟨[], rfl, .nil, .nil⟩
  | @cons d r ds reels hr _ ih =>
    have helement : m.element? (r.again ()) = d.2.head? := hr.element?_eq
    cases hagain : d.2 with
    | nil =>
      rw [hagain] at helement
      refine Or.inl ⟨by simp [renew, helement], ?_⟩
      rw [List.map_cons, hagain]
      rfl
    | cons a later =>
      rw [hagain] at helement
      rcases ih with ⟨hnone, hempty⟩ | ⟨tuple, hsome, hheads, hwinds⟩
      · exact Or.inl ⟨by simp [renew, helement, hnone], by simp [lexicographic, hempty]⟩
      · refine Or.inr ⟨a :: tuple, by simp [renew, helement, hsome], ?_, ?_⟩
        · exact .cons (congrArg List.head? hagain) hheads
        · simp only [renew, helement, List.head?_cons, List.map_cons]
          exact .cons ⟨hr, hr⟩ hwinds

/-- where a turn leads to: nowhere if the current tuple was the last one, and else to reels that show the next tuple
and carry on from there. Reels that ran out can still be started afresh; where a restart failed, no restart of all will
do. -/
inductive Leads (m : Machine σ α) (ds : List (List α × List α)) (tuple : List α) : List (Reel σ) × Turn α → Prop
  | ranOut {reels : List (Reel σ)} (last : carried ds = [tuple]) (restarts : List.Forall₂ m.Restarts ds reels) :
      Leads m ds tuple (reels, .ranOut)
  | stopped {reels : List (Reel σ)} (last : carried ds = [tuple]) (empty : lexicographic (ds.map Prod.snd) = []) :
      Leads m ds tuple (reels, .stopped)
  | moved {reels : List (Reel σ)} {ds' : List (List α × List α)} {next : List α}
      (rest : carried ds = tuple :: carried ds') (again : ds'.map Prod.snd = ds.map Prod.snd)
      (winds : List.Forall₂ m.Winds ds' reels) (heads : Heads ds' next) : Leads m ds tuple (reels, .moved next)

theorem leads_turnReel {d : List α × List α} {r : Reel σ} {a : α} (hr : m.Winds d r) (ha : d.1.head? = some a)
    (hlast : carried ds = [tuple]) (hrestarts : List.Forall₂ m.Restarts ds reels) :
    ∃ turned ∈ m.turnReel r reels, m.Leads (d :: ds) (a :: tuple) turned := by
  obtain ⟨xs, again⟩ := d
  cases xs with
  | nil => cases ha
  | cons x later =>
    obtain rfl : x = a := Option.some.inj ha
    obtain ⟨⟨-, -, state, hstate, hlater⟩, hagain⟩ := hr
    have hcarried : carried ((x :: later, again) :: ds) = (x :: tuple) ::
        later.flatMap fun y => (lexicographic (ds.map Prod.snd)).map (y :: ·) := by
      rw [carried, hlast]
      rfl
    refine ⟨_, Part.mem_map _ hstate, ?_⟩
    cases later with
    | nil =>
      rw [hlater.2.1]
      exact .ranOut hcarried (.cons hagain hrestarts)
    | cons b later =>
      rw [hlater.2.1]
      have hcases := renew_cases hrestarts
      rcases hrenewed : m.renew reels with ⟨right, renewed⟩
      rw [hrenewed] at hcases
      rcases hcases with ⟨rfl, hempty⟩ | ⟨next, rfl, hheads, hwinds⟩
      · refine .stopped ?_ ?_
        · rw [hcarried, hempty]
          simp
        · simp [lexicographic, hempty]
      · have hrest : carried ((x :: b :: later, again) :: ds) = (x :: tuple) ::
            carried ((b :: later, again) :: ds.map fun d => (d.2, d.2)) := by
          rw [hcarried, carried, carried_restarted, map_snd_restarted, List.flatMap_cons]
        refine .moved hrest ?_ (.cons ⟨hlater, hagain⟩ hwinds) (.cons rfl hheads)
        rw [List.map_cons, List.map_cons, map_snd_restarted]

/-- **What a turn does**: it takes the current tuple off the readings, and nothing else. -/
theorem leads_turn (h : List.Forall₂ m.Winds ds reels) (hheads : Heads ds tuple) :
    ∃ turned ∈ m.turn reels tuple, m.Leads ds tuple turned := by
  induction h generalizing tuple with
  | nil =>
    cases hheads
    exact ⟨_, Part.mem_some _, .ranOut rfl .nil⟩
  | @cons d r ds reels hr hreels ih =>
    obtain ⟨a, rest, ha, hrest, rfl⟩ := List.forall₂_cons_left_iff.1 hheads
    obtain ⟨turned, hturned, hleads⟩ := ih hrest
    obtain ⟨xs, again⟩ := d
    cases xs with
    | nil => cases ha
    | cons x later =>
      obtain rfl : x = a := Option.some.inj ha
      cases hleads with
      | ranOut hlast hrestarts =>
        obtain ⟨turned, hmoved, hleads⟩ := leads_turnReel hr ha hlast hrestarts
        exact ⟨turned, Part.mem_bind hturned hmoved, hleads⟩
      | stopped hlast hempty =>
        refine ⟨_, Part.mem_bind hturned (Part.mem_some _), .stopped ?_ ?_⟩
        · rw [carried, hlast, hempty]
          simp
        · simp [lexicographic, hempty]
      | moved hrest hagain hwinds hnext =>
        refine ⟨_, Part.mem_bind hturned (Part.mem_some _), .moved ?_ ?_ (.cons hr hwinds) (.cons ha hnext)⟩
        · rw [carried, carried, hrest, hagain]
          rfl
        · rw [List.map_cons, List.map_cons, hagain]

/-- reels on the elements of a tuple show the tuple and the readings behind it -/
theorem shows_reels (h : List.Forall₂ m.Winds ds reels) (hheads : Heads ds tuple) :
    m.product.Shows (carried ds) ⟨reels, some tuple⟩ := by
  generalize hreadings : carried ds = readings
  induction readings generalizing ds reels tuple with
  | nil =>
    have hfirst := head?_carried hheads
    rw [hreadings] at hfirst
    cases hfirst
  | cons current later ih =>
    have hfirst := head?_carried hheads
    rw [hreadings] at hfirst
    obtain rfl : current = tuple := Option.some.inj hfirst
    obtain ⟨turned, hturned, hleads⟩ := leads_turn h hheads
    refine ⟨rfl, rfl, _, Part.mem_map _ hturned, ?_⟩
    cases hleads with
    | ranOut hlast _ =>
      obtain rfl : later = [] := (List.cons.inj (hreadings.symm.trans hlast)).2
      exact ⟨rfl, rfl, Part.mem_some _⟩
    | stopped hlast _ =>
      obtain rfl : later = [] := (List.cons.inj (hreadings.symm.trans hlast)).2
      exact ⟨rfl, rfl, Part.mem_some _⟩
    | moved hrest _ hwinds hnext =>
      have hlater := (List.cons.inj (hreadings.symm.trans hrest)).2
      exact ih hwinds hnext hlater.symm

theorem mount_cases (h : List.Forall₂ m.Winds ds reels) :
    (m.mount reels = ⟨reels, none⟩ ∧ ∃ d ∈ ds, d.1 = []) ∨
      ∃ tuple, m.mount reels = ⟨reels, some tuple⟩ ∧ Heads ds tuple := by
  simp only [mount, Reels.mk.injEq, true_and]
  induction h with
  | nil => exact Or.inr ⟨[], rfl, .nil⟩
  | @cons d r ds reels hr _ ih =>
    have helement : m.element? r.state = d.1.head? := hr.1.element?_eq
    rw [List.mapM_cons, helement]
    cases hfirst : d.1 with
    | nil => exact Or.inl ⟨rfl, d, List.mem_cons_self, hfirst⟩
    | cons a later =>
      rcases ih with ⟨hnone, e, he, hempty⟩ | ⟨tuple, hsome, hheads⟩
      · exact Or.inl ⟨by rw [hnone]; rfl, e, List.mem_cons_of_mem _ he, hempty⟩
      · exact Or.inr ⟨a :: tuple, by rw [hsome]; rfl, .cons (by rw [hfirst]; rfl) hheads⟩

/-- **A product shows the readings of its dimensions.** -/
theorem shows_mount (h : List.Forall₂ m.Winds ds reels) : m.product.Shows (readingsOf ds) (m.mount reels) := by
  rcases mount_cases h with ⟨hmount, hempty⟩ | ⟨tuple, hmount, hheads⟩
  · rw [hmount, readingsOf_eq_nil hempty]
    exact ⟨rfl, rfl, Part.mem_some _⟩
  · have hfirst : ∀ d ∈ ds, d.1 ≠ [] := by
      intro d hd hnil
      obtain ⟨a, -, ha⟩ := exists_partner hheads hd
      rw [hnil] at ha
      cases ha
    rw [hmount, readingsOf_eq_carried hfirst]
    exact shows_reels h hheads

end Machine

/-! ## Arrays -/

/-- how far arrays have come: the absent array, the empty one, the tuples of a length, or the end -/
inductive Phase (σ α : Type) where
  | absent
  | empty
  | filled (length : Nat) (tuples : Reels σ α)
  | done

namespace Machine

section Phases

variable (m : Machine σ α) (component : Unit → σ) (maxLength : Nat)

/-- the first array of a length; if there is none, longer ones do not exist either -/
def startLength (length : Nat) : Phase σ α :=
  if maxLength < length then .done
  else
    let tuples := m.mount (List.replicate length ⟨component (), component⟩)
    if m.product.hasElement tuples then .filled length tuples else .done

/-- the absent array, the empty one, and all others up to a length -/
def arrays : Machine (Phase σ α) (Option (List α)) where
  hasElement phase :=
    match phase with
    | .done => false
    | _ => true
  element? phase :=
    match phase with
    | .absent => some none
    | .empty => some (some [])
    | .filled _ tuples => (m.product.element? tuples).map some
    | .done => none
  advance phase :=
    match phase with
    | .absent => .some .empty
    | .empty => .some (m.startLength component maxLength 1)
    | .filled length tuples =>
      (m.product.advance tuples).map fun tuples =>
        if m.product.hasElement tuples then .filled length tuples else m.startLength component maxLength (length + 1)
    | .done => .some .done

end Phases

/-- the arrays of the given length and of greater ones -/
def arraysFrom (xs : List α) (length count : Nat) : List (Option (List α)) :=
  ((List.range' length count).flatMap fun n => lexicographic (List.replicate n xs)).map some

variable {m : Machine σ α} {component : Unit → σ} {maxLength : Nat} {xs : List α}

theorem arraysFrom_succ (xs : List α) (length count : Nat) :
    arraysFrom xs length (count + 1) =
      (lexicographic (List.replicate length xs)).map some ++ arraysFrom xs (length + 1) count := by
  rw [arraysFrom, List.range'_succ, List.flatMap_cons, List.map_append]
  rfl

theorem arraysFrom_of_empty {length : Nat} (h : lexicographic (List.replicate length xs) = []) (count : Nat) :
    arraysFrom xs length count = [] := by
  rw [arraysFrom, List.map_eq_nil_iff, List.flatMap_eq_nil_iff]
  intro n hn
  exact lexicographic_replicate_eq_nil h (List.mem_range'_1.1 hn).1

theorem shows_tuples (h : m.Shows xs (component ())) (length : Nat) :
    m.product.Shows (lexicographic (List.replicate length xs))
      (m.mount (List.replicate length ⟨component (), component⟩)) := by
  have hwinds : List.Forall₂ m.Winds (List.replicate length (xs, xs))
      (List.replicate length (⟨component (), component⟩ : Reel σ)) := by
    induction length with
    | zero => exact .nil
    | succ length ih => exact .cons ⟨h, h⟩ ih
  have hreadings : readingsOf (List.replicate length (xs, xs)) = lexicographic (List.replicate length xs) := by
    simpa only [List.map_replicate] using readingsOf_restarted (List.replicate length (xs, xs))
  rw [← hreadings]
  exact shows_mount hwinds

/-- within a length the tuples come one after the other, and behind the last of them the next length is started -/
theorem shows_filled {length : Nat} {tuples : List (List α)} {rest : List (Option (List α))} {s : Reels σ α}
    (h : m.product.Shows tuples s) (hne : tuples ≠ [])
    (hnext : (m.arrays component maxLength).Shows rest (m.startLength component maxLength (length + 1))) :
    (m.arrays component maxLength).Shows (tuples.map some ++ rest) (.filled length s) := by
  induction tuples generalizing s with
  | nil => exact absurd rfl hne
  | cons tuple tuples ih =>
    obtain ⟨-, hsome, t, ht, hrest⟩ := h
    refine ⟨rfl, by simp [arrays, hsome], _, Part.mem_map _ ht, ?_⟩
    cases tuples with
    | nil =>
      rw [if_neg (by simp [hrest.1])]
      exact hnext
    | cons next tuples =>
      rw [if_pos hrest.1]
      exact ih hrest (List.cons_ne_nil _ _)

theorem shows_startLength (h : m.Shows xs (component ())) {length count : Nat}
    (hcount : length + count = maxLength + 1) :
    (m.arrays component maxLength).Shows (arraysFrom xs length count) (m.startLength component maxLength length) := by
  have hdone : (m.arrays component maxLength).Shows [] .done := ⟨rfl, rfl, Part.mem_some _⟩
  induction count generalizing length with
  | zero =>
    rw [startLength, if_pos (by omega)]
    exact hdone
  | succ count ih =>
    have htuples := shows_tuples h length
    rw [startLength, if_neg (by omega)]
    cases hlist : lexicographic (List.replicate length xs) with
    | nil =>
      rw [hlist] at htuples
      simp only [htuples.1, Bool.false_eq_true, if_false]
      rw [arraysFrom_of_empty hlist]
      exact hdone
    | cons tuple tuples =>
      rw [hlist] at htuples
      simp only [htuples.1, if_true]
      rw [arraysFrom_succ, hlist]
      exact shows_filled htuples (List.cons_ne_nil _ _) (ih (by omega))

/-- **Arrays show the absent one, the empty one, and then all tuples by length.** -/
theorem shows_arrays (h : m.Shows xs (component ())) (maxLength : Nat) :
    (m.arrays component maxLength).Shows (none :: some [] :: arraysFrom xs 1 maxLength) .absent := by
  refine ⟨rfl, rfl, .empty, Part.mem_some _, rfl, rfl, _, Part.mem_some _, ?_⟩
  exact shows_startLength h (Nat.add_comm 1 maxLength)

end Machine

/-! ## Instances -/

/-- tuples of arguments and what was made from the current one -/
structure Making (σ α β : Type) where
  tuples : Reels σ α
  current : Option β

namespace Machine

section Making

variable (m : Machine σ α) (build : List α → Option β)

/-- make something of the current tuple -/
def begin (tuples : Reels σ α) : Making σ α β := ⟨tuples, (m.product.element? tuples).bind build⟩

/-- move on until something can be made of a tuple -/
def search : Reels σ α →. Making σ α β :=
  PFun.fix fun tuples => (m.product.advance tuples).map fun tuples =>
    if m.product.hasElement tuples && (m.begin build tuples).current.isNone then .inr tuples
    else .inl (m.begin build tuples)

/-- what can be made of the tuples -/
def making : Machine (Making σ α β) β where
  hasElement s := s.current.isSome
  element? s := s.current
  advance s := if s.current.isSome then m.search build s.tuples else .some s

end Making

variable {m : Machine σ α} {build : List α → Option β}

theorem shows_made {s : Reels σ α} {tuple : List α} {b : β} {bs : List β} {u : Making σ α β}
    (hsome : m.product.element? s = some tuple) (hb : build tuple = some b) (hu : u ∈ m.search build s)
    (hshows : (m.making build).Shows bs u) : (m.making build).Shows (b :: bs) (m.begin build s) := by
  have hcurrent : (m.begin build s).current = some b := by simp [begin, hsome, hb]
  have htuples : (m.begin build s).tuples = s := rfl
  refine ⟨by simp [making, hcurrent], hcurrent, u, ?_, hshows⟩
  simpa [making, hcurrent, htuples] using hu

/-- the search behind a tuple ends, and what it finds shows all that can be made of later tuples -/
theorem Shows.search {tuple : List α} {tuples : List (List α)} {s : Reels σ α}
    (h : m.product.Shows (tuple :: tuples) s) :
    ∃ u ∈ m.search build s, (m.making build).Shows (tuples.filterMap build) u := by
  induction tuples generalizing tuple s with
  | nil =>
    obtain ⟨-, -, t, ht, hrest⟩ := h
    refine ⟨m.begin build t, PFun.fix_stop ?_, ?_⟩
    · refine (Part.mem_map_iff _).2 ⟨t, ht, ?_⟩
      simp [hrest.1]
    · simp [Shows, making, begin, hrest.2.1]
  | cons next tuples ih =>
    obtain ⟨-, -, t, ht, hrest⟩ := h
    obtain ⟨u, hu, hshows⟩ := ih hrest
    cases hbuild : build next with
    | none =>
      rw [List.filterMap_cons_none hbuild]
      refine ⟨u, PFun.mem_fix_iff.2 (Or.inr ⟨t, (Part.mem_map_iff _).2 ⟨t, ht, ?_⟩, hu⟩), hshows⟩
      simp [begin, hrest.1, hrest.2.1, hbuild]
    | some b =>
      rw [List.filterMap_cons_some hbuild]
      refine ⟨m.begin build t, PFun.fix_stop ((Part.mem_map_iff _).2 ⟨t, ht, ?_⟩), ?_⟩
      · simp [begin, hrest.2.1, hbuild]
      · exact shows_made hrest.2.1 hbuild hu hshows

/-- **Instances show all that can be made of the tuples**, if something can be made of the first. -/
theorem shows_begin {tuple : List α} {tuples : List (List α)} {s : Reels σ α}
    (h : m.product.Shows (tuple :: tuples) s) {b : β} (hb : build tuple = some b) :
    (m.making build).Shows ((tuple :: tuples).filterMap build) (m.begin build s) := by
  obtain ⟨u, hu, hshows⟩ : ∃ u ∈ m.search build s, _ := h.search
  rw [List.filterMap_cons_some hb]
  exact shows_made h.2.1 hb hu hshows

end Machine

end TestInputs
