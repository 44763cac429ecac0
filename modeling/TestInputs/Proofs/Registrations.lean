/-
Registered strategies in scope. A catalog grows by registrations, and a later one for the same type at the same scope
takes the place of an earlier one, so a catalog shows the latest registration of its history for each scope and type. A
request searches the scopes of its chain in order: under the first scope that has any registration for the type, the
strategy that the latest one makes for the type is in force, and the built-in strategy of the type's shape if there is
none. Scopes and types are compared without generic parts, in the catalog as along the chain, but a registration is
given the type with the generic part that was asked for.

The strategy in force gives its own values tier by tier, then its default values. Where it has none, registrations that
are not for the type at a scope up to its own are never looked at, whatever they are.

Results:
- `lookup_register`, `lookup_ofList`: one registration, and a whole history;
- `latest_iff`, `findStrategy_eq_some_iff`: what a lookup and a search along a chain find;
- `union_eq`, `resolve_eq`: the tiers in order, and the values that a request gives;
- `registrations_follow_chain`: the statement for all histories, chains and types.
-/
import Mathlib.Data.List.Induction
import TestInputs.Proofs.Locality
import TestInputs.Value.Shown

namespace TestInputs

/-! ## Sequences -/

namespace Sequence

theorem ofList_append_append {α : Type} (as bs : List α) (rest : Unit → Sequence α) :
    (ofList as).append (fun _ => (ofList bs).append rest) = (ofList (as ++ bs)).append rest := by
  induction as with
  | nil => rfl
  | cons a as ih => simp only [ofList, append, List.cons_append, ih]

theorem filter_anyValue (s : Sequence Value) : s.filter Resolver.anyValue = s := by
  induction s with
  | nil => rfl
  | cut => rfl
  | cons a t ih =>
    have hkept : Resolver.anyValue a = true := rfl
    rw [filter, if_pos hkept]
    exact congrArg (cons a) (funext fun _ => ih ())

end Sequence

/-! ## Scopes -/

namespace ScopeKey

theorem same_refl (a : ScopeKey) : same a a = true := by
  cases a with
  | parameter operation index => simp [same]
  | declaringType ty => exact BEq.rfl
  | enclosingNamespace name => simp [same]
  | everywhere => rfl

theorem same_comm (a b : ScopeKey) : same a b = same b a := by
  cases a with
  | parameter a m =>
    cases b with
    | parameter b n => simp only [same, BEq.comm (a := a), BEq.comm (a := m)]
    | _ => rfl
  | declaringType t =>
    cases b with
    | declaringType u => exact BEq.comm
    | _ => rfl
  | enclosingNamespace a =>
    cases b with
    | enclosingNamespace b => exact BEq.comm
    | _ => rfl
  | everywhere => cases b <;> rfl

theorem same_trans {a b c : ScopeKey} (hab : same a b = true) (hbc : same b c = true) : same a c = true := by
  cases a with
  | parameter a m =>
    cases b with
    | parameter b n =>
      simp only [same, Bool.and_eq_true, beq_iff_eq] at hab
      rw [hab.1, hab.2]
      exact hbc
    | _ => cases hab
  | declaringType t =>
    cases b with
    | declaringType u =>
      cases c with
      | declaringType v => exact BEq.trans (a := t) (b := u) hab hbc
      | _ => cases hbc
    | _ => cases hab
  | enclosingNamespace a =>
    cases b with
    | enclosingNamespace b =>
      rw [eq_of_beq (a := a) (b := b) hab]
      exact hbc
    | _ => cases hab
  | everywhere =>
    cases b with
    | everywhere => exact hbc
    | _ => cases hab

instance : EquivBEq ScopeKey where
  rfl := same_refl _
  symm h := (same_comm _ _).trans h
  trans := same_trans

end ScopeKey

/-! ## One registration -/

namespace Registration

/-- two registrations for the same type at the same scope are for the same requests -/
theorem isFor_congr {x y : Registration} (h : x.isFor y.scope y.ty = true) (key : ScopeKey) (ty : TypeName) :
    x.isFor key ty = y.isFor key ty := by
  simp only [isFor, Bool.and_eq_true] at h
  simp only [isFor, BEq.congr_left h.1, BEq.congr_left h.2]

/-- registrations for one request are for the same type at the same scope -/
theorem isFor_of_isFor {x y : Registration} {key : ScopeKey} {ty : TypeName} (hx : x.isFor key ty = true)
    (hy : y.isFor key ty = true) : x.isFor y.scope y.ty = true := by
  simp only [isFor, Bool.and_eq_true] at hx hy ⊢
  exact ⟨BEq.trans hx.1 (BEq.symm hy.1), BEq.trans hx.2 (BEq.symm hy.2)⟩

end Registration

namespace Catalog

theorem find?_replace (x : Registration) (entries : List Registration) (key : ScopeKey) (ty : TypeName) :
    (replace x entries).find? (·.isFor key ty) =
      if x.isFor key ty then some x else entries.find? (·.isFor key ty) := by
  induction entries with
  | nil =>
    rw [replace, List.find?_cons]
    cases x.isFor key ty with
    | true => rfl
    | false => rfl
  | cons e entries ih =>
    rw [replace]
    by_cases hreplaced : e.isFor x.scope x.ty = true
    · rw [if_pos hreplaced, List.find?_cons, List.find?_cons, Registration.isFor_congr hreplaced]
      cases x.isFor key ty with
      | true => rfl
      | false => rfl
    · rw [if_neg hreplaced, List.find?_cons, List.find?_cons, ih]
      by_cases he : e.isFor key ty = true
      · -- the entry and the new registration cannot both be for the request
        have hx : ¬x.isFor key ty = true := fun hx => hreplaced (Registration.isFor_of_isFor he hx)
        rw [he, if_neg hx, if_neg hx]
      · rw [Bool.eq_false_iff.2 he]

/-- **A registration is found for its own type and scope**, and everything else as before. -/
theorem lookup_register (c : Catalog) (x : Registration) (key : ScopeKey) (ty : TypeName) :
    (c.register x).lookup key ty = if x.isFor key ty then some (x.make ty) else c.lookup key ty := by
  simp only [lookup, Registration.first, register, find?_replace]
  cases x.isFor key ty with
  | true => rfl
  | false => rfl

/-! ## A whole history -/

theorem ofList_concat (history : List Registration) (x : Registration) :
    ofList (history ++ [x]) = (ofList history).register x := by
  rw [ofList, List.foldl_append]
  rfl

/-- a catalog shows what is found when its history is searched from the end -/
theorem lookup_ofList (history : List Registration) (key : ScopeKey) (ty : TypeName) :
    (ofList history).lookup key ty = (history.reverse.find? (·.isFor key ty)).map (·.make ty) := by
  induction history using List.reverseRecOn with
  | nil => rfl
  | append_singleton history x ih =>
    rw [ofList_concat, lookup_register, List.reverse_concat, List.find?_cons, ih]
    cases x.isFor key ty with
    | true => rfl
    | false => rfl

/-- the latest registration of a history for a type at a scope -/
def Latest (history : List Registration) (key : ScopeKey) (ty : TypeName) (e : Registration) : Prop :=
  ∃ before after, history = before ++ e :: after ∧ e.isFor key ty = true ∧ ∀ x ∈ after, x.isFor key ty = false

/-- the history has no registration for a type at a scope -/
def Vacant (history : List Registration) (key : ScopeKey) (ty : TypeName) : Prop :=
  ∀ x ∈ history, x.isFor key ty = false

variable {history : List Registration} {key : ScopeKey} {ty : TypeName}

theorem latest_iff {e : Registration} :
    Latest history key ty e ↔ history.reverse.find? (·.isFor key ty) = some e := by
  rw [List.find?_eq_some_iff_append]
  constructor
  · rintro ⟨before, after, rfl, he, hafter⟩
    refine ⟨he, after.reverse, before.reverse, by simp, fun x hx => ?_⟩
    rw [hafter x (List.mem_reverse.1 hx)]
    rfl
  · rintro ⟨he, after, before, hsplit, hafter⟩
    refine ⟨before.reverse, after.reverse, ?_, he, fun x hx => ?_⟩
    · rw [← List.reverse_reverse history, hsplit]
      simp
    · simpa using hafter x (List.mem_reverse.1 hx)

theorem lookup_eq_some_iff {s : Strategy} :
    (ofList history).lookup key ty = some s ↔ ∃ e, Latest history key ty e ∧ e.make ty = s := by
  rw [lookup_ofList, Option.map_eq_some_iff]
  simp only [latest_iff]

theorem lookup_eq_none_iff : (ofList history).lookup key ty = none ↔ Vacant history key ty := by
  rw [lookup_ofList, Option.map_eq_none_iff, List.find?_eq_none]
  simp [Vacant]

/-- registrations that are for other requests do not matter -/
theorem lookup_filter {p : Registration → Bool} (hp : ∀ x, x.isFor key ty = true → p x = true) :
    (ofList (history.filter p)).lookup key ty = (ofList history).lookup key ty := by
  have hboth : (fun x : Registration => decide (p x = true ∧ x.isFor key ty = true)) = fun x => x.isFor key ty := by
    funext x
    cases hx : x.isFor key ty with
    | true => simp [hp x hx]
    | false => simp
  rw [lookup_ofList, lookup_ofList, ← List.filter_reverse, List.find?_filter, hboth]

/-! ## Along a chain -/

/-- the strategy in force for a type along a chain: what the latest registration under the first scope that has one makes
for the type, and the built-in strategy if no scope has one -/
inductive InForce (history : List Registration) (chain : List ScopeKey) (ty : TypeName) (shape : Shape) :
    Strategy → Prop
  | registered {passed later : List ScopeKey} {key : ScopeKey} {e : Registration}
      (scopes : chain = passed ++ key :: later) (vacant : ∀ k ∈ passed, Vacant history k ty)
      (latest : Latest history key ty e) : InForce history chain ty shape (e.make ty)
  | builtin (vacant : ∀ k ∈ chain, Vacant history k ty) : InForce history chain ty shape (.builtin shape)

end Catalog

/-- is this a registration of the type at one of the scopes? -/
def Registration.concerns (x : Registration) (keys : List ScopeKey) (ty : TypeName) : Bool :=
  keys.any fun key => x.isFor key ty

namespace Resolver

variable {r : Resolver} {ty : TypeName} {ctx : Context}

theorem findStrategy_eq_some_iff {chain : List ScopeKey} {key : ScopeKey} {s : Strategy} :
    r.findStrategy? ty chain = some (key, s) ↔ ∃ passed later, chain = passed ++ key :: later ∧
      (∀ k ∈ passed, r.lookup k ty = none) ∧ r.lookup key ty = some s := by
  rw [findStrategy?, List.findSome?_eq_some_iff]
  constructor
  · rintro ⟨passed, k, later, hchain, hk, hpassed⟩
    obtain ⟨t, ht, hpair⟩ := Option.map_eq_some_iff.1 hk
    cases hpair
    exact ⟨passed, later, hchain, fun j hj => Option.map_eq_none_iff.1 (hpassed j hj), ht⟩
  · rintro ⟨passed, later, hchain, hpassed, hkey⟩
    exact ⟨passed, key, later, hchain, by rw [hkey]; rfl, fun j hj => by rw [hpassed j hj]; rfl⟩

theorem findStrategy_eq_none_iff {chain : List ScopeKey} :
    r.findStrategy? ty chain = none ↔ ∀ k ∈ chain, r.lookup k ty = none := by
  simp [findStrategy?]

theorem strategyFor_of_lookup {passed later : List ScopeKey} {key : ScopeKey} {s : Strategy}
    (hchain : ctx.chain = passed ++ key :: later) (hpassed : ∀ k ∈ passed, r.lookup k ty = none)
    (hkey : r.lookup key ty = some s) : r.strategyFor ty ctx = s := by
  apply strategyFor_of_findStrategy
  exact findStrategy_eq_some_iff.2 ⟨passed, later, hchain, hpassed, hkey⟩

/-- the resolver for the registrations of a history -/
def withHistory (r : Resolver) (history : List Registration) : Resolver :=
  r.withLookup (Catalog.ofList history).lookup

variable {history : List Registration}

/-- **Exactly one strategy is in force, and it is the one that is used.** -/
theorem inForce_iff {s : Strategy} :
    Catalog.InForce history ctx.chain ty (Shape.ofType r.unit ty) s ↔
      (r.withHistory history).strategyFor ty ctx = s := by
  constructor
  · rintro (⟨hchain, hvacant, hlatest⟩ | hvacant)
    · have hpassed : ∀ k ∈ _, (r.withHistory history).lookup k ty = none :=
        fun k hk => Catalog.lookup_eq_none_iff.2 (hvacant k hk)
      exact strategyFor_of_lookup hchain hpassed (Catalog.lookup_eq_some_iff.2 ⟨_, hlatest, rfl⟩)
    · have hnone : (r.withHistory history).findStrategy? ty ctx.chain = none :=
        findStrategy_eq_none_iff.2 fun k hk => Catalog.lookup_eq_none_iff.2 (hvacant k hk)
      rw [strategyFor, hnone]
      rfl
  · rintro rfl
    cases hfind : (r.withHistory history).findStrategy? ty ctx.chain with
    | none =>
      have hvacant := findStrategy_eq_none_iff.1 hfind
      simp only [strategyFor, hfind]
      exact .builtin fun k hk => Catalog.lookup_eq_none_iff.1 (hvacant k hk)
    | some found =>
      obtain ⟨passed, later, hchain, hpassed, hkey⟩ := findStrategy_eq_some_iff.1 hfind
      obtain ⟨e, hlatest, he⟩ := Catalog.lookup_eq_some_iff.1 hkey
      simp only [strategyFor, hfind, ← he]
      exact .registered hchain (fun k hk => Catalog.lookup_eq_none_iff.1 (hpassed k hk)) hlatest

/-! ## Tiers -/

/-- **The tiers of a strategy, in order**: the values for the parameter, for the declaring type and for the namespace,
and then the default values. -/
theorem union_eq (r : Resolver) (inner : ShapeValues) (s : Strategy) (ctx : Context) :
    r.union inner s ctx =
      ((Sequence.ofList (s.localValues ++ s.typeValues ++ s.namespaceValues)).append
        fun _ => (r.defaultValues inner s ctx).1, (r.defaultValues inner s ctx).2) := by
  simp only [union, Sequence.concat, Sequence.append_nil, Sequence.ofList_append_append, List.append_assoc]

theorem toList_union (r : Resolver) (inner : ShapeValues) (s : Strategy) (ctx : Context) :
    (r.union inner s ctx).1.toList =
      s.localValues ++ s.typeValues ++ s.namespaceValues ++ (r.defaultValues inner s ctx).1.toList := by
  rw [union_eq, Sequence.toList_append (Sequence.complete_ofList _), Sequence.toList_ofList]

theorem resolve_eq {s : Strategy} (h : r.strategyFor ty ctx = s) :
    r.resolve ty ctx = checkCoverage ty ((r.union (r.levels ty ctx) s ctx).1.sampledBy (r.samplingOf s))
      (r.union (r.levels ty ctx) s ctx).2 := by
  simp only [resolve, resolveWith, h, strategyValues, Sequence.filter_anyValue]

/-- without default values the explicit ones are all there are -/
theorem resolve_of_noDefaults {c : CustomStrategy} (h : r.strategyFor ty ctx = .custom c)
    (hdefaults : c.useDefaults = false) :
    r.resolve ty ctx = checkCoverage ty
      ((Sequence.ofList (c.localValues ++ c.typeValues ++ c.namespaceValues)).sampledBy
        (c.sampling.or r.config.sampling)) ctx := by
  have hnone : ∀ inner, r.defaultValues inner (.custom c) ctx = (.nil, ctx) := by
    intro inner
    simp [defaultValues, Strategy.defaultShape?, hdefaults]
  rw [resolve_eq h, union_eq, hnone, Sequence.append_nil]
  rfl

/-! ## Registrations that do not matter -/

/-- histories with the same registrations for a type at some scopes show the same there -/
theorem lookup_of_filter {history' : List Registration} {keys : List ScopeKey}
    (hsame : history'.filter (·.concerns keys ty) = history.filter (·.concerns keys ty)) {key : ScopeKey}
    (hkey : key ∈ keys) : (r.withHistory history').lookup key ty = (r.withHistory history).lookup key ty := by
  have hconcerns : ∀ x : Registration, x.isFor key ty = true → x.concerns keys ty = true :=
    fun x hx => List.any_eq_true.2 ⟨key, hkey, hx⟩
  calc (Catalog.ofList history').lookup key ty
      = (Catalog.ofList (history'.filter (·.concerns keys ty))).lookup key ty := (Catalog.lookup_filter hconcerns).symm
    _ = (Catalog.ofList (history.filter (·.concerns keys ty))).lookup key ty := by rw [hsame]
    _ = (Catalog.ofList history).lookup key ty := Catalog.lookup_filter hconcerns

/-- **Lookup follows the chain and the latest registration.** For every history of registrations, every type and every
context, whatever the unit and the settings: the strategy that is used is the one in force, made for the requested type
by its latest registration under the first scope of the chain that has one, or the built-in strategy of the type's
shape. A request gives a sample of its tiers, and these are its values for the parameter, for the declaring type and for
the namespace, and then its default values.

If the strategy in force was registered and has no default values, its own values are all that is given. Histories with
the same registrations of the type up to its scope give the same, whatever they hold for scopes further on, for scopes
outside the chain and for other types. -/
theorem registrations_follow_chain (r : Resolver) (history : List Registration) (ty : TypeName) (ctx : Context) :
    (∀ s, Catalog.InForce history ctx.chain ty (Shape.ofType r.unit ty) s ↔
      (r.withHistory history).strategyFor ty ctx = s) ∧
    (∀ s, (r.withHistory history).strategyFor ty ctx = s → ∃ values after,
      (r.withHistory history).union ((r.withHistory history).levels ty ctx) s ctx = (values, after) ∧
      values.toList = s.localValues ++ s.typeValues ++ s.namespaceValues ++
        ((r.withHistory history).defaultValues ((r.withHistory history).levels ty ctx) s ctx).1.toList ∧
      (r.withHistory history).resolve ty ctx =
        checkCoverage ty (values.sampledBy (s.sampling.or r.config.sampling)) after) ∧
    ∀ passed key later e c, ctx.chain = passed ++ key :: later → (∀ k ∈ passed, Catalog.Vacant history k ty) →
      Catalog.Latest history key ty e → e.make ty = .custom c → c.useDefaults = false →
      (r.withHistory history).resolve ty ctx = checkCoverage ty
        ((Sequence.ofList (c.localValues ++ c.typeValues ++ c.namespaceValues)).sampledBy
          (c.sampling.or r.config.sampling)) ctx ∧
      ∀ history' : List Registration,
        history'.filter (·.concerns (passed ++ [key]) ty) = history.filter (·.concerns (passed ++ [key]) ty) →
        (r.withHistory history').resolve ty ctx = (r.withHistory history).resolve ty ctx := by
  refine ⟨fun s => inForce_iff, fun s hs => ?_, ?_⟩
  · refine ⟨_, _, rfl, ?_, ?_⟩
    · exact toList_union _ _ s ctx
    · exact resolve_eq hs
  · intro passed key later e c hchain hvacant hlatest he hdefaults
    have hpassed : ∀ k ∈ passed, (r.withHistory history).lookup k ty = none :=
      fun k hk => Catalog.lookup_eq_none_iff.2 (hvacant k hk)
    have hkey : (r.withHistory history).lookup key ty = some (.custom c) :=
      Catalog.lookup_eq_some_iff.2 ⟨e, hlatest, he⟩
    have hvalues := resolve_of_noDefaults (strategyFor_of_lookup hchain hpassed hkey) hdefaults
    refine ⟨hvalues, fun history' hsame => ?_⟩
    -- a search in the other history meets the same up to the scope of `e`, and ends there
    have hlookup : ∀ k ∈ passed ++ [key], (r.withHistory history').lookup k ty = (r.withHistory history).lookup k ty :=
      fun k hk => lookup_of_filter hsame hk
    have hpassed' : ∀ k ∈ passed, (r.withHistory history').lookup k ty = none := by
      intro k hk
      rw [hlookup k (List.mem_append_left _ hk), hpassed k hk]
    have hkey' : (r.withHistory history').lookup key ty = some (.custom c) := by
      rw [hlookup key (List.mem_append_right _ (List.mem_singleton_self key)), hkey]
    have hvalues' := resolve_of_noDefaults (strategyFor_of_lookup hchain hpassed' hkey') hdefaults
    exact hvalues'.trans hvalues.symm

/-! Cards that are dealt from a deck. They were registered twice for the deck, under names with different type
arguments, the second time with a queen of whatever suit is asked for; and also for everything and for another
parameter. For the deck there are hands as well. -/

/-- a strategy without default values for cards -/
def cards (forType forNamespace : List String) : CustomStrategy :=
  { target := ⟨"Card", "", 0⟩
    typeValues := forType.map (Value.enum ⟨"Card", "", 0⟩)
    namespaceValues := forNamespace.map (Value.enum ⟨"Card", "", 0⟩)
    useDefaults := false }

/-- a queen of the suit that is asked for, and two more cards -/
def suited (ty : TypeName) : Strategy := .custom (cards ["QUEEN" ++ ty.generic] ["KING", "ACE"])

def deckHistory : List Registration :=
  [.ofStrategy .everywhere (.custom (cards ["JOKER"] [])),
   ⟨.declaringType ⟨"Deck", "<S>", 0⟩, ⟨"Card", "<S>", 0⟩, fun _ => .custom (cards ["TEN"] [])⟩,
   .ofStrategy (.parameter "deal" 1) (.custom (cards ["TWO"] [])),
   ⟨.declaringType ⟨"Deck", "<T>", 0⟩, ⟨"Card", "<U>", 0⟩, suited⟩,
   ⟨.declaringType ⟨"Deck", "", 0⟩, ⟨"Hand", "", 0⟩, fun _ => .custom (cards ["THREE"] [])⟩]

/-- what was registered for cards of the deck, and something for all namespaces -/
def deckOnly : List Registration :=
  [⟨.declaringType ⟨"Deck", "<S>", 0⟩, ⟨"Card", "<S>", 0⟩, fun _ => .custom (cards ["TEN"] [])⟩,
   ⟨.declaringType ⟨"Deck", "<T>", 0⟩, ⟨"Card", "<U>", 0⟩, suited⟩,
   .ofStrategy (.enclosingNamespace "") (.custom (cards ["FOUR"] []))]

def deckResolver : Resolver := .make (fun _ _ => none) { declaring := ⟨"Deck", "", 0⟩ } {}

def dealContext : Context := .forParameter ⟨"Deck", "", 0⟩ "deal" 0

theorem cards_follow_chain :
    ((deckResolver.withHistory deckHistory).resolve ⟨"Card", "<V>", 0⟩ dealContext).1.toList.map Value.shown =
      ["Card.QUEEN<V>", "Card.KING", "Card.ACE"] ∧
    (deckResolver.withHistory deckHistory).strategyFor ⟨"Card", "<V>", 0⟩ dealContext =
      suited ⟨"Card", "<V>", 0⟩ ∧
    (deckResolver.withHistory deckOnly).resolve ⟨"Card", "<V>", 0⟩ dealContext =
      (deckResolver.withHistory deckHistory).resolve ⟨"Card", "<V>", 0⟩ dealContext := by
  have hchain : dealContext.chain = [ScopeKey.parameter "deal" 0] ++ ScopeKey.declaringType ⟨"Deck", "", 0⟩ ::
      [ScopeKey.enclosingNamespace "", ScopeKey.everywhere] := rfl
  have hvacant : ∀ k ∈ [ScopeKey.parameter "deal" 0], Catalog.Vacant deckHistory k ⟨"Card", "<V>", 0⟩ := by
    unfold Catalog.Vacant
    decide
  have hlatest : Catalog.Latest deckHistory (.declaringType ⟨"Deck", "", 0⟩) ⟨"Card", "<V>", 0⟩
      ⟨.declaringType ⟨"Deck", "<T>", 0⟩, ⟨"Card", "<U>", 0⟩, suited⟩ :=
    ⟨deckHistory.take 3, deckHistory.drop 4, rfl, by decide, by decide⟩
  obtain ⟨hforce, -, hsame⟩ := registrations_follow_chain deckResolver deckHistory ⟨"Card", "<V>", 0⟩ dealContext
  refine ⟨by decide +kernel, (hforce _).1 (.registered hchain hvacant hlatest), ?_⟩
  exact (hsame _ _ _ _ _ hchain hvacant hlatest rfl rfl).2 deckOnly rfl

end Resolver

end TestInputs
