/-
Reading records. A record type is written with its fields in the order of their names, so that sorting leaves them where
they are and each field meets the reader of its name. Tables are written in the order of their keys; read entry by entry
they grow at the end, and come out as they were.

What a reader accepts may look otherwise: fields in any order, unknown ones among them, or a list without names.
Whatever holds of the empty start and is kept by the reader of each field holds of what is read in the end.

Results:
- `readFields_record`: the fields of a written record are read one after the other;
- `foldlM_accumulates`: a table is read back entry by entry;
- `readFields_invariant`, `readEntries_invariant`, `readList_all`: what holds of all that is accepted;
- `Config.ofDocument_toDocument`, `LiteralTable.ofDocument_toDocument`: settings and literals are read back.
-/
import Mathlib.Tactic.Common
import TestInputs.Document.Settings
import TestInputs.Document.Unit

namespace TestInputs

/-! ## Results of reading -/

namespace Document

variable {α β σ ε : Type}

@[simp] theorem map_ok (a : α) (f : α → β) : (Except.ok a : Except ε α).map f = .ok (f a) := rfl

@[simp] theorem bind_ok (a : α) (f : α → Except ε β) : (Except.ok a).bind f = f a := rfl

@[simp] theorem ok_bind (a : α) (f : α → Except ε β) : (Except.ok a >>= f) = f a := rfl

@[simp] theorem pure_eq_ok (a : α) : (pure a : Except ε α) = .ok a := rfl

theorem map_eq_ok {x : Except ε α} {f : α → β} {b : β} : x.map f = .ok b ↔ ∃ a, x = .ok a ∧ f a = b := by
  cases x with
  | error e => simp [Except.map]
  | ok a => simp [Except.map]

theorem bind_eq_ok {x : Except ε α} {f : α → Except ε β} {b : β} : x.bind f = .ok b ↔ ∃ a, x = .ok a ∧ f a = .ok b := by
  cases x with
  | error e => simp [Except.bind]
  | ok a => simp [Except.bind]

theorem required_eq_ok {x : Option α} {a : α} : required x = .ok a ↔ x = some a := by
  cases x with
  | none => simp [required]
  | some b => simp [required]

/-- what each step keeps is kept by all of them -/
theorem foldlM_invariant {P : σ → Prop} {step : σ → α → Except ε σ} {as : List α} {s t : σ}
    (hstep : ∀ a ∈ as, ∀ s t, P s → step s a = .ok t → P t) (h : as.foldlM step s = .ok t) (hs : P s) : P t := by
  induction as generalizing s with
  | nil =>
    cases h
    exact hs
  | cons a as ih =>
    rw [List.foldlM_cons] at h
    obtain ⟨s', hfirst, hrest⟩ := bind_eq_ok.1 h
    exact ih (fun b hb => hstep b (List.mem_cons_of_mem _ hb)) hrest (hstep a List.mem_cons_self s s' hs hfirst)

/-- entries that are written one by one and read one by one, each after those before it -/
theorem foldlM_accumulates (write : α → β) (step : σ → β → Except ε σ) (R : List α → σ → Prop) {entries : List α}
    {start : σ} (hstart : R [] start)
    (hstep : ∀ done a rest s, entries = done ++ a :: rest → R done s →
      ∃ t, step s (write a) = .ok t ∧ R (done ++ [a]) t) :
    ∃ s, (entries.map write).foldlM step start = .ok s ∧ R entries s := by
  have hall : ∀ rest done s, entries = done ++ rest → R done s →
      ∃ t, (rest.map write).foldlM step s = .ok t ∧ R entries t := by
    intro rest
    induction rest with
    | nil =>
      intro done s hsplit hs
      rw [List.append_nil] at hsplit
      exact ⟨s, rfl, hsplit ▸ hs⟩
    | cons a rest ih =>
      intro done s hsplit hs
      obtain ⟨t, hfirst, ht⟩ := hstep done a rest s hsplit hs
      obtain ⟨u, hrest, hu⟩ := ih (done ++ [a]) t (by rw [hsplit, List.append_assoc]; rfl) ht
      refine ⟨u, ?_, hu⟩
      rw [List.map_cons, List.foldlM_cons, hfirst]
      exact hrest
  exact hall entries [] start rfl hstart

/-! ## Lists -/

theorem readList_map {read : Document → Reading β} {write : α → Document} {f : α → β} {as : List α}
    (h : ∀ a ∈ as, read (write a) = .ok (f a)) : readList read (.list (as.map write)) = .ok (as.map f) := by
  simp only [readList]
  induction as with
  | nil => rfl
  | cons a as ih =>
    rw [List.map_cons, List.mapM_cons, h a List.mem_cons_self, ih fun b hb => h b (List.mem_cons_of_mem _ hb)]
    rfl

theorem readList_self {read : Document → Reading α} {write : α → Document} {as : List α}
    (h : ∀ a ∈ as, read (write a) = .ok a) : readList read (.list (as.map write)) = .ok as := by
  have hmap : ∀ a ∈ as, read (write a) = .ok (id a) := h
  rw [readList_map hmap, List.map_id]

theorem readList_all {P : α → Prop} {read : Document → Reading α} (hread : ∀ d a, read d = .ok a → P a) {d : Document}
    {as : List α} (h : readList read d = .ok as) : ∀ a ∈ as, P a := by
  cases d with
  | list items =>
    simp only [readList] at h
    induction items generalizing as with
    | nil =>
      cases h
      simp
    | cons d items ih =>
      rw [List.mapM_cons] at h
      obtain ⟨a, ha, hrest⟩ := bind_eq_ok.1 h
      obtain ⟨rest, hitems, hcons⟩ := bind_eq_ok.1 hrest
      cases hcons
      exact List.forall_mem_cons.2 ⟨hread d a ha, ih hitems⟩
  | _ => cases h

/-! ## Records -/

theorem mem_insertField {x field : String × Document} {fields : List (String × Document)} :
    x ∈ insertField field fields ↔ x = field ∨ x ∈ fields := by
  induction fields with
  | nil => simp [insertField]
  | cons f fields ih =>
    rw [insertField]
    split_ifs
    · rw [List.mem_cons, List.mem_cons, ih, or_left_comm]
    · rw [List.mem_cons]

theorem mem_sortFields {x : String × Document} {fields : List (String × Document)} :
    x ∈ sortFields fields ↔ x ∈ fields := by
  induction fields with
  | nil => rfl
  | cons f fields ih => rw [sortFields, List.foldr_cons, mem_insertField, List.mem_cons, ← ih, sortFields]

theorem sortFields_eq_self {fields : List (String × Document)} (h : fields.Pairwise (·.1 < ·.1)) :
    sortFields fields = fields := by
  induction fields with
  | nil => rfl
  | cons f fields ih =>
    obtain ⟨hfirst, hrest⟩ := List.pairwise_cons.1 h
    have hsorted : sortFields (f :: fields) = insertField f fields := by
      rw [sortFields, List.foldr_cons, ← sortFields, ih hrest]
    rw [hsorted]
    cases fields with
    | nil => rfl
    | cons g fields => rw [insertField, if_neg (String.lt_asymm (hfirst g List.mem_cons_self))]

/-- what a record type makes of one named field of a document -/
def readNamed (fields : List (Field σ)) (s : σ) (name : String) (d : Document) : Reading σ :=
  match fields.find? fun f => f.name == name with
  | some f => f.read s d
  | none => .ok s

/-- **The fields of a written record are read in order.** -/
theorem readFields_record (fields : List (Field σ)) (start : σ) {written : List (String × Document)}
    (names : List String) (hnames : written.map Prod.fst = names) (h : names.Pairwise (· < ·)) :
    readFields fields start (.record written) =
      written.foldlM (fun s w => readNamed fields s w.1 w.2) start := by
  have hascending : written.Pairwise (·.1 < ·.1) := List.pairwise_map.1 (hnames ▸ h)
  simp only [readFields, readEntries, sortFields_eq_self hascending]
  rfl

theorem readEntries_invariant {P : σ → Prop} {step : σ → String → Document → Reading σ}
    (hstep : ∀ s name d t, P s → step s name d = .ok t → P t) {start t : σ} {d : Document} (hstart : P start)
    (h : readEntries step start d = .ok t) : P t := by
  cases d with
  | record fields => exact foldlM_invariant (fun f _ s t => hstep s f.1 f.2 t) h hstart
  | _ => cases h

/-- **What holds of all that a record type accepts**: it holds of the start, and the reader of each field keeps it. -/
theorem readFields_invariant {P : σ → Prop} {fields : List (Field σ)}
    (hfields : ∀ f ∈ fields, ∀ s d t, P s → f.read s d = .ok t → P t) {start t : σ} {d : Document} (hstart : P start)
    (h : readFields fields start d = .ok t) : P t := by
  have hnamed : ∀ s name d t, P s → readNamed fields s name d = .ok t → P t := by
    intro s name d t hs hread
    rw [readNamed] at hread
    split at hread
    · rename_i f hf
      exact hfields f (List.mem_of_find?_eq_some hf) s d t hs hread
    · cases hread
      exact hs
  have hitems : ∀ items, ∀ s t, P s → readItems fields items s = .ok t → P t := by
    clear h hnamed
    induction fields with
    | nil =>
      intro items s t hs hread
      cases items with
      | nil =>
        cases hread
        exact hs
      | cons d items => cases hread
    | cons f fields ih =>
      intro items s t hs hread
      cases items with
      | nil =>
        cases hread
        exact hs
      | cons d items =>
        obtain ⟨s', hfirst, hrest⟩ := bind_eq_ok.1 hread
        exact ih (fun g hg => hfields g (List.mem_cons_of_mem _ hg)) items s' t
          (hfields f List.mem_cons_self s d s' hs hfirst) hrest
  cases d with
  | list items => exact hitems items start t hstart h
  | record fields' => exact readEntries_invariant hnamed hstart (d := .record fields') h
  | _ => cases h

/-- a field that holds one part keeps what setting the part keeps -/
theorem keeps_field {P : σ → Prop} {name : String} {read : Document → Reading β} {set : σ → β → σ}
    (h : ∀ s d b, P s → read d = .ok b → P (set s b)) :
    ∀ s d t, P s → (field name read set).read s d = .ok t → P t := by
  intro s d t hs hread
  obtain ⟨b, hb, rfl⟩ := map_eq_ok.1 hread
  exact h s d b hs hb

@[simp] theorem readNatural_integer (n : Nat) : readNatural (.integer n) = .ok n := by
  simp [readNatural]

@[simp] theorem readWord_integer (n : UInt64) : readWord (.integer n.toNat) = .ok n := by
  have hlt : n.toNat < 0x10000000000000000 := n.toNat_lt
  simp only [readWord, readNatural_integer]
  show (if n.toNat < 0x10000000000000000 then .ok (UInt64.ofNat n.toNat) else .error .malformed) = (.ok n : Reading _)
  rw [if_pos hlt, UInt64.ofNat_toNat]

end Document

open Document

/-! ## Settings -/

theorem Sampling.ofDocument_toDocument (s : Sampling) : ofDocument s.toDocument = .ok s := by
  have hmake : make s.fraction s.seed = .ok s := dif_pos s.valid
  rw [ofDocument, toDocument, readFields_record _ _ ["fraction", "seed"] (by rfl) (by decide)]
  simp [readNamed, field, readReal, Draft.finish, required, hmake, Except.mapError]

theorem Config.ofDocument_toDocument (c : Config) : ofDocument c.toDocument = .ok c := by
  have hsampling : readOption Sampling.ofDocument ((c.sampling.map Sampling.toDocument).getD .null) =
      .ok c.sampling := by
    cases c.sampling with
    | none => rfl
    | some s =>
      have hs := s.ofDocument_toDocument
      simp only [Sampling.toDocument] at hs
      simp [readOption, Sampling.toDocument, hs]
  rw [ofDocument, toDocument,
    readFields_record _ _
      ["max_array_length", "sampling", "structural_fallback", "use_literals", "use_spec_literals", "use_subtypes"]
      (by rfl) (by decide)]
  simp [readNamed, field, readBoolean, hsampling]

/-! ## Literals -/

namespace Text

/-- a text that comes after all others is put at the end -/
theorem insertText_last {s : String} {ts : List String} (h : ∀ t ∈ ts, t < s) : insertText s ts = ts ++ [s] := by
  induction ts with
  | nil => rfl
  | cons t ts ih =>
    have ht : t < s := h t List.mem_cons_self
    have hne : s ≠ t := fun hst => String.lt_irrefl t (hst ▸ ht)
    rw [insertText, if_neg (String.lt_asymm ht), if_neg hne, ih fun u hu => h u (List.mem_cons_of_mem _ hu)]
    rfl

theorem alterKey_last {β : Type} {key : String} {change : Option β → β} {es : List (String × β)}
    (h : ∀ e ∈ es, e.1 < key) : alterKey key change es = es ++ [(key, change none)] := by
  induction es with
  | nil => rfl
  | cons e es ih =>
    have he : e.1 < key := h e List.mem_cons_self
    have hne : key ≠ e.1 := fun hke => String.lt_irrefl e.1 (hke ▸ he)
    rw [alterKey, if_neg (String.lt_asymm he), if_neg hne, ih fun f hf => h f (List.mem_cons_of_mem _ hf)]
    rfl

theorem TextSet.items_insertAll {a : TextSet} {texts : List String} (h : (a.items ++ texts).Pairwise (· < ·)) :
    (a.insertAll texts).items = a.items ++ texts := by
  induction texts generalizing a with
  | nil => exact (List.append_nil _).symm
  | cons s texts ih =>
    have hlast : ∀ t ∈ a.items, t < s := fun t ht => (List.pairwise_append.1 h).2.2 t ht s List.mem_cons_self
    have hitems : (a.insert s).items = a.items ++ [s] := insertText_last hlast
    have hsplit : a.items ++ s :: texts = (a.insert s).items ++ texts := by
      rw [hitems, List.append_assoc]
      rfl
    rw [hsplit] at h ⊢
    exact ih h

theorem TextSet.ofDocument_toDocument (a : TextSet) : ofDocument a.toDocument = .ok a := by
  have hlist : readList readText a.toDocument = .ok a.items := readList_self fun _ _ => rfl
  have hset : ofList a.items = a := by
    have hitems : (empty.insertAll a.items).items = a.items := items_insertAll a.ascending
    cases a
    exact TextSet.mk.injEq _ _ _ _ |>.mpr hitems
  rw [ofDocument, hlist]
  exact congrArg Except.ok hset

end Text

namespace LiteralTable

open Text (TextSet TextMap)

theorem valuesOfDocument_record (m : TextMap TextSet) :
    valuesOfDocument (.record (m.entries.map fun e => (e.1, e.2.toDocument))) = .ok m := by
  have hascending : (m.entries.map fun e => (e.1, e.2.toDocument)).Pairwise (·.1 < ·.1) :=
    List.pairwise_map.2 m.ascending
  have hstep : ∀ done e rest, ∀ m' : TextMap TextSet, m.entries = done ++ e :: rest → m'.entries = done →
      ∃ m'', (TextSet.ofDocument e.2.toDocument).map (m'.insert e.1) = .ok m'' ∧ m''.entries = done ++ [e] := by
    intro done e rest m' hsplit hm'
    have hlast : ∀ f ∈ m'.entries, f.1 < e.1 := by
      have hpairwise := m.ascending
      rw [hsplit] at hpairwise
      rw [hm']
      exact fun f hf => (List.pairwise_append.1 hpairwise).2.2 f hf e List.mem_cons_self
    rw [TextSet.ofDocument_toDocument]
    have hentries : (m'.insert e.1 e.2).entries = m'.entries ++ [e] := Text.alterKey_last hlast
    exact ⟨m'.insert e.1 e.2, rfl, hm' ▸ hentries⟩
  obtain ⟨m', hread, hentries⟩ := foldlM_accumulates (fun e : String × TextSet => (e.1, e.2.toDocument))
    (fun (m : TextMap TextSet) f => (TextSet.ofDocument f.2).map (m.insert f.1)) (fun done m' => m'.entries = done)
    (rfl : TextMap.empty.entries = []) hstep
  simp only [valuesOfDocument, readEntries, sortFields_eq_self hascending, hread]
  cases m
  cases hentries
  rfl

theorem ofDocument_toDocument (t : LiteralTable) : ofDocument t.toDocument = .ok t := by
  rw [ofDocument, toDocument, readFields_record _ _ ["type_references", "values"] (by rfl) (by decide)]
  simp [readNamed, field, valuesOfDocument_record, TextSet.ofDocument_toDocument]

end LiteralTable

end TestInputs
