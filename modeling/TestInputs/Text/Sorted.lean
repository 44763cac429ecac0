/-
Sets of texts and maps keyed by texts, both held as strictly ascending lists in the order of code points. The order is
part of the type, so two sets with the same members are equal, and so are two maps with the same bindings.
-/

namespace TestInputs.Text

/-- put a text into an ascending list unless it is there -/
def insertText (s : String) : List String → List String
  | [] => [s]
  | t :: ts => if s < t then s :: t :: ts else if s = t then t :: ts else t :: insertText s ts

theorem mem_insertText {s x : String} {ts : List String} : x ∈ insertText s ts ↔ x = s ∨ x ∈ ts := by
  induction ts with
  | nil => simp [insertText]
  | cons t ts ih =>
    unfold insertText
    split
    · simp
    · split
      · next h => subst h; simp
      · simp only [List.mem_cons, ih]
        constructor
        · rintro (h | h | h)
          · exact .inr (.inl h)
          · exact .inl h
          · exact .inr (.inr h)
        · rintro (h | h | h)
          · exact .inr (.inl h)
          · exact .inl h
          · exact .inr (.inr h)

theorem pairwise_insertText {s : String} {ts : List String} (h : ts.Pairwise (· < ·)) :
    (insertText s ts).Pairwise (· < ·) := by
  induction ts with
  | nil => simp [insertText]
  | cons t ts ih =>
    have hts := List.pairwise_cons.1 h
    unfold insertText
    split
    · next hlt =>
      refine List.pairwise_cons.2 ⟨fun x hx => ?_, h⟩
      rcases List.mem_cons.1 hx with rfl | hx
      · exact hlt
      · exact String.lt_trans hlt (hts.1 x hx)
    · split
      · exact h
      · next hge hne =>
        refine List.pairwise_cons.2 ⟨fun x hx => ?_, ih hts.2⟩
        rcases mem_insertText.1 hx with rfl | hx
        · exact Std.lt_of_le_of_ne (String.not_lt.1 hge) (Ne.symm hne)
        · exact hts.1 x hx

/-- a set of texts -/
structure TextSet where
  items : List String
  ascending : items.Pairwise (· < ·) := by simp
  deriving DecidableEq

namespace TextSet

def empty : TextSet := { items := [] }

def isEmpty (a : TextSet) : Bool := a.items.isEmpty

def insert (a : TextSet) (s : String) : TextSet :=
  { items := insertText s a.items, ascending := pairwise_insertText a.ascending }

/-- add all texts of a list -/
def insertAll (a : TextSet) (texts : List String) : TextSet :=
  texts.foldl insert a

def ofList (texts : List String) : TextSet :=
  empty.insertAll texts

def union (a b : TextSet) : TextSet :=
  a.insertAll b.items

end TextSet

/-! ## Maps -/

/-- change the binding of a key in a list with ascending keys, or add one -/
def alterKey {β : Type} (key : String) (change : Option β → β) : List (String × β) → List (String × β)
  | [] => [(key, change none)]
  | e :: es =>
    if key < e.1 then (key, change none) :: e :: es
    else if key = e.1 then (e.1, change (some e.2)) :: es
    else e :: alterKey key change es

theorem key_mem_alterKey {β : Type} {key : String} {change : Option β → β} {es : List (String × β)} {x : String × β}
    (h : x ∈ alterKey key change es) : x.1 = key ∨ ∃ y ∈ es, y.1 = x.1 := by
  induction es with
  | nil => simp only [alterKey, List.mem_singleton] at h; exact .inl (h ▸ rfl)
  | cons e es ih =>
    unfold alterKey at h
    split at h
    · rcases List.mem_cons.1 h with h | h
      · exact .inl (h ▸ rfl)
      · exact .inr ⟨x, h, rfl⟩
    · split at h
      · rcases List.mem_cons.1 h with h | h
        · exact .inr ⟨e, List.mem_cons_self, h ▸ rfl⟩
        · exact .inr ⟨x, List.mem_cons_of_mem _ h, rfl⟩
      · rcases List.mem_cons.1 h with h | h
        · exact .inr ⟨x, h ▸ List.mem_cons_self, rfl⟩
        · rcases ih h with h | ⟨y, hy, hyx⟩
          · exact .inl h
          · exact .inr ⟨y, List.mem_cons_of_mem _ hy, hyx⟩

theorem pairwise_alterKey {β : Type} {key : String} {change : Option β → β} {es : List (String × β)}
    (h : es.Pairwise (·.1 < ·.1)) : (alterKey key change es).Pairwise (·.1 < ·.1) := by
  induction es with
  | nil => simp [alterKey]
  | cons e es ih =>
    have hes := List.pairwise_cons.1 h
    unfold alterKey
    split
    · next hlt =>
      refine List.pairwise_cons.2 ⟨fun x hx => ?_, h⟩
      rcases List.mem_cons.1 hx with rfl | hx
      · exact hlt
      · exact String.lt_trans hlt (hes.1 x hx)
    · split
      · exact List.pairwise_cons.2 hes
      · next hge hne =>
        refine List.pairwise_cons.2 ⟨fun x hx => ?_, ih hes.2⟩
        rcases key_mem_alterKey hx with hx | ⟨y, hy, hyx⟩
        · rw [hx]
          exact Std.lt_of_le_of_ne (String.not_lt.1 hge) (Ne.symm hne)
        · rw [← hyx]
          exact hes.1 y hy

/-- a map from texts -/
structure TextMap (β : Type) where
  entries : List (String × β)
  ascending : entries.Pairwise (·.1 < ·.1) := by simp
  deriving DecidableEq

namespace TextMap

variable {β : Type}

def empty : TextMap β := { entries := [] }

def isEmpty (m : TextMap β) : Bool := m.entries.isEmpty

def get? (m : TextMap β) (key : String) : Option β :=
  (m.entries.find? fun e => e.1 == key).map Prod.snd

/-- change the binding of a key, or add one -/
def alter (m : TextMap β) (key : String) (change : Option β → β) : TextMap β :=
  { entries := alterKey key change m.entries, ascending := pairwise_alterKey m.ascending }

/-- bind a key, whatever it was bound to -/
def insert (m : TextMap β) (key : String) (value : β) : TextMap β :=
  m.alter key fun _ => value

end TextMap

end TestInputs.Text
