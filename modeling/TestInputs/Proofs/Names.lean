/-
Type names and their texts. A text may hold blanks, brackets and angle brackets in any arrangement; what is read from
it is a name in which nothing is left to strip: no blank at either end, no pair of brackets at the end, and no angle
bracket in front of the generic part. Array types over such a base share these properties, since the dimensions are kept
apart. A name with these properties is read back from its text as it is, so its text determines it. Nothing but blanks
is lost when a text is read.

Results:
- `Text.trim_eq_self`, `Text.trimmed_trim`: trimming gives the texts without blanks at their ends, and keeps these;
- `canonical_parse`, `Reached.canonical`: all names that can be read or derived are canonical;
- `parse_text`, `eq_of_text`: a canonical name is read back from its text, so no other one has it;
- `visible_text_parse`: a text and the text of the name that is read from it agree up to blanks;
- `names_read_back`: all of this for the names that can be read or derived, which are the canonical ones.
-/
import Mathlib.Tactic.Common
import TestInputs.TypeName

namespace TestInputs

/-! ## Trimmed texts -/

namespace Text

/-- no blank at either end -/
structure Trimmed (cs : List Char) : Prop where
  first : ∀ c, cs.head? = some c → isBlank c = false
  last : ∀ c, cs.getLast? = some c → isBlank c = false

theorem dropWhile_eq_self {p : Char → Bool} {cs : List Char} (h : ∀ c, cs.head? = some c → p c = false) :
    cs.dropWhile p = cs := by
  cases cs with
  | nil => rfl
  | cons c cs => rw [List.dropWhile_cons, h c rfl, if_neg Bool.false_ne_true]

theorem head_dropWhile {p : Char → Bool} {cs : List Char} {c : Char} (h : (cs.dropWhile p).head? = some c) :
    p c = false := by
  induction cs with
  | nil => cases h
  | cons d cs ih =>
    rw [List.dropWhile_cons] at h
    split_ifs at h with hd
    · exact ih h
    · cases h
      simpa using hd

theorem head_of_isPrefix {cs ds : List Char} (hp : cs <+: ds) {c : Char} (h : cs.head? = some c) :
    ds.head? = some c := by
  obtain ⟨rest, rfl⟩ := hp
  rw [List.head?_append, h, Option.some_or]

theorem dropEndWhile_isPrefix (p : Char → Bool) (cs : List Char) : dropEndWhile p cs <+: cs := by
  rw [← List.reverse_suffix, dropEndWhile, List.reverse_reverse]
  exact List.dropWhile_suffix p

theorem trim_eq_self {cs : List Char} (h : Trimmed cs) : trim cs = cs := by
  have hlast : ∀ c, cs.reverse.head? = some c → isBlank c = false := by
    intro c hc
    rw [List.head?_reverse] at hc
    exact h.last c hc
  rw [trim, dropWhile_eq_self h.first, dropEndWhile, dropWhile_eq_self hlast, List.reverse_reverse]

theorem trimmed_trim (cs : List Char) : Trimmed (trim cs) := by
  constructor
  · intro c hc
    exact head_dropWhile (head_of_isPrefix (dropEndWhile_isPrefix _ _) hc)
  · intro c hc
    rw [trim, dropEndWhile, List.getLast?_reverse] at hc
    exact head_dropWhile hc

/-- the characters that are not blank -/
def visible (cs : List Char) : List Char := cs.filter fun c => !isBlank c

theorem visible_append (cs ds : List Char) : visible (cs ++ ds) = visible cs ++ visible ds := List.filter_append ..

theorem visible_reverse (cs : List Char) : visible cs.reverse = (visible cs).reverse := List.filter_reverse ..

theorem visible_dropWhile (cs : List Char) : visible (cs.dropWhile isBlank) = visible cs := by
  induction cs with
  | nil => rfl
  | cons c cs ih =>
    rw [List.dropWhile_cons]
    split_ifs with hc
    · rw [ih, visible, visible, List.filter_cons_of_neg (by simp [hc])]
    · rfl

theorem visible_trim (cs : List Char) : visible (trim cs) = visible cs := by
  rw [trim, dropEndWhile, visible_reverse, visible_dropWhile, visible_reverse, List.reverse_reverse, visible_dropWhile]

end Text

/-! ## Canonical names -/

namespace TypeName

open Text (Trimmed)

/-- the characters of a type name without its dimensions -/
def baseChars (ty : TypeName) : List Char := ty.name.toList ++ ty.generic.toList

/-- nothing is left to strip from the name -/
structure Canonical (ty : TypeName) : Prop where
  plain : '<' ∉ ty.name.toList
  generic : ∀ c, ty.generic.toList.head? = some c → c = '<'
  trimmed : Trimmed ty.baseChars
  bare : ¬ ['[', ']'] <:+ ty.baseChars

/-- a name that is read from a text or derived from such a name -/
inductive Reached : TypeName → Prop
  | parse (text : String) : Reached (parse text)
  | array (text : String) (dimensions : Nat) : Reached (array text dimensions)
  | arrayOf {ty : TypeName} (reached : Reached ty) : Reached ty.arrayOf
  | component {ty component : TypeName} (reached : Reached ty) (isComponent : ty.component? = some component) :
      Reached component
  | base {ty : TypeName} (reached : Reached ty) : Reached ty.base

/-- dimensions have no part in it -/
theorem Canonical.withDimensions {ty : TypeName} (h : ty.Canonical) (n : Nat) :
    Canonical { ty with dimensions := n } :=
  ⟨h.plain, h.generic, h.trimmed, h.bare⟩

/-! ## What is read -/

theorem unbracket_suffix (cs : List Char) : (unbracket cs).2 <:+ cs := by
  fun_induction unbracket cs with
  | case1 rest dimensions base hrest ih =>
    rw [hrest] at ih
    exact (ih.trans (List.dropWhile_suffix _)).trans ((List.suffix_cons _ _).trans (List.suffix_cons _ _))
  | case2 cs hother => exact List.suffix_rfl

theorem not_prefix_unbracket (cs : List Char) : ¬ [']', '['] <+: (unbracket cs).2 := by
  fun_induction unbracket cs with
  | case1 rest dimensions base hrest ih =>
    rw [hrest] at ih
    exact ih
  | case2 cs hother =>
    rintro ⟨rest, rfl⟩
    exact hother rest rfl

/-- what stands before the brackets does not end in a blank -/
theorem head_unbracket {cs : List Char} (h : ∀ c, cs.head? = some c → Text.isBlank c = false) :
    ∀ c, (unbracket cs).2.head? = some c → Text.isBlank c = false := by
  fun_induction unbracket cs with
  | case1 rest dimensions base hrest ih =>
    rw [hrest] at ih
    exact ih fun c hc => Text.head_dropWhile hc
  | case2 cs hother => exact h

/-- name and generic part are what stands before the brackets -/
theorem baseChars_ofChars (cs : List Char) :
    (ofChars cs).baseChars = (unbracket (Text.trim cs).reverse).2.reverse := by
  simp only [baseChars, ofChars, String.toList_ofList, List.takeWhile_append_dropWhile]

theorem canonical_ofChars (cs : List Char) : (ofChars cs).Canonical := by
  have htrim := Text.trimmed_trim cs
  have hhead : ∀ c, (Text.trim cs).reverse.head? = some c → Text.isBlank c = false := by
    intro c hc
    rw [List.head?_reverse] at hc
    exact htrim.last c hc
  have hsuffix := unbracket_suffix (Text.trim cs).reverse
  have hbare := not_prefix_unbracket (Text.trim cs).reverse
  have hlast := head_unbracket hhead
  have hchars := baseChars_ofChars cs
  refine ⟨fun hmem => ?_, fun c hc => ?_, ⟨fun c hc => ?_, fun c hc => ?_⟩, fun hpair => ?_⟩
  · simp only [ofChars, String.toList_ofList] at hmem
    simpa using List.all_eq_true.1 List.all_takeWhile _ hmem
  · simp only [ofChars, String.toList_ofList] at hc
    simpa using Text.head_dropWhile hc
  · -- the first character is that of the trimmed text
    rw [hchars] at hc
    refine htrim.first c (Text.head_of_isPrefix ?_ hc)
    rw [← List.reverse_suffix, List.reverse_reverse]
    exact hsuffix
  · rw [hchars, List.getLast?_reverse] at hc
    exact hlast c hc
  · rw [hchars, ← List.reverse_prefix, List.reverse_reverse] at hpair
    exact hbare hpair

theorem canonical_parse (text : String) : (parse text).Canonical := canonical_ofChars text.toList

/-- **All names are canonical** that can be read or derived. -/
theorem Reached.canonical {ty : TypeName} (h : ty.Reached) : ty.Canonical := by
  induction h with
  | parse text => exact canonical_parse text
  | array text dimensions => exact (canonical_parse text).withDimensions dimensions
  | arrayOf _ ih => exact ih.withDimensions _
  | @component ty component _ hcomponent ih =>
    unfold component? at hcomponent
    split at hcomponent
    · cases hcomponent
    · cases hcomponent
      exact ih.withDimensions _
  | base _ ih => exact ih.withDimensions 0

/-! ## What is read back -/

theorem brackets_succ (n : Nat) : brackets (n + 1) = brackets n ++ ['[', ']'] := by
  simp only [brackets, List.replicate_succ', List.flatten_append, List.flatten_cons, List.flatten_nil, List.append_nil]

/-- a trimmed text stays so with brackets after it -/
theorem trimmed_brackets {base : List Char} (h : Trimmed base) (n : Nat) : Trimmed (base ++ brackets n) := by
  induction n with
  | zero => simpa [brackets] using h
  | succ n ih =>
    rw [brackets_succ, ← List.append_assoc]
    constructor
    · intro c hc
      rw [List.head?_append] at hc
      cases hd : (base ++ brackets n).head? with
      | none =>
        rw [hd] at hc
        cases hc
        decide
      | some d =>
        rw [hd, Option.some_or] at hc
        exact ih.first c (hd.trans hc)
    · intro c hc
      rw [List.getLast?_append] at hc
      cases hc
      decide

theorem unbracket_brackets {base : List Char} (htrim : Trimmed base) (hbare : ¬ ['[', ']'] <:+ base) (n : Nat) :
    unbracket (base ++ brackets n).reverse = (n, base.reverse) := by
  induction n with
  | zero =>
    rw [brackets, List.replicate_zero, List.flatten_nil, List.append_nil]
    unfold unbracket
    split
    · rename_i rest hrest
      refine absurd ⟨rest.reverse, ?_⟩ hbare
      rw [← List.reverse_reverse base, hrest]
      simp
    · rfl
  | succ n ih =>
    have hlast : ∀ c, (base ++ brackets n).reverse.head? = some c → Text.isBlank c = false := by
      intro c hc
      rw [List.head?_reverse] at hc
      exact (trimmed_brackets htrim n).last c hc
    have hreverse : (base ++ brackets (n + 1)).reverse = ']' :: '[' :: (base ++ brackets n).reverse := by
      rw [brackets_succ, ← List.append_assoc, List.reverse_append]
      rfl
    rw [hreverse, unbracket, Text.dropWhile_eq_self hlast, ih]

theorem toList_text (ty : TypeName) : ty.text.toList = ty.baseChars ++ brackets ty.dimensions := by
  simp only [text, baseChars, String.toList_append, String.toList_ofList]

/-- **A canonical name is read back from its text**, generic part and dimensions included. -/
theorem parse_text {ty : TypeName} (h : ty.Canonical) : parse ty.text = ty := by
  have hname : ∀ c ∈ ty.name.toList, (c != '<') = true := by
    intro c hc
    rw [bne_iff_ne]
    rintro rfl
    exact h.plain hc
  have hgeneric : ∀ c, ty.generic.toList.head? = some c → (c != '<') = false := by
    intro c hc
    rw [h.generic c hc]
    rfl
  have hdrop : ty.baseChars.dropWhile (· != '<') = ty.generic.toList := by
    rw [baseChars, List.dropWhile_append_of_pos hname, Text.dropWhile_eq_self hgeneric]
  have htake : ty.baseChars.takeWhile (· != '<') = ty.name.toList := by
    have hsplit := List.takeWhile_append_dropWhile (p := (· != '<')) (l := ty.baseChars)
    rw [hdrop] at hsplit
    exact List.append_cancel_right hsplit
  rw [parse, toList_text, ofChars, Text.trim_eq_self (trimmed_brackets h.trimmed _), unbracket_brackets h.trimmed h.bare]
  simp only [List.reverse_reverse, htake, hdrop, String.ofList_toList]

/-- canonical names with one text are one name -/
theorem eq_of_text {a b : TypeName} (ha : a.Canonical) (hb : b.Canonical) (h : a.text = b.text) : a = b := by
  rw [← parse_text ha, h, parse_text hb]

/-! ## What is lost -/

theorem visible_brackets (n : Nat) : Text.visible (brackets n) = brackets n := by
  induction n with
  | zero => rfl
  | succ n ih => rw [brackets_succ, Text.visible_append, ih]; rfl

/-- brackets are counted and blanks before them are dropped; all else is kept -/
theorem visible_unbracket (cs : List Char) :
    Text.visible cs = (brackets (unbracket cs).1).reverse ++ Text.visible (unbracket cs).2 := by
  fun_induction unbracket cs with
  | case1 rest dimensions base hrest ih =>
    rw [hrest, Text.visible_dropWhile] at ih
    rw [brackets_succ, List.reverse_append]
    calc Text.visible (']' :: '[' :: rest)
        = [']', '['] ++ Text.visible rest := rfl
      _ = [']', '['] ++ ((brackets dimensions).reverse ++ Text.visible base) := by rw [ih]
      _ = [']', '['] ++ (brackets dimensions).reverse ++ Text.visible base := (List.append_assoc _ _ _).symm
  | case2 cs hother => rfl

/-- **Nothing but blanks is lost** when a name is read. -/
theorem visible_text_parse (text : String) : Text.visible (parse text).text.toList = Text.visible text.toList := by
  have hdimensions : (parse text).dimensions = (unbracket (Text.trim text.toList).reverse).1 := rfl
  have hread := visible_unbracket (Text.trim text.toList).reverse
  rw [Text.visible_reverse, Text.visible_trim, List.reverse_eq_iff, List.reverse_append, List.reverse_reverse,
    ← Text.visible_reverse] at hread
  rw [toList_text, Text.visible_append, visible_brackets, parse, baseChars_ofChars, ← parse, hdimensions, hread]

/-! ## Names and texts -/

theorem reached_iff_canonical {ty : TypeName} : ty.Reached ↔ ty.Canonical := by
  refine ⟨Reached.canonical, fun h => ?_⟩
  rw [← parse_text h]
  exact .parse ty.text

/-- **Names are read back from their texts.** Every name that is read from a text, and every array type, component and
base derived from one, is read back from its own text with the same name, generic part and dimensions; so two of them
with one text are one. What is read from any text has no angle bracket in its name, a generic part that starts with one
if there is any, and no blanks around and no brackets behind the two; it differs from the text by blanks only. There are
no other names with these properties than the ones that can be read or derived. -/
theorem names_read_back :
    (∀ ty : TypeName, ty.Reached → parse ty.text = ty) ∧
    (∀ a b : TypeName, a.Reached → b.Reached → a.text = b.text → a = b) ∧
    (∀ text : String, (parse text).Canonical ∧ Text.visible (parse text).text.toList = Text.visible text.toList) ∧
    ∀ ty : TypeName, ty.Reached ↔ ty.Canonical := by
  refine ⟨fun ty hty => ?_, fun a b ha hb htext => ?_, fun text => ?_, fun ty => reached_iff_canonical⟩
  · exact parse_text hty.canonical
  · exact eq_of_text ha.canonical hb.canonical htext
  · exact ⟨canonical_parse text, visible_text_parse text⟩

/-! Blanks and brackets inside a generic part stay, those behind it count. -/

def crowdedName : TypeName := (parse " List <String[ ]>[] [] ").base.arrayOf

theorem crowded_names_read_back :
    crowdedName.Reached ∧ crowdedName.text = "List <String[ ]>[]" ∧ parse crowdedName.text = crowdedName ∧
    (parse "[] []").text = (array " []" 2).text ∧ parse "[] []" = array " []" 2 := by
  obtain ⟨hback, hone, -, -⟩ := names_read_back
  have hreached : crowdedName.Reached := .arrayOf (.base (.parse _))
  have htexts : (parse "[] []").text = (array " []" 2).text := by decide +kernel
  refine ⟨hreached, by decide +kernel, hback _ hreached, htexts, ?_⟩
  exact hone _ _ (.parse _) (.array _ _) htexts

end TypeName

end TestInputs
