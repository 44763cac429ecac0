/-
Literals of the integer kinds. `Spells` gives their grammar: blanks, an optional sign, decimal digits, for long integers
any number of suffix letters, and blanks again. The number meant is given by the places of its digits, whatever their
number; it must lie in the range of the kind, which has one more negative number than positive ones.

The reader takes the text apart from its ends: first the blanks, then the suffix letters, then the sign. No two of these
can be confused, since a number starts with a sign or a digit and ends in a digit.

Results:
- `readInteger_iff`: an integer is read if and only if the text is a sign and digits, and it is the one they stand for;
- `spells_iff`: a text spells a number if and only if that number is left when its ends are taken off;
- `readLiteral_iff`: a literal is read if and only if it spells a number of the range, and it is this number;
- `integer_literals_read_exactly`: the grammar, and literals written by `shown` are read back.
-/
import Mathlib.Tactic.Common
import TestInputs.Proofs.Names
import TestInputs.Value.Literal
import TestInputs.Value.Shown

namespace TestInputs

/-! ## The ends of a text -/

namespace Text

theorem exists_dropEndWhile (p : Char → Bool) (cs : List Char) :
    ∃ ending, cs = dropEndWhile p cs ++ ending ∧ ∀ c ∈ ending, p c = true := by
  refine ⟨(cs.reverse.takeWhile p).reverse, ?_, fun c hc => ?_⟩
  · rw [dropEndWhile, ← List.reverse_append, List.takeWhile_append_dropWhile, List.reverse_reverse]
  · exact List.all_eq_true.1 (List.all_takeWhile) c (List.mem_reverse.1 hc)

theorem dropEndWhile_append {p : Char → Bool} {core ending : List Char} (hending : ∀ c ∈ ending, p c = true)
    (hcore : ∀ c, core.getLast? = some c → p c = false) : dropEndWhile p (core ++ ending) = core := by
  have hall : ∀ c ∈ ending.reverse, p c = true := fun c hc => hending c (List.mem_reverse.1 hc)
  have hstop : ∀ c, core.reverse.head? = some c → p c = false := by
    intro c hc
    rw [List.head?_reverse] at hc
    exact hcore c hc
  rw [dropEndWhile, List.reverse_append, List.dropWhile_append_of_pos hall, dropWhile_eq_self hstop,
    List.reverse_reverse]

theorem exists_trim (cs : List Char) :
    ∃ before after, cs = before ++ trim cs ++ after ∧ (∀ c ∈ before, isBlank c = true) ∧
      ∀ c ∈ after, isBlank c = true := by
  obtain ⟨after, hafter, hblank⟩ := exists_dropEndWhile isBlank (cs.dropWhile isBlank)
  refine ⟨cs.takeWhile isBlank, after, ?_, fun c hc => ?_, hblank⟩
  · rw [List.append_assoc, trim, ← hafter, List.takeWhile_append_dropWhile]
  · exact List.all_eq_true.1 List.all_takeWhile c hc

theorem trim_append {before core after : List Char} (hbefore : ∀ c ∈ before, isBlank c = true)
    (hafter : ∀ c ∈ after, isBlank c = true) (hcore : Trimmed core) (hne : core ≠ []) :
    trim (before ++ core ++ after) = core := by
  have hstart : ∀ c, (core ++ after).head? = some c → isBlank c = false := by
    intro c hc
    obtain ⟨d, rest, rfl⟩ := List.exists_cons_of_ne_nil hne
    exact hcore.first c hc
  rw [trim, List.append_assoc, List.dropWhile_append_of_pos hbefore, dropWhile_eq_self hstart,
    dropEndWhile_append hafter hcore.last]

theorem not_isBlank_of_isDigit {c : Char} (h : c.isDigit = true) : isBlank c = false := by
  have hbounds := Char.isDigit_iff_toNat.1 h
  have hlow : 48 ≤ c.toNat := hbounds.1
  have hhigh : c.toNat ≤ 57 := hbounds.2
  simp only [isBlank, inRanges, blankRanges, List.any_cons, List.any_nil, Bool.or_false, Bool.or_eq_false_iff,
    Bool.and_eq_false_iff, decide_eq_false_iff_not]
  omega

end Text

/-! ## Integers in decimal -/

namespace Decimal

/-- the number that digits stand for: each one counts a power of ten, by the number of digits behind it -/
def placeValue : List Char → Nat
  | [] => 0
  | d :: ds => (d.toNat - '0'.toNat) * Nat.pow 10 ds.length + placeValue ds

theorem foldl_digits (cs : List Char) (start : Nat) :
    cs.foldl (fun n c => 10 * n + (c.toNat - '0'.toNat)) start = start * Nat.pow 10 cs.length + placeValue cs := by
  induction cs generalizing start with
  | nil => simp [placeValue]
  | cons c cs ih =>
    have hpow : Nat.pow 10 (cs.length + 1) = 10 * Nat.pow 10 cs.length := Nat.pow_succ'
    calc (c :: cs).foldl (fun n c => 10 * n + (c.toNat - '0'.toNat)) start
        = (10 * start + (c.toNat - '0'.toNat)) * Nat.pow 10 cs.length + placeValue cs := ih _
      _ = start * (10 * Nat.pow 10 cs.length) + (c.toNat - '0'.toNat) * Nat.pow 10 cs.length + placeValue cs := by
        rw [Nat.add_mul, ← Nat.mul_assoc start, Nat.mul_comm start]
      _ = start * Nat.pow 10 (c :: cs).length + placeValue (c :: cs) := by
        rw [placeValue, List.length_cons, hpow, Nat.add_assoc]

theorem digitsValue_eq_placeValue (cs : List Char) : digitsValue cs = placeValue cs := by
  rw [digitsValue, foldl_digits, Nat.zero_mul, Nat.zero_add]

theorem placeValue_digitChars (n : Nat) : placeValue (digitChars n) = n := by
  rw [← digitsValue_eq_placeValue, digitsValue, ← Nat.ofDigitChars_eq_foldl]
  exact Nat.ofDigitChars_ten_toDigits

/-- an optional sign, and the factor that it stands for -/
inductive SignText : List Char → Int → Prop
  | none : SignText [] 1
  | plus : SignText ['+'] 1
  | minus : SignText ['-'] (-1)

/-- an optional sign and one or more digits, and the number that they stand for -/
inductive IntegerText : List Char → Int → Prop
  | intro {sign digits : List Char} {factor : Int} (signed : SignText sign factor) (nonempty : digits ≠ [])
      (decimal : ∀ d ∈ digits, '0' ≤ d ∧ d ≤ '9') : IntegerText (sign ++ digits) (factor * placeValue digits)

theorem isDigit_iff {c : Char} : c.isDigit = true ↔ '0' ≤ c ∧ c ≤ '9' := by
  simp only [Char.isDigit, Bool.and_eq_true, decide_eq_true_eq]
  rfl

theorem readDigits_iff {cs : List Char} {n : Nat} :
    readDigits? cs = some n ↔ cs ≠ [] ∧ (∀ d ∈ cs, '0' ≤ d ∧ d ≤ '9') ∧ placeValue cs = n := by
  have hall : (!cs.isEmpty && cs.all Char.isDigit) = true ↔ cs ≠ [] ∧ ∀ d ∈ cs, '0' ≤ d ∧ d ≤ '9' := by
    simp only [Bool.and_eq_true, Bool.not_eq_true', List.isEmpty_eq_false_iff, List.all_eq_true, isDigit_iff]
  rw [readDigits?, digitsValue_eq_placeValue, ← and_assoc, ← hall]
  by_cases h : (!cs.isEmpty && cs.all Char.isDigit) = true
  · rw [if_pos h, Option.some.injEq, and_iff_right h]
  · rw [if_neg h]
    refine ⟨fun hn => ?_, fun hn => absurd hn.1 h⟩
    cases hn

theorem splitSign_of_digit {c : Char} {cs : List Char} (h : '0' ≤ c ∧ c ≤ '9') :
    splitSign (c :: cs) = (false, c :: cs) := by
  have hdigit := isDigit_iff.2 h
  rw [splitSign]
  · rintro rest ⟨⟩
    exact absurd hdigit (by decide)
  · rintro rest ⟨⟩
    exact absurd hdigit (by decide)

theorem exists_signText (cs : List Char) :
    ∃ sign factor, SignText sign factor ∧ cs = sign ++ (splitSign cs).2 ∧
      ∀ n : Int, (if (splitSign cs).1 then -n else n) = factor * n := by
  unfold splitSign
  split
  · exact ⟨['+'], 1, .plus, rfl, fun n => (Int.one_mul n).symm⟩
  · exact ⟨['-'], -1, .minus, rfl, fun n => Int.neg_eq_neg_one_mul n⟩
  · exact ⟨[], 1, .none, rfl, fun n => (Int.one_mul n).symm⟩

theorem readInteger_eq (cs : List Char) :
    readInteger? cs = (readDigits? (splitSign cs).2).map fun m : Nat => if (splitSign cs).1 then -(m : Int) else m := by
  rw [readInteger?]
  obtain ⟨negative, rest⟩ := splitSign cs
  cases hread : readDigits? rest with
  | none => simp [hread]
  | some m => simp [hread]

/-- **An integer is read exactly from a sign and digits.** -/
theorem readInteger_iff {cs : List Char} {n : Int} : readInteger? cs = some n ↔ IntegerText cs n := by
  constructor
  · intro h
    rw [readInteger_eq] at h
    obtain ⟨m, hm, hn⟩ := Option.map_eq_some_iff.1 h
    obtain ⟨hne, hdigits, rfl⟩ := readDigits_iff.1 hm
    obtain ⟨sign, factor, hsign, hcs, hfactor⟩ := exists_signText cs
    rw [hfactor] at hn
    have htext := IntegerText.intro hsign hne hdigits
    rwa [← hcs, hn] at htext
  · rintro ⟨hsign, hne, hdigits⟩
    rename_i sign digits factor
    have hread : readDigits? digits = some (placeValue digits) := readDigits_iff.2 ⟨hne, hdigits, rfl⟩
    cases hsign with
    | none =>
      obtain ⟨d, ds, rfl⟩ := List.exists_cons_of_ne_nil hne
      have hsplit : splitSign (d :: ds) = (false, d :: ds) := splitSign_of_digit (hdigits d List.mem_cons_self)
      simp [readInteger?, hsplit, hread]
    | plus => simp [readInteger?, splitSign, hread]
    | minus => simp [readInteger?, splitSign, hread]

theorem IntegerText.ne_nil {cs : List Char} {n : Int} (h : IntegerText cs n) : cs ≠ [] := by
  obtain ⟨-, hne, -⟩ := h
  exact List.append_ne_nil_of_right_ne_nil _ hne

/-- a number ends in a digit -/
theorem IntegerText.isDigit_last {cs : List Char} {n : Int} (h : IntegerText cs n) {c : Char}
    (hc : cs.getLast? = some c) : c.isDigit = true := by
  obtain ⟨-, hne, hdigits⟩ := h
  rw [List.getLast?_append, List.getLast?_eq_some_getLast hne, Option.some_or] at hc
  cases hc
  exact isDigit_iff.2 (hdigits _ (List.getLast_mem hne))

/-- a number starts with a sign or a digit, so with no blank -/
theorem IntegerText.not_isBlank_first {cs : List Char} {n : Int} (h : IntegerText cs n) {c : Char}
    (hc : cs.head? = some c) : Text.isBlank c = false := by
  obtain ⟨hsign, hne, hdigits⟩ := h
  cases hsign with
  | none => exact Text.not_isBlank_of_isDigit (isDigit_iff.2 (hdigits c (List.mem_of_head? hc)))
  | plus =>
    cases hc
    decide
  | minus =>
    cases hc
    decide

theorem integerText_integerChars (n : Int) : IntegerText (integerChars n) n := by
  have hne : digitChars n.natAbs ≠ [] := Nat.toDigits_ne_nil
  have hdigits : ∀ d ∈ digitChars n.natAbs, '0' ≤ d ∧ d ≤ '9' := fun d hd =>
    isDigit_iff.1 (Nat.isDigit_of_mem_toDigits (by decide) (by decide) hd)
  rw [integerChars]
  split_ifs with hneg
  · have htext := IntegerText.intro .minus hne hdigits
    have hn : -1 * (placeValue (digitChars n.natAbs) : Int) = n := by
      rw [placeValue_digitChars]
      omega
    rwa [hn] at htext
  · have htext := IntegerText.intro .none hne hdigits
    have hn : 1 * (placeValue (digitChars n.natAbs) : Int) = n := by
      rw [placeValue_digitChars]
      omega
    rwa [hn] at htext

end Decimal

/-! ## Literals of the integer kinds -/

/-- the smallest and the largest number of an integer kind -/
def Kind.integerRange? : Kind → Option (Int × Int)
  | byte => some (-128, 127)
  | short => some (-32768, 32767)
  | int => some (-2147483648, 2147483647)
  | long => some (-9223372036854775808, 9223372036854775807)
  | _ => none

namespace Value

open Decimal (IntegerText)

/-- the number that a constant of an integer kind is -/
def integer? : Value → Option Int
  | byte n => some n.toInt
  | short n => some n.toInt
  | int n => some n.toInt
  | long n => some n.toInt
  | _ => none

/-- the literals of an integer kind, and the numbers that they stand for, inside the range of the kind or not -/
inductive Spells (k : Kind) : List Char → Int → Prop
  | intro {before number suffix after : List Char} {n : Int} (blanksBefore : ∀ c ∈ before, Text.isBlank c = true)
      (integer : IntegerText number n) (letters : ∀ c ∈ suffix, k = .long ∧ (c = 'l' ∨ c = 'L'))
      (blanksAfter : ∀ c ∈ after, Text.isBlank c = true) : Spells k (before ++ number ++ suffix ++ after) n

/-- the letters that may follow a number -/
def isSuffix (k : Kind) (c : Char) : Bool := k = .long && (c = 'l' || c = 'L')

theorem isSuffix_iff {k : Kind} {c : Char} : isSuffix k c = true ↔ k = .long ∧ (c = 'l' ∨ c = 'L') := by
  simp [isSuffix]

theorem not_isSuffix_of_isDigit {k : Kind} {c : Char} (h : c.isDigit = true) : isSuffix k c = false := by
  refine Bool.eq_false_iff.2 fun hsuffix => ?_
  obtain ⟨-, rfl | rfl⟩ := isSuffix_iff.1 hsuffix
  · exact absurd h (by decide)
  · exact absurd h (by decide)

theorem not_isBlank_of_isSuffix {k : Kind} {c : Char} (h : isSuffix k c = true) : Text.isBlank c = false := by
  obtain ⟨-, rfl | rfl⟩ := isSuffix_iff.1 h
  · decide
  · decide

/-- **What a literal spells is left when its ends are taken off.** -/
theorem spells_iff {k : Kind} {cs : List Char} {n : Int} :
    Spells k cs n ↔ IntegerText (Text.dropEndWhile (isSuffix k) (Text.trim cs)) n := by
  constructor
  · rintro ⟨hbefore, hnumber, hsuffix, hafter⟩
    rename_i before number suffix after
    have hsuffix : ∀ c ∈ suffix, isSuffix k c = true := fun c hc => isSuffix_iff.2 (hsuffix c hc)
    have htrimmed : Text.Trimmed (number ++ suffix) := by
      refine ⟨fun c hc => ?_, fun c hc => ?_⟩
      · obtain ⟨d, ds, rfl⟩ := List.exists_cons_of_ne_nil hnumber.ne_nil
        exact hnumber.not_isBlank_first hc
      · -- the last character is the last of the suffix if there is one
        rcases List.eq_nil_or_concat suffix with rfl | ⟨init, last, rfl⟩
        · rw [List.append_nil] at hc
          exact Text.not_isBlank_of_isDigit (hnumber.isDigit_last hc)
        · rw [List.concat_eq_append, ← List.append_assoc, List.getLast?_concat] at hc
          cases hc
          exact not_isBlank_of_isSuffix (hsuffix c (by simp))
    have htrim : Text.trim (before ++ number ++ suffix ++ after) = number ++ suffix := by
      rw [List.append_assoc before]
      exact Text.trim_append hbefore hafter htrimmed (List.append_ne_nil_of_left_ne_nil hnumber.ne_nil _)
    have hnumberOnly : Text.dropEndWhile (isSuffix k) (number ++ suffix) = number :=
      Text.dropEndWhile_append hsuffix fun c hc => not_isSuffix_of_isDigit (hnumber.isDigit_last hc)
    rw [htrim, hnumberOnly]
    exact hnumber
  · intro hnumber
    obtain ⟨before, after, hcs, hbefore, hafter⟩ := Text.exists_trim cs
    obtain ⟨suffix, htrim, hsuffix⟩ := Text.exists_dropEndWhile (isSuffix k) (Text.trim cs)
    have hspells := Spells.intro hbefore hnumber (fun c hc => isSuffix_iff.1 (hsuffix c hc)) hafter
    rwa [List.append_assoc before, ← htrim, ← hcs] at hspells

theorem Spells.unique {k : Kind} {cs : List Char} {m n : Int} (hm : Spells k cs m) (hn : Spells k cs n) : m = n := by
  have hread := Decimal.readInteger_iff.2 (spells_iff.1 hm)
  rw [Decimal.readInteger_iff.2 (spells_iff.1 hn)] at hread
  exact (Option.some.inj hread).symm

/-- the constant of an integer kind that is a number of its range -/
def ofInteger (k : Kind) (n : Int) : Value :=
  match k with
  | .byte => byte (Int8.ofInt n)
  | .short => short (Int16.ofInt n)
  | .int => int (Int32.ofInt n)
  | .long => long (Int64.ofInt n)
  | _ => null

section Range

variable {k : Kind} {low high : Int} (hk : k.integerRange? = some (low, high))

include hk

theorem integer_ofInteger {n : Int} (hlow : low ≤ n) (hhigh : n ≤ high) :
    (ofInteger k n).kind? = some k ∧ (ofInteger k n).integer? = some n := by
  cases k with
  | byte =>
    cases hk
    exact ⟨rfl, congrArg some (Int8.toInt_ofInt_of_le hlow (Int.lt_add_one_of_le hhigh))⟩
  | short =>
    cases hk
    exact ⟨rfl, congrArg some (Int16.toInt_ofInt_of_le hlow (Int.lt_add_one_of_le hhigh))⟩
  | int =>
    cases hk
    exact ⟨rfl, congrArg some (Int32.toInt_ofInt_of_le hlow (Int.lt_add_one_of_le hhigh))⟩
  | long =>
    cases hk
    exact ⟨rfl, congrArg some (Int64.toInt_ofInt_of_le hlow (Int.lt_add_one_of_le hhigh))⟩
  | _ => cases hk

theorem readTrimmed_integer (cs : List Char) :
    readTrimmed? k cs = (readWithin? low high (Text.dropEndWhile (isSuffix k) cs)).map (ofInteger k) := by
  -- kinds without suffix letters drop nothing
  have hnone : k ≠ .long → Text.dropEndWhile (isSuffix k) cs = cs := by
    intro hlong
    have hcs : Text.dropEndWhile (isSuffix k) (cs ++ []) = cs :=
      Text.dropEndWhile_append (by simp) (by simp [isSuffix, hlong])
    rwa [List.append_nil] at hcs
  cases k with
  | byte | short | int =>
    cases hk
    rw [hnone (by decide)]
    rfl
  | long =>
    cases hk
    rfl
  | _ => cases hk

/-- **A literal is read if and only if it spells a number of the range.** -/
theorem readLiteral_iff {text : String} {v : Value} : readLiteral? k text = some v ↔
    ∃ n, Spells k text.toList n ∧ low ≤ n ∧ n ≤ high ∧ ofInteger k n = v := by
  have hwithin : ∀ n, readWithin? low high (Text.dropEndWhile (isSuffix k) (Text.trim text.toList)) = some n ↔
      Spells k text.toList n ∧ low ≤ n ∧ n ≤ high := by
    intro n
    rw [readWithin?, Option.filter_eq_some_iff, Decimal.readInteger_iff, spells_iff]
    simp
  rw [readLiteral?, readTrimmed_integer hk, Option.map_eq_some_iff]
  simp only [hwithin, and_assoc]

/-- a constant of an integer kind is a number of its range, and its text spells this number -/
theorem exists_integer {v : Value} (hkind : v.kind? = some k) :
    ∃ n, Spells k v.shown.toList n ∧ low ≤ n ∧ n ≤ high ∧ ofInteger k n = v := by
  have hspells : ∀ (n : Int) (suffix : List Char), (∀ c ∈ suffix, k = .long ∧ (c = 'l' ∨ c = 'L')) →
      Spells k (Decimal.integerText n ++ String.ofList suffix).toList n := by
    intro n suffix hsuffix
    have htext : Spells k ([] ++ Decimal.integerChars n ++ suffix ++ []) n :=
      .intro (by simp) (Decimal.integerText_integerChars n) hsuffix (by simp)
    simpa [Decimal.integerText] using htext
  cases v with
  | byte m =>
    cases hkind
    cases hk
    refine ⟨m.toInt, ?_, m.le_toInt, Int.le_of_lt_add_one m.toInt_lt, congrArg byte (Int8.ofInt_toInt m)⟩
    simpa [shown] using hspells m.toInt [] (by simp)
  | short m =>
    cases hkind
    cases hk
    refine ⟨m.toInt, ?_, m.le_toInt, Int.le_of_lt_add_one m.toInt_lt, congrArg short (Int16.ofInt_toInt m)⟩
    simpa [shown] using hspells m.toInt [] (by simp)
  | int m =>
    cases hkind
    cases hk
    refine ⟨m.toInt, ?_, m.le_toInt, Int.le_of_lt_add_one m.toInt_lt, congrArg int (Int32.ofInt_toInt m)⟩
    simpa [shown] using hspells m.toInt [] (by simp)
  | long m =>
    cases hkind
    cases hk
    refine ⟨m.toInt, ?_, m.le_toInt, Int.le_of_lt_add_one m.toInt_lt, congrArg long (Int64.ofInt_toInt m)⟩
    simpa [shown] using hspells m.toInt ['L'] (by simp)
  | _ => cases hkind <;> cases hk

end Range

theorem readLiteral_shown_boolean (b : Bool) : readLiteral? .boolean (boolean b).shown = some (boolean b) := by
  cases b with
  | false => rfl
  | true => rfl

/-- **Integer literals are read exactly.** For each integer kind and every text, a constant is read if and only if the
text, up to blanks around it, is an optional sign, one or more digits and, for long integers, any number of suffix
letters, and the number meant lies in the range of the kind; the constant is then of this kind and is this number. In
particular every constant of these kinds, the smallest ones included, is read back from its text, and so are the truth
values. -/
theorem integer_literals_read_exactly :
    (∀ (k : Kind) (low high : Int), k.integerRange? = some (low, high) → ∀ text : String,
      ((∃ v, readLiteral? k text = some v) ↔ ∃ n, Spells k text.toList n ∧ low ≤ n ∧ n ≤ high) ∧
      ∀ v n, readLiteral? k text = some v → Spells k text.toList n → v.kind? = some k ∧ v.integer? = some n) ∧
    ∀ (v : Value) (k : Kind), v.kind? = some k → k = .boolean ∨ k.integerRange?.isSome = true →
      readLiteral? k v.shown = some v := by
  refine ⟨fun k low high hk text => ⟨⟨?_, ?_⟩, ?_⟩, fun v k hkind hk => ?_⟩
  · rintro ⟨v, hread⟩
    obtain ⟨n, hspells, hlow, hhigh, -⟩ := (readLiteral_iff hk).1 hread
    exact ⟨n, hspells, hlow, hhigh⟩
  · rintro ⟨n, hspells, hlow, hhigh⟩
    exact ⟨ofInteger k n, (readLiteral_iff hk).2 ⟨n, hspells, hlow, hhigh, rfl⟩⟩
  · intro v n hread hn
    obtain ⟨m, hm, hlow, hhigh, rfl⟩ := (readLiteral_iff hk).1 hread
    rw [hn.unique hm]
    exact integer_ofInteger hk hlow hhigh
  · rcases hk with rfl | hk
    · cases v with
      | boolean b => exact readLiteral_shown_boolean b
      | _ => cases hkind
    · obtain ⟨⟨low, high⟩, hk⟩ := Option.isSome_iff_exists.1 hk
      exact (readLiteral_iff hk).2 (exists_integer hk hkind)

/-- the smallest long integer, with a leading zero, two suffix letters and blanks around it -/
theorem smallest_long_read_exactly :
    (∃ v, readLiteral? .long "\t-09223372036854775808lL " = some v) ∧
      (∀ v, readLiteral? .long "\t-09223372036854775808lL " = some v → v.integer? = some (-9223372036854775808)) ∧
      readLiteral? .long (long Int64.minValue).shown = some (long Int64.minValue) := by
  obtain ⟨hgrammar, hshown⟩ := integer_literals_read_exactly
  obtain ⟨hreads, hnumber⟩ := hgrammar .long _ _ rfl "\t-09223372036854775808lL "
  have hspells : Spells .long "\t-09223372036854775808lL ".toList (-9223372036854775808) :=
    spells_iff.2 (Decimal.readInteger_iff.1 (by decide))
  refine ⟨hreads.2 ⟨_, hspells, by decide, by decide⟩, fun v hv => (hnumber v _ hv hspells).2, ?_⟩
  exact hshown _ .long rfl (Or.inr rfl)

end Value

end TestInputs
