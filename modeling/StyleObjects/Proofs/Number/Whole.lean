import StyleObjects.Proofs.Number.Numerals
import StyleObjects.Proofs.Number.Scanning

/-!
# Numerals read as whole texts

What a scan takes off a text as a numeral is written by the grammar of numerals, and a scan takes
all of what the grammar writes.  It is a whole number to the reader of numbers too.  The reader looks
for spacing, underscores and names of numbers as well, and a numeral has none of them, whatever the
script of its digits and however large its power.
-/

namespace StyleObjects

open Text

namespace Numeral

/-! ## What a scan takes is written -/

theorem exists_of_takeSign (cs : List Char) :
    ∃ sign, WritesSign (takeSign cs).1 sign ∧ cs = sign ++ (takeSign cs).2 := by
  unfold takeSign
  split
  · exact ⟨['-'], .minus, rfl⟩
  · exact ⟨['+'], .plus, rfl⟩
  · exact ⟨[], .absent, rfl⟩

theorem all_takeDigits (cs : List Char) : (takeDigits cs).1.all isDecimalDigit = true :=
  List.all_takeWhile

theorem takeDigits_fst_append_snd (cs : List Char) : (takeDigits cs).1 ++ (takeDigits cs).2 = cs :=
  List.takeWhile_append_dropWhile

theorem exists_of_takeMantissa? {cs rest : List Char} {parts : List Char × List Char}
    (taken : takeMantissa? cs = some (parts, rest)) :
    parts.1.all isDecimalDigit = true ∧ (parts.1 ≠ [] ∨ parts.2 ≠ []) ∧
      ∃ fraction, WritesFraction parts.2 fraction ∧ cs = parts.1 ++ (fraction ++ rest) := by
  have digits := all_takeDigits cs
  have whole := takeDigits_fst_append_snd cs
  simp only [takeMantissa?] at taken
  split at taken
  · rename_i after pointed
    split at taken
    · -- No digit follows the point, so it is left.
      split at taken <;> cases taken
      rename_i filled
      exact ⟨digits, .inl (by simpa using filled), [], .absent, whole.symm⟩
    · rename_i filled
      cases taken
      have some : (takeDigits after).1 ≠ [] := by simpa using filled
      refine ⟨digits, .inr some, _, .point some (all_takeDigits after), ?_⟩
      rw [List.cons_append, takeDigits_fst_append_snd, ← pointed, whole]
  · split at taken <;> cases taken
    rename_i filled
    exact ⟨digits, .inl (by simpa using filled), [], .absent, whole.symm⟩

theorem exists_power_of_takePower (cs : List Char) :
    ∃ power, WritesPower (takePower cs).1.1 (takePower cs).1.2 power ∧
      cs = power ++ (takePower cs).2 := by
  unfold takePower
  split
  · rename_i e rest
    dsimp only
    split
    · rename_i mark
      split
      · exact ⟨[], .absent, rfl⟩
      · rename_i filled
        have some : (takeDigits (takeSign rest).2).1 ≠ [] := by simpa using filled
        rcases exists_of_takeSign rest with ⟨sign, writes, same⟩
        refine ⟨_, .mark mark writes some (all_takeDigits _), ?_⟩
        rw [List.cons_append, List.append_assoc, takeDigits_fst_append_snd, ← same]
    · exact ⟨[], .absent, rfl⟩
  · exact ⟨[], .absent, rfl⟩

theorem exists_of_takeUnsigned? {cs rest : List Char} {numeral : Numeral}
    (taken : takeUnsigned? cs = some (numeral, rest)) :
    ∃ written, numeral.Writes written ∧ cs = written ++ rest := by
  rcases Option.map_eq_some_iff.mp taken with ⟨⟨⟨whole, digits⟩, after⟩, mantissa, same⟩
  rcases exists_of_takeMantissa? mantissa with ⟨decimal, filled, fraction, pointed, rfl⟩
  rcases exists_power_of_takePower after with ⟨power, powered, split⟩
  rw [Prod.mk.injEq] at same
  rw [← same.1, ← same.2]
  refine ⟨_, .parts decimal filled pointed powered, ?_⟩
  rw [List.append_assoc, List.append_assoc, ← split]

/-! ## What is written is taken -/

theorem takeMantissa?_of_writes {whole digits fraction rest : List Char}
    (decimal : whole.all isDecimalDigit = true) (filled : whole ≠ [] ∨ digits ≠ [])
    (writes : WritesFraction digits fraction) (stop : rest.head?.any isDecimalDigit = false)
    (other : rest.head? ≠ some '.') :
    takeMantissa? (whole ++ (fraction ++ rest)) = some ((whole, digits), rest) := by
  cases writes with
  | absent =>
      rw [List.nil_append, takeMantissa?, takeDigits_append decimal stop]
      cases rest with
      | nil => simpa using filled
      | cons c rest =>
          have unpointed : c ≠ '.' := by simpa using other
          simpa [unpointed] using filled
  | point some more =>
      have point : ('.' :: digits ++ rest).head?.any isDecimalDigit = false := rfl
      rw [takeMantissa?, takeDigits_append decimal point]
      simp [takeDigits_append more stop, some]

/-- A text is taken as a numeral as a whole if and only if it is a way to write the numeral. -/
theorem takeUnsigned?_eq_some_nil_iff {numeral : Numeral} {cs : List Char} :
    takeUnsigned? cs = some (numeral, []) ↔ numeral.Writes cs := by
  constructor
  · intro taken
    rcases exists_of_takeUnsigned? taken with ⟨written, writes, same⟩
    rwa [same, List.append_nil]
  · rintro ⟨decimal, filled, fraction, power⟩
    rcases power.head?_ne with ⟨stop, other⟩
    rw [takeUnsigned?, takeMantissa?_of_writes decimal filled fraction stop other]
    simp [power.takePower_eq]

/-! ## The characters of a numeral -/

section Characters

variable {numeral : Numeral} {cs : List Char}

theorem all_isNumeralChar_of_digits {digits : List Char}
    (decimal : digits.all isDecimalDigit = true) : digits.all isNumeralChar = true := by
  rw [List.all_eq_true] at decimal ⊢
  intro c member
  rw [isNumeralChar, decimal c member, Bool.true_or]

theorem WritesSign.all_isNumeralChar {negative : Bool} {sign : List Char}
    (writes : WritesSign negative sign) : sign.all isNumeralChar = true := by
  cases writes <;> decide

theorem WritesFraction.all_isNumeralChar {digits fraction : List Char}
    (writes : WritesFraction digits fraction) : fraction.all isNumeralChar = true := by
  cases writes with
  | absent => rfl
  | point _ decimal =>
      have point : isNumeralChar '.' = true := by decide
      rw [List.all_cons, point, all_isNumeralChar_of_digits decimal]
      rfl

theorem WritesPower.all_isNumeralChar {negative : Bool} {digits power : List Char}
    (writes : WritesPower negative digits power) : power.all isNumeralChar = true := by
  cases writes with
  | absent => rfl
  | @mark e _ _ _ mark sign _ decimal =>
      have first : isNumeralChar e = true := by rcases mark with rfl | rfl <;> decide
      rw [List.all_cons, List.all_append, first, sign.all_isNumeralChar,
        all_isNumeralChar_of_digits decimal]
      rfl

theorem Writes.all_isNumeralChar (writes : numeral.Writes cs) : cs.all isNumeralChar = true := by
  rcases writes with ⟨decimal, -, fraction, power⟩
  rw [List.all_append, List.all_append, all_isNumeralChar_of_digits decimal,
    fraction.all_isNumeralChar, power.all_isNumeralChar]
  rfl

/-- A numeral starts with a digit or with its point. -/
theorem Writes.exists_cons (writes : numeral.Writes cs) :
    ∃ first rest, cs = first :: rest ∧ (isDecimalDigit first = true ∨ first = '.') := by
  rcases writes with ⟨decimal, filled, fraction, power⟩
  cases whole : numeral.whole with
  | cons first rest =>
      rw [whole, List.all_cons, Bool.and_eq_true] at decimal
      exact ⟨first, _, rfl, .inl decimal.1⟩
  | nil =>
      have pointed := filled.resolve_left (absurd whole)
      generalize numeral.fraction = digits at fraction pointed
      cases fraction with
      | absent => exact absurd rfl pointed
      | point => exact ⟨'.', _, rfl, .inr rfl⟩

end Characters

end Numeral

open Numeral (isNumeralChar)

/-! ## The reader of whole texts -/

namespace Number

theorem withoutSpacing_of_all {cs : List Char} (tight : ∀ c ∈ cs, isSpacing c = false) :
    withoutSpacing cs = cs := by
  have start : ∀ {cs : List Char}, (∀ c ∈ cs, isSpacing c = false) → cs.dropWhile isSpacing = cs := by
    intro cs tight
    cases cs with
    | nil => rfl
    | cons c cs => rw [List.dropWhile_cons, tight c List.mem_cons_self]; rfl
  rw [withoutSpacing, start tight, start fun c member => tight c (List.mem_reverse.mp member),
    List.reverse_reverse]

theorem withoutUnderscores?_of_not_mem {cs : List Char} (free : '_' ∉ cs) (afterDigit : Bool) :
    withoutUnderscores? afterDigit cs = some cs := by
  induction cs generalizing afterDigit with
  | nil => rfl
  | cons c cs ih =>
      rw [List.mem_cons, not_or] at free
      rw [withoutUnderscores?, if_neg (Ne.symm free.1), ih free.2]
      rfl

theorem withoutSpacing_of_all_isNumeralChar {cs : List Char} (chars : cs.all isNumeralChar = true) :
    withoutSpacing cs = cs :=
  withoutSpacing_of_all fun c member => by
    rw [isSpacing, Numeral.isBlank_of_isNumeralChar (List.all_eq_true.mp chars c member),
      Bool.false_and]

theorem withoutUnderscores?_of_all_isNumeralChar {cs : List Char}
    (chars : cs.all isNumeralChar = true) (afterDigit : Bool) :
    withoutUnderscores? afterDigit cs = some cs :=
  withoutUnderscores?_of_not_mem (fun member => by cases List.all_eq_true.mp chars _ member) _

/-- No name of a number starts with a character of a numeral, letter case aside. -/
theorem toLower_of_isNumeralChar {c : Char} (spells : isNumeralChar c = true) :
    c.toLower ≠ 'i' ∧ c.toLower ≠ 'n' := by
  by_cases ascii : c.toNat < 128
  · have checked : ∀ code < 128, isNumeralChar (Char.ofNat code) = true →
        (Char.ofNat code).toLower ≠ 'i' ∧ (Char.ofNat code).toLower ≠ 'n' := by decide
    have known := checked c.toNat ascii
    rw [Char.ofNat_toNat] at known
    exact known spells
  · have same : c.toLower = c := by
      refine dif_neg fun within => ascii ?_
      have most : c.toNat ≤ 'Z'.toNat := within.2
      exact most.trans_lt (by decide)
    rw [same]
    constructor <;> (rintro rfl; exact ascii (by decide))

/-- A word that starts with a character of a numeral names no number. -/
theorem readWord?_of_isNumeralChar (negative : Bool) {first : Char}
    (spells : isNumeralChar first = true) (rest : List Char) :
    readWord? negative (first :: rest) = none := by
  rcases toLower_of_isNumeralChar spells with ⟨infinite, undefined⟩
  have start : ∀ word, String.ofList ((first :: rest).map Char.toLower) = word →
      word.toList.head? = some first.toLower := by
    intro word same
    rw [← same, String.toList_ofList, List.map_cons, List.head?_cons]
  simp only [readWord?]
  rw [if_neg, if_neg]
  · intro same
    exact undefined (Option.some.inj (start _ same)).symm
  · rintro (same | same) <;> exact infinite (Option.some.inj (start _ same)).symm

/-- However a signed numeral is written, it is read back. -/
theorem readReal?_of_writes {negative : Bool} {numeral : Numeral} {sign cs : List Char}
    (signs : Numeral.WritesSign negative sign) (writes : numeral.Writes cs) :
    readReal? (String.ofList (sign ++ cs)) = some (numeral.toBinary64 negative) := by
  have chars : (sign ++ cs).all isNumeralChar = true := by
    rw [List.all_append, signs.all_isNumeralChar, writes.all_isNumeralChar]
    rfl
  rcases writes.exists_cons with ⟨first, rest, same, start⟩
  have unsigned : cs.head?.any (['+', '-'].contains ·) = false := by
    subst same
    rcases start with digit | rfl
    · have single : [first].all isDecimalDigit = true := by rw [List.all_cons, digit]; rfl
      have unsigned := Numeral.unsigned_of_all single
      exact unsigned
    · rfl
  have spells : isNumeralChar first = true := by
    have all := writes.all_isNumeralChar
    rw [same, List.all_cons, Bool.and_eq_true] at all
    exact all.1
  rw [readReal?, String.toList_ofList, withoutSpacing_of_all_isNumeralChar chars,
    withoutUnderscores?_of_all_isNumeralChar chars, Option.bind_some,
    signs.takeSign_append unsigned]
  dsimp only
  rw [same, readWord?_of_isNumeralChar negative spells, ← same, readUnsigned?_of_writes writes]
  rfl

/-! ## Integers -/

/-- A text of digits is read as the integer that it writes, unless it has too many digits. -/
theorem readInteger?_digits {digits : List Char} (filled : digits ≠ [])
    (ascii : digits.all Char.isDigit = true) :
    readInteger? (String.ofList digits) =
      if digits.length ≤ maxIntegerDigits then some (Nat.ofDigitChars 10 digits 0 : Int)
      else none := by
  have decimal := all_isDecimalDigit ascii
  have chars := Numeral.all_isNumeralChar_of_digits decimal
  have unsigned := Numeral.WritesSign.absent.takeSign_append (Numeral.unsigned_of_all decimal)
  rw [List.nil_append] at unsigned
  have some : digits.isEmpty = false := List.isEmpty_eq_false_iff.mpr filled
  rw [readInteger?, String.toList_ofList, withoutSpacing_of_all_isNumeralChar chars, unsigned]
  simp only [withoutUnderscores?_of_all_isNumeralChar chars, Option.bind_some, some, decimal,
    digitsValue_eq ascii]
  by_cases few : digits.length ≤ maxIntegerDigits
  · simp [few, not_lt.mpr few]
  · simp [few, not_le.mp few]

/-- The decimal text of a number is read as the number, unless it has too many digits. -/
theorem readInteger?_toString (value : Nat) :
    readInteger? (toString value) =
      if value < 10 ^ maxIntegerDigits then some (value : Int) else none := by
  have spelled : toString value = String.ofList (Nat.toDigits 10 value) := by
    rw [← String.toList_inj, String.toList_ofList, Nat.toString_eq_repr, Nat.toList_repr]
  have few := Nat.length_toDigits_le_iff (n := value) (show 1 < 10 by decide)
    (show 0 < maxIntegerDigits by decide)
  rw [spelled, readInteger?_digits Nat.toDigits_ne_nil (all_isDigit_toDigits value),
    Nat.ofDigitChars_ten_toDigits]
  simp only [few]

end Number

/-- What is taken off a text as a signed numeral is a number as a whole text too. -/
theorem SignedNumeral.readReal?_of_take? {cs rest : List Char} {signed : SignedNumeral}
    (taken : take? cs = some (signed, rest)) :
    ∃ written, cs = written ++ rest ∧
      Number.readReal? (String.ofList written) = some signed.toBinary64 := by
  rcases Option.map_eq_some_iff.mp taken with ⟨⟨numeral, after⟩, unsigned, same⟩
  rcases Numeral.exists_of_takeSign cs with ⟨sign, signs, split⟩
  rcases Numeral.exists_of_takeUnsigned? unsigned with ⟨written, writes, others⟩
  rw [Prod.mk.injEq] at same
  rw [← same.1, ← same.2]
  refine ⟨sign ++ written, ?_, Number.readReal?_of_writes signs writes⟩
  rw [List.append_assoc]
  exact split.trans (congrArg (sign ++ ·) others)

end StyleObjects
