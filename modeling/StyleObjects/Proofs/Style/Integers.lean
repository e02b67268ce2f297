import StyleObjects.Proofs.Number.Integers
import StyleObjects.Proofs.Number.Numerals
import StyleObjects.Proofs.Number.Scanning
import StyleObjects.Style.Scalar

/-!
# Integers in styles

A text of digits, with or without a sign and as a number of pixels or without unit, is read as the
binary64 number nearest to the integer that it writes.  Below the limit for integers that number is
the integer itself, and it becomes an integer; from the limit on it stays a binary64 number, as
rounding takes no integer across the limit.
-/

namespace StyleObjects

open Text

/-! ## Numbers of scalars -/

namespace Scalar

/-- The limit for integers is a number of the format, in units of an eighth. -/
theorem isNormal_integerLimit (negative : Bool) :
    (Binary64.finite negative (8 * integerLimit) (-3)).IsNormal := by
  refine .inr ⟨by decide, by decide, .inl (by decide), by decide, by decide⟩

/-- The scalar of the number nearest to an integer is the integer up to the limit, and the number
from there on. -/
theorem ofNumber_nearest (negative : Bool) (value : Nat) :
    ofNumber (.nearest negative value) =
      if value < integerLimit then .integer (Binary64.signed negative value)
      else .real (.nearest negative value) := by
  split
  · rename_i small
    have exact := Binary64.toInt?_nearest_natCast negative (small.trans (by decide))
    simp only [ofNumber, exact, Binary64.natAbs_signed, small, ↓reduceIte]
  · rename_i large
    cases rounded : Binary64.nearest negative (value : ℚ) with
    | infinite | undefined => rfl
    | finite sign significand exponent =>
        have limit : ((8 * integerLimit : Nat) : ℚ) * 2 ^ (-3 : Int) = integerLimit := by
          push_cast
          ring
        have reached : ((8 * integerLimit : Nat) : ℚ) * 2 ^ (-3 : Int) ≤ value := by
          rw [limit]
          exact_mod_cast not_lt.mp large
        have bound := Binary64.le_of_nearest (isNormal_integerLimit sign) reached rounded
        unfold ofNumber
        split
        · rename_i integer found
          rcases Binary64.toInt?_eq_some_iff.mp found with ⟨magnitude, same, rfl⟩
          rw [limit, ← same] at bound
          have beyond : integerLimit ≤ magnitude := by exact_mod_cast bound
          rw [Binary64.natAbs_signed, if_neg (not_lt.mpr beyond)]
        · rfl

end Scalar

/-! ## Measures of digits -/

/-- Digits without point and power are a numeral. -/
theorem Numeral.takeUnsigned?_digits {digits : List Char} (filled : digits ≠ [])
    (decimal : digits.all isDecimalDigit = true) :
    takeUnsigned? digits = some (⟨digits, [], false, []⟩, []) := by
  simp [takeUnsigned?, takeMantissa?, takeDigits_self decimal, takePower, filled]

namespace Measure

variable {digits sign unit : List Char} {negative : Bool}

theorem withoutLineBreak_digits (filled : digits ≠ []) (decimal : digits.all isDecimalDigit = true)
    (ended : unit.getLast? ≠ some '\n') :
    withoutLineBreak (sign ++ (digits ++ unit)) = sign ++ (digits ++ unit) := by
  refine if_neg fun last => ?_
  rw [List.getLast?_append, List.getLast?_append] at last
  cases behind : unit.getLast? with
  | some c => simp_all
  | none =>
      have same := List.getLast?_eq_getLast_of_ne_nil filled
      have digit := List.all_eq_true.mp decimal _ (List.mem_of_getLast? same)
      simp only [behind, same, Option.none_or, Option.some_or, Option.some.injEq] at last
      rw [last] at digit
      exact absurd digit (by decide)

/-- Digits with a sign and a unit are read as a measure without point and power. -/
theorem read?_digits (filled : digits ≠ []) (decimal : digits.all isDecimalDigit = true)
    (signs : Numeral.WritesSign negative sign) (stop : unit.head?.any Numeral.isNumeralChar = false)
    (ended : unit.getLast? ≠ some '\n') :
    read? (String.ofList (sign ++ (digits ++ unit))) =
      some ⟨⟨negative, ⟨digits, [], false, []⟩⟩, unit⟩ := by
  have unsigned : (digits ++ unit).head?.any (['+', '-'].contains ·) = false := by
    rw [List.head?_append_of_ne_nil _ filled]
    exact Numeral.unsigned_of_all decimal
  have numeral := Numeral.takeUnsigned?_append digits stop
  rw [Numeral.takeUnsigned?_digits filled decimal] at numeral
  rw [read?, String.toList_ofList, withoutLineBreak_digits filled decimal ended,
    SignedNumeral.take?, signs.takeSign_append unsigned]
  simp only [numeral]
  rfl

end Measure

/-! ## Texts of integers -/

namespace Scalar

/-- A text of digits, with a sign or without and in pixels or without unit, is read as the integer
that it writes if that is below the limit, and as the nearest binary64 number otherwise. -/
theorem read_integer_digits {digits sign unit : List Char} {negative : Bool} (filled : digits ≠ [])
    (ascii : digits.all Char.isDigit = true) (signs : Numeral.WritesSign negative sign)
    (pixels : unit = [] ∨ unit = ['p', 'x']) :
    read (String.ofList (sign ++ (digits ++ unit))) =
      if Nat.ofDigitChars 10 digits 0 < 10 ^ 15 then
        .integer (Binary64.signed negative (Nat.ofDigitChars 10 digits 0))
      else .real (.nearest negative (Nat.ofDigitChars 10 digits 0)) := by
  have found : Measure.read? (String.ofList (sign ++ (digits ++ unit))) =
      some ⟨⟨negative, ⟨digits, [], false, []⟩⟩, unit⟩ := by
    apply Measure.read?_digits filled (all_isDecimalDigit ascii) signs
    · rcases pixels with rfl | rfl <;> decide
    · rcases pixels with rfl | rfl <;> decide
  have value : (⟨digits, [], false, []⟩ : Numeral).value = Nat.ofDigitChars 10 digits 0 := by
    rw [Numeral.value_eq ascii 0 (by simp), digitsValue_eq ascii]
    simp [Numeral.powerValue, digitsValue]
  rw [read, found]
  simp only [pixels, ↓reduceIte, SignedNumeral.toBinary64, Numeral.toBinary64_eq, value]
  exact ofNumber_nearest negative _

theorem read_integer_digits_of_limits :
    ("00999999999999999".toList ≠ [] ∧ "00999999999999999".toList.all Char.isDigit = true ∧
        Numeral.WritesSign true ['-'] ∧
        read "-00999999999999999px" = .integer (-999999999999999)) ∧
      "1000000000000000".toList ≠ [] ∧ "1000000000000000".toList.all Char.isDigit = true ∧
        Numeral.WritesSign false ['+'] ∧
        read "+1000000000000000" = .real (.finite false 8000000000000000 (-3)) := by
  have below := @read_integer_digits "00999999999999999".toList ['-'] ['p', 'x'] true (by decide)
    (by decide) .minus (.inr rfl)
  have reached := @read_integer_digits "1000000000000000".toList ['+'] [] false (by decide)
    (by decide) .plus (.inl rfl)
  have rounded : (Binary64.nearest false (Nat.ofDigitChars 10 "1000000000000000".toList 0 : ℕ)) =
      .finite false 8000000000000000 (-3) := by decide +kernel
  rw [if_pos (by decide)] at below
  rw [if_neg (by decide), rounded] at reached
  exact ⟨⟨by decide, by decide, .minus, below⟩, by decide, by decide, .plus, reached⟩

end Scalar

end StyleObjects
