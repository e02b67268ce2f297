import Mathlib.Data.List.TakeWhile
import StyleObjects.Number.Reading
import StyleObjects.Proofs.Number.Decimal

/-!
# Numerals written and read

A numeral of ASCII digits is read back as the numeral, whether it has a point and a power of ten or
not.  Zeros at the end of its digits go into the power.
-/

namespace StyleObjects

/-! ## Digits -/

namespace Text

variable {digits : List Char}

theorem digitValue?_of_isDigit {c : Char} (digit : c.isDigit = true) :
    digitValue? c = some (c.toNat - 48) := by
  rw [Char.isDigit_iff_toNat] at digit
  have first : '0'.toNat = 48 := rfl
  have last : '9'.toNat = 57 := rfl
  simp only [digitValue?]
  rw [if_pos (by omega), if_pos (by omega)]

theorem isDecimalDigit_of_isDigit {c : Char} (digit : c.isDigit = true) :
    isDecimalDigit c = true := by
  rw [isDecimalDigit, digitValue?_of_isDigit digit]
  rfl

theorem all_isDecimalDigit (ascii : digits.all Char.isDigit = true) :
    digits.all isDecimalDigit = true :=
  List.all_eq_true.mpr fun c member =>
    isDecimalDigit_of_isDigit (List.all_eq_true.mp ascii c member)

/-- ASCII digits write the number that they write for the standard library. -/
theorem digitsValue_eq (ascii : digits.all Char.isDigit = true) :
    digitsValue digits = Nat.ofDigitChars 10 digits 0 := by
  have same : ∀ value, digits.foldl (fun value c => 10 * value + (digitValue? c).getD 0) value =
      digits.foldl (fun value c => 10 * value + (c.toNat - '0'.toNat)) value := by
    induction digits with
    | nil => exact fun _ => rfl
    | cons c digits ih =>
        rw [List.all_cons, Bool.and_eq_true] at ascii
        intro value
        rw [List.foldl_cons, List.foldl_cons, digitValue?_of_isDigit ascii.1]
        exact ih ascii.2 _
  rw [digitsValue, Nat.ofDigitChars_eq_foldl]
  exact same 0

theorem all_isDigit_toDigits (value : Nat) : (Nat.toDigits 10 value).all Char.isDigit = true :=
  List.all_eq_true.mpr fun _ member =>
    Nat.isDigit_of_mem_toDigits (by decide) (by decide) member

theorem digitsValue_toDigits (value : Nat) : digitsValue (Nat.toDigits 10 value) = value := by
  rw [digitsValue_eq (all_isDigit_toDigits value), Nat.ofDigitChars_ten_toDigits]

/-- The digits of a positive number start with no zero. -/
theorem head?_toDigits {value : Nat} (positive : value ≠ 0) :
    (Nat.toDigits 10 value).head? ≠ some '0' := by
  induction value using Nat.strong_induction_on with
  | _ value ih =>
      rw [Nat.toDigits_eq_if (by decide)]
      split
      · simpa using positive
      · rename_i large
        rw [List.head?_append_of_ne_nil _ Nat.toDigits_ne_nil]
        exact ih _ (by omega) (by omega)

theorem all_isDigit_replicate (count : Nat) :
    (List.replicate count '0').all Char.isDigit = true := by
  simp [List.all_replicate]

theorem all_isDigit_of_sublist {part : List Char} (inside : part.Sublist digits)
    (ascii : digits.all Char.isDigit = true) : part.all Char.isDigit = true :=
  List.all_eq_true.mpr fun c member => List.all_eq_true.mp ascii c (inside.subset member)

/-- Zeros at the end of digits multiply what they write. -/
theorem digitsValue_append_replicate (ascii : digits.all Char.isDigit = true) (count : Nat) :
    digitsValue (digits ++ List.replicate count '0') = digitsValue digits * 10 ^ count := by
  rw [digitsValue_eq (by rw [List.all_append, ascii, all_isDigit_replicate]; rfl),
    digitsValue_eq ascii, Nat.ofDigitChars_append, Nat.ofDigitChars_replicate_zero, mul_comm]

/-- Zeros in front of digits do not change what they write. -/
theorem digitsValue_replicate_append (ascii : digits.all Char.isDigit = true) (count : Nat) :
    digitsValue (List.replicate count '0' ++ digits) = digitsValue digits := by
  rw [digitsValue_eq (by rw [List.all_append, ascii, all_isDigit_replicate]; rfl),
    digitsValue_eq ascii, Nat.ofDigitChars_append, Nat.ofDigitChars_replicate_zero, mul_zero]

end Text

/-! ## Numerals -/

namespace Numeral

open Text

variable {numeral : Numeral}

/-- What a numeral writes. -/
def value (numeral : Numeral) : ℚ :=
  digitsValue (numeral.whole ++ numeral.fraction) *
    10 ^ (numeral.powerValue - numeral.fraction.length)

theorem value_nonneg (numeral : Numeral) : 0 ≤ numeral.value :=
  mul_nonneg (Nat.cast_nonneg _) (Binary64.zpow_ten_pos _).le

/-- A numeral is read as the number nearest to what it writes. -/
theorem toBinary64_eq (numeral : Numeral) (negative : Bool) :
    numeral.toBinary64 negative = .nearest negative numeral.value :=
  Binary64.ofDecimal_eq negative _ _

/-- What a numeral writes whose digits are given ones and zeros. -/
theorem value_eq {digits : List Char} (ascii : digits.all Char.isDigit = true) (zeros : Nat)
    (same : numeral.whole ++ numeral.fraction = digits ++ List.replicate zeros '0') :
    numeral.value =
      digitsValue digits * 10 ^ (zeros + numeral.powerValue - numeral.fraction.length) := by
  rw [value, same, digitsValue_append_replicate ascii, add_sub_assoc, zpow_add₀ (by decide),
    zpow_natCast]
  push_cast
  ring

/-- The text of a numeral. -/
def text (numeral : Numeral) : List Char :=
  numeral.whole ++ ((if numeral.fraction = [] then [] else '.' :: numeral.fraction) ++
    if numeral.power = [] then []
    else 'e' :: (if numeral.powerNegative then '-' else '+') :: numeral.power)

/-- The digits are ASCII, a zero in front of the point stands alone, and there is no sign of a power
of ten without the power. -/
structure IsPlain (numeral : Numeral) : Prop where
  whole : numeral.whole.all Char.isDigit = true
  filled : numeral.whole ≠ []
  lead : numeral.whole.head? = some '0' → numeral.whole = ['0']
  fraction : numeral.fraction.all Char.isDigit = true
  power : numeral.power.all Char.isDigit = true
  unsigned : numeral.power = [] → numeral.powerNegative = false

/-- There is a point or a power of ten. -/
def IsReal (numeral : Numeral) : Prop :=
  numeral.fraction ≠ [] ∨ numeral.power ≠ []

theorem takeDigits_append {digits rest : List Char} (decimal : digits.all isDecimalDigit = true)
    (stop : rest.head?.any isDecimalDigit = false) : takeDigits (digits ++ rest) = (digits, rest) := by
  rw [List.all_eq_true] at decimal
  rw [takeDigits, List.takeWhile_append_of_pos decimal, List.dropWhile_append_of_pos decimal]
  cases rest with
  | nil => simp
  | cons c rest =>
      have stop : isDecimalDigit c = false := stop
      simp [stop]

theorem takeDigits_self {digits : List Char} (decimal : digits.all isDecimalDigit = true) :
    takeDigits digits = (digits, []) := by
  have whole := takeDigits_append decimal (rfl : ([] : List Char).head?.any isDecimalDigit = false)
  rwa [List.append_nil] at whole

/-! ## The ways to write a numeral -/

/-- The ways to write a sign. -/
inductive WritesSign : Bool → List Char → Prop where
  | absent : WritesSign false []
  | plus : WritesSign false ['+']
  | minus : WritesSign true ['-']

/-- A sign is taken before a text that has none of its own. -/
theorem WritesSign.takeSign_append {negative : Bool} {sign rest : List Char}
    (writes : WritesSign negative sign)
    (unsigned : rest.head?.any (['+', '-'].contains ·) = false) :
    takeSign (sign ++ rest) = (negative, rest) := by
  cases writes with
  | plus | minus => rfl
  | absent =>
      rw [List.nil_append]
      unfold takeSign
      split <;> first | rfl | cases unsigned

/-- A text of digits has no sign of its own. -/
theorem unsigned_of_all {digits : List Char} (decimal : digits.all isDecimalDigit = true) :
    digits.head?.any (['+', '-'].contains ·) = false := by
  cases digits with
  | nil => rfl
  | cons c digits =>
      rw [List.all_cons, Bool.and_eq_true] at decimal
      refine Bool.eq_false_iff.mpr fun sign => ?_
      have signs : ['+', '-'].all (!isDecimalDigit ·) = true := by decide
      have other := List.all_eq_true.mp signs c (List.contains_iff_mem.mp sign)
      rw [decimal.1] at other
      cases other

/-- The ways to write the digits after the point. -/
inductive WritesFraction : List Char → List Char → Prop where
  | absent : WritesFraction [] []
  | point {digits : List Char} : digits ≠ [] → digits.all isDecimalDigit = true →
      WritesFraction digits ('.' :: digits)

/-- The ways to write a power of ten with its sign and its digits. -/
inductive WritesPower : Bool → List Char → List Char → Prop where
  | absent : WritesPower false [] []
  | mark {e : Char} {negative : Bool} {sign digits : List Char} : e = 'e' ∨ e = 'E' →
      WritesSign negative sign → digits ≠ [] → digits.all isDecimalDigit = true →
      WritesPower negative digits (e :: (sign ++ digits))

/-- The ways to write a numeral: digits before the point or after it, and a power of ten. -/
inductive Writes : Numeral → List Char → Prop where
  | parts {numeral : Numeral} {fraction power : List Char} :
      numeral.whole.all isDecimalDigit = true → numeral.whole ≠ [] ∨ numeral.fraction ≠ [] →
      WritesFraction numeral.fraction fraction →
      WritesPower numeral.powerNegative numeral.power power →
      Writes numeral (numeral.whole ++ (fraction ++ power))

theorem WritesPower.takePower_eq {negative : Bool} {digits power : List Char}
    (writes : WritesPower negative digits power) : takePower power = ((negative, digits), []) := by
  cases writes with
  | absent => rfl
  | mark mark sign filled decimal =>
      simp [takePower, mark, sign.takeSign_append (unsigned_of_all decimal),
        takeDigits_self decimal, filled]

/-- No digit and no point starts a power of ten. -/
theorem WritesPower.head?_ne {negative : Bool} {digits power : List Char}
    (writes : WritesPower negative digits power) :
    power.head?.any isDecimalDigit = false ∧ power.head? ≠ some '.' := by
  cases writes with
  | absent => exact ⟨rfl, by simp⟩
  | mark mark => rcases mark with rfl | rfl <;> exact ⟨rfl, by simp⟩

theorem IsPlain.writes {numeral : Numeral} (plain : numeral.IsPlain) :
    Writes numeral numeral.text := by
  refine .parts (all_isDecimalDigit plain.whole) (.inl plain.filled) ?_ ?_
  · split
    · rename_i empty
      rw [empty]
      exact .absent
    · exact .point ‹_› (all_isDecimalDigit plain.fraction)
  · split
    · rename_i empty
      rw [empty, plain.unsigned empty]
      exact .absent
    · have digits := all_isDecimalDigit plain.power
      cases numeral.powerNegative with
      | false => exact .mark (.inl rfl) .plus ‹_› digits
      | true => exact .mark (.inl rfl) .minus ‹_› digits

end Numeral

/-- However a numeral is written, it is read back. -/
theorem Number.readUnsigned?_of_writes {numeral : Numeral} {cs : List Char}
    (writes : numeral.Writes cs) (negative : Bool) :
    readUnsigned? negative cs = some (numeral.toBinary64 negative) := by
  rcases numeral with ⟨whole, digits, down, exponent⟩
  rcases writes with ⟨decimal, filled, fraction, power⟩
  rename_i pointed powered
  rcases power.head?_ne with ⟨stop, other⟩
  have taken := power.takePower_eq
  dsimp only at *
  cases fraction with
  | absent =>
      rw [List.nil_append, readUnsigned?, Numeral.takeDigits_append decimal stop]
      cases powered with
      | nil =>
          cases taken
          simpa [Numeral.takePower] using filled
      | cons c powered =>
          have unpointed : c ≠ '.' := by simpa using other
          simpa [unpointed, taken] using filled
  | point some more =>
      have point : ('.' :: digits ++ powered).head?.any Text.isDecimalDigit = false := rfl
      rw [readUnsigned?, Numeral.takeDigits_append decimal point]
      simp only [List.cons_append, Numeral.takeDigits_append more stop, taken]
      simp [some]

end StyleObjects
