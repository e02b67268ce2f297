import StyleObjects.Number.Shortest
import StyleObjects.Proofs.Number.Numerals

/-!
# Numbers written and read

The text of a finite number is that of a numeral with a point or a power of ten.  Its digits are
those of the shortest decimal without the zeros at the end, so it is read back as the number.
-/

namespace StyleObjects.Binary64

open Text

/-! ## Significant digits -/

/-- The digits of a decimal are its significant digits and zeros. -/
theorem exists_toDigits_eq (decimal : Decimal) :
    ∃ count, Nat.toDigits 10 decimal.digits =
      significantDigits decimal ++ List.replicate count '0' := by
  unfold significantDigits
  generalize Nat.toDigits 10 decimal.digits = digits
  have zeros : ∀ c ∈ digits.reverse.takeWhile (· == '0'), c = '0' := fun c member => by
    have zero : (c == '0') = true := List.mem_takeWhile_imp (p := (· == '0')) member
    exact beq_iff_eq.mp zero
  refine ⟨(digits.reverse.takeWhile (· == '0')).length, ?_⟩
  calc digits
      = (digits.reverse.takeWhile (· == '0') ++ digits.reverse.dropWhile (· == '0')).reverse := by
        rw [List.takeWhile_append_dropWhile, List.reverse_reverse]
    _ = (digits.reverse.dropWhile (· == '0')).reverse ++
          (digits.reverse.takeWhile (· == '0')).reverse := List.reverse_append
    _ = _ := by rw [List.eq_replicate_of_mem zeros, List.reverse_replicate, List.length_replicate]

/-- Digits that start a number: ASCII ones, the first of which is no zero. -/
structure IsLeading (digits : List Char) : Prop where
  ascii : digits.all Char.isDigit = true
  filled : digits ≠ []
  lead : digits.head? ≠ some '0'

/-- The value of a decimal by its significant digits and the power of its first one. -/
theorem decimal_value (decimal : Decimal) :
    (decimal.digits : ℚ) * 10 ^ decimal.exponent =
      digitsValue (significantDigits decimal) *
        10 ^ (decimal.magnitude + 1 - (significantDigits decimal).length) := by
  rcases exists_toDigits_eq decimal with ⟨count, whole⟩
  have ascii : (significantDigits decimal).all Char.isDigit = true :=
    all_isDigit_of_sublist (whole ▸ List.sublist_append_left _ _)
      (all_isDigit_toDigits decimal.digits)
  have digits := digitsValue_toDigits decimal.digits
  rw [whole, digitsValue_append_replicate ascii] at digits
  have power : decimal.magnitude + 1 - (significantDigits decimal).length =
      count + decimal.exponent := by
    rw [Decimal.magnitude, whole, List.length_append, List.length_replicate]
    push_cast
    ring
  rw [power, zpow_add₀ (by decide), zpow_natCast, ← digits]
  push_cast
  ring

theorem isLeading_significantDigits {decimal : Decimal} (positive : decimal.digits ≠ 0) :
    IsLeading (significantDigits decimal) := by
  rcases exists_toDigits_eq decimal with ⟨count, whole⟩
  have ascii := all_isDigit_toDigits decimal.digits
  have lead := head?_toDigits positive
  have value := digitsValue_toDigits decimal.digits
  rw [whole] at ascii lead value
  have filled : significantDigits decimal ≠ [] := by
    intro empty
    rw [empty, digitsValue_append_replicate rfl] at value
    exact positive (value.symm.trans (Nat.zero_mul _))
  rw [List.head?_append_of_ne_nil _ filled] at lead
  exact ⟨all_isDigit_of_sublist (List.sublist_append_left _ _) ascii, filled, lead⟩

/-! ## The text of a number -/

/-- A text is that of a plain numeral with a point or a power of ten, which writes a value. -/
def Writes (text : List Char) (value : ℚ) : Prop :=
  ∃ numeral : Numeral, numeral.IsPlain ∧ numeral.IsReal ∧ numeral.text = text ∧
    numeral.value = value

variable {digits : List Char}

theorem writes_positional (leading : IsLeading digits) (magnitude : Int) :
    Writes (positional digits magnitude)
      (digitsValue digits * 10 ^ (magnitude + 1 - digits.length)) := by
  rcases leading with ⟨ascii, filled, lead⟩
  unfold positional
  split
  · -- Zeros stand between the point and the digits.
    rename_i below
    generalize count : (-magnitude - 1).toNat = zeros
    have fraction : (List.replicate zeros '0' ++ digits).all Char.isDigit = true := by
      rw [List.all_append, all_isDigit_replicate, ascii, Bool.and_self]
    have some : List.replicate zeros '0' ++ digits ≠ [] := by simp [filled]
    refine ⟨⟨['0'], List.replicate zeros '0' ++ digits, false, []⟩,
      ⟨rfl, by simp, fun _ => rfl, fraction, rfl, fun _ => rfl⟩, .inl some, ?_, ?_⟩
    · simp [Numeral.text, filled]
    · have front : ['0'] ++ (List.replicate zeros '0' ++ digits) =
          List.replicate (zeros + 1) '0' ++ digits := by simp [List.replicate_succ]
      simp only [Numeral.value, front, digitsValue_replicate_append ascii, Numeral.powerValue,
        List.length_append, List.length_replicate]
      congr 2
      change (0 : Int) - ((zeros + digits.length : Nat) : Int) = _
      omega
  · -- The point stands inside the digits, or after them and zeros.
    rename_i natural
    obtain ⟨power, rfl⟩ := Int.eq_ofNat_of_zero_le (Int.not_lt.mp natural)
    simp only [Int.toNat_natCast]
    by_cases short : digits.length ≤ power + 1
    · have padded : (digits ++ List.replicate (power + 1 - digits.length) '0').length =
          power + 1 := by
        rw [List.length_append, List.length_replicate]
        omega
      rw [List.take_of_length_le padded.le, List.drop_of_length_le padded.le,
        if_pos List.isEmpty_nil]
      refine ⟨⟨digits ++ List.replicate (power + 1 - digits.length) '0', ['0'], false, []⟩,
        ⟨?_, by simp [filled], ?_, rfl, rfl, fun _ => rfl⟩, .inl (by simp), by simp [Numeral.text],
        ?_⟩
      · rw [List.all_append, ascii, all_isDigit_replicate, Bool.and_self]
      · rw [List.head?_append_of_ne_nil _ filled]
        exact fun zero => absurd zero lead
      · rw [Numeral.value_eq ascii (power + 1 - digits.length + 1)
          (by rw [List.replicate_succ', List.append_assoc])]
        congr 2
        change ((power + 1 - digits.length + 1 : Nat) : Int) + 0 - 1 = _
        omega
    · have none : power + 1 - digits.length = 0 := by omega
      have some : digits.drop (power + 1) ≠ [] := by
        rw [Ne, List.drop_eq_nil_iff]
        omega
      rw [none, List.replicate_zero, List.append_nil, if_neg (by simpa using some)]
      refine ⟨⟨digits.take (power + 1), digits.drop (power + 1), false, []⟩,
        ⟨all_isDigit_of_sublist (List.take_sublist _ _) ascii, by simp [filled], ?_,
          all_isDigit_of_sublist (List.drop_sublist _ _) ascii, rfl, fun _ => rfl⟩,
        .inl some, by simp [Numeral.text, some], ?_⟩
      · rw [List.head?_take, if_neg (by omega)]
        exact fun zero => absurd zero lead
      · rw [Numeral.value_eq ascii 0 (by simp)]
        congr 2
        simp only [List.length_drop]
        change ((0 : Nat) : Int) + 0 - ((digits.length - (power + 1) : Nat) : Int) = _
        omega

/-- The digits of a power of ten, of which there are at least two. -/
theorem powerDigits (power : Nat) :
    let digits := Nat.toDigits 10 power
    let padded := if digits.length < 2 then '0' :: digits else digits
    padded.all Char.isDigit = true ∧ padded ≠ [] ∧ digitsValue padded = power := by
  have ascii := all_isDigit_toDigits power
  dsimp only
  split
  · refine ⟨by rw [List.all_cons, ascii]; rfl, by simp, ?_⟩
    exact (digitsValue_replicate_append ascii 1).trans (digitsValue_toDigits power)
  · exact ⟨ascii, Nat.toDigits_ne_nil, digitsValue_toDigits power⟩

theorem writes_scientific (leading : IsLeading digits) (magnitude : Int) :
    Writes (scientific digits magnitude)
      (digitsValue digits * 10 ^ (magnitude + 1 - digits.length)) := by
  rcases leading with ⟨ascii, filled, lead⟩
  rcases powerDigits magnitude.natAbs with ⟨powerAscii, powered, powerValue⟩
  unfold scientific
  dsimp only
  generalize (if (Nat.toDigits 10 magnitude.natAbs).length < 2 then
    '0' :: Nat.toDigits 10 magnitude.natAbs else Nat.toDigits 10 magnitude.natAbs) = power at *
  have value : ∀ whole fraction : List Char,
      (⟨whole, fraction, decide (magnitude < 0), power⟩ : Numeral).powerValue = magnitude := by
    intro whole fraction
    simp only [Numeral.powerValue, powerValue, decide_eq_true_eq]
    split <;> omega
  match digits, filled with
  | [first], _ =>
      refine ⟨⟨[first], [], decide (magnitude < 0), power⟩,
        ⟨ascii, by simp, fun zero => absurd zero lead, rfl, powerAscii,
          fun none => absurd none powered⟩, .inr powered, by simp [Numeral.text, powered], ?_⟩
      rw [Numeral.value_eq ascii 0 rfl, value]
      simp
  | first :: second :: rest, _ =>
      have parts := ascii
      rw [List.all_cons, Bool.and_eq_true] at parts
      refine ⟨⟨[first], second :: rest, decide (magnitude < 0), power⟩,
        ⟨by simp [parts.1], by simp, fun zero => absurd zero lead, parts.2, powerAscii,
          fun none => absurd none powered⟩, .inl (by simp), by simp [Numeral.text, powered], ?_⟩
      rw [Numeral.value_eq ascii 0 (by simp), value]
      congr 2
      simp only [List.length_cons]
      push_cast
      omega

/-- The digits of a positive number write the number. -/
theorem writes_digitsText {significand : Nat} {exponent : Int}
    (normal : (finite false significand exponent).IsNormal) (filled : significand ≠ 0) :
    ∃ value, Writes (digitsText significand exponent) value ∧
      ∀ negative, nearest negative value = finite negative significand exponent := by
  have readBack := ofDecimal_shortest normal filled
  have positive : (shortest significand exponent).digits ≠ 0 := by
    intro none
    rw [none, ofDecimal, if_pos rfl, zero] at readBack
    cases readBack
    exact filled rfl
  have leading := isLeading_significantDigits positive
  rw [ofDecimal_eq, decimal_value] at readBack
  refine ⟨_, ?_, fun negative => by rw [nearest_sign, readBack]; rfl⟩
  unfold digitsText
  dsimp only
  split
  · exact writes_positional leading _
  · exact writes_scientific leading _

/-- The text of a finite number, without the sign, is that of a plain numeral with a point or a
power of ten, which is read as the number. -/
theorem exists_numeral_of_isNormal {negative : Bool} {significand : Nat} {exponent : Int}
    (normal : (finite negative significand exponent).IsNormal) :
    ∃ numeral : Numeral, numeral.IsPlain ∧ numeral.IsReal ∧
      (finiteText negative significand exponent).toList =
        (if negative then ['-'] else []) ++ numeral.text ∧
      numeral.toBinary64 negative = finite negative significand exponent := by
  by_cases empty : significand = 0
  · obtain rfl : exponent = 0 := by
      rcases normal with ⟨-, same⟩ | ⟨filled, -⟩
      · exact same
      · exact absurd empty filled
    subst empty
    refine ⟨⟨['0'], ['0'], false, []⟩,
      ⟨rfl, by simp, fun _ => rfl, rfl, rfl, fun _ => rfl⟩, .inl (by simp), ?_, rfl⟩
    cases negative <;> rfl
  · rcases writes_digitsText normal empty with
      ⟨value, ⟨numeral, plain, real, same, rfl⟩, read⟩
    refine ⟨numeral, plain, real, ?_, by rw [Numeral.toBinary64_eq, read]⟩
    rw [finiteText, if_neg empty, String.toList_ofList, same]
    cases negative <;> rfl

end StyleObjects.Binary64
