import StyleObjects.Number.Shortest
import StyleObjects.Proofs.Number.Rounding

/-!
# Decimals

A decimal is read as the number nearest to its value; the powers of ten that are not computed
overflow or vanish, as they would if they were computed.  The shortest decimal of a number is read
back as the number.
-/

namespace StyleObjects.Binary64

/-! ## Reading a decimal -/

theorem zpow_ten_pos (exponent : Int) : (0 : ℚ) < 10 ^ exponent := zpow_pos (by decide) exponent

theorem two_pow_le_ten_zpow {exponent : Int} (natural : 0 ≤ exponent) :
    (2 : ℚ) ^ (3 * exponent) ≤ 10 ^ exponent := by
  rw [zpow_mul]
  exact zpow_le_zpow_left₀ natural (by norm_num) (by norm_num)

/-- A decimal is read as the number nearest to its value. -/
theorem ofDecimal_eq (negative : Bool) (mantissa : Nat) (exponent : Int) :
    ofDecimal negative mantissa exponent = nearest negative (mantissa * 10 ^ exponent) := by
  unfold ofDecimal
  by_cases none : mantissa = 0
  · simp [none, nearest]
  · have least : (1 : ℚ) ≤ mantissa := by exact_mod_cast Nat.one_le_iff_ne_zero.mpr none
    have positive : (0 : ℚ) < mantissa * 10 ^ exponent :=
      mul_pos (lt_of_lt_of_le one_pos least) (zpow_ten_pos exponent)
    rw [if_neg none]
    split
    · rename_i large
      symm
      apply nearest_eq_infinite
      calc (2 : ℚ) ^ (1024 : Int) ≤ 2 ^ (3 * exponent) :=
            zpow_le_zpow_right₀ (by decide) (by omega)
        _ ≤ 10 ^ exponent := two_pow_le_ten_zpow (by omega)
        _ ≤ mantissa * 10 ^ exponent := le_mul_of_one_le_left (zpow_ten_pos exponent).le least
    · split
      · rename_i small
        symm
        apply nearest_eq_zero negative positive
        have below : (mantissa : ℚ) < 2 ^ ((mantissa.log2 : Int) + 1) := by
          exact_mod_cast Nat.lt_log2_self
        have power : (10 : ℚ) ^ exponent ≤ 2 ^ (3 * exponent) := by
          have inverse : (2 : ℚ) ^ (3 * -exponent) ≤ 10 ^ (-exponent) :=
            two_pow_le_ten_zpow (by omega)
          rw [mul_neg, zpow_neg, zpow_neg] at inverse
          exact (inv_le_inv₀ (zpow_two_pos _) (zpow_ten_pos _)).mp inverse
        calc (mantissa : ℚ) * 10 ^ exponent
            < 2 ^ ((mantissa.log2 : Int) + 1) * 2 ^ (3 * exponent) :=
              mul_lt_mul_of_pos_of_nonneg' below power (zpow_ten_pos _) (zpow_two_pos _).le
          _ = 2 ^ ((mantissa.log2 : Int) + 1 + 3 * exponent) := (zpow_add₀ (by decide) _ _).symm
          _ ≤ 2 ^ (-1075 : Int) := zpow_le_zpow_right₀ (by decide) (by omega)
      · split
        · rename_i natural
          obtain ⟨power, rfl⟩ := Int.eq_ofNat_of_zero_le natural
          rw [ofQuotient_eq negative _ Nat.one_pos]
          congr 1
          simp
        · rename_i fraction
          obtain ⟨power, same⟩ := Int.eq_ofNat_of_zero_le (by omega : 0 ≤ -exponent)
          obtain rfl : exponent = -(power : Int) := by omega
          rw [Nat.pow_eq, ofQuotient_eq negative _ (Nat.pow_pos (by decide))]
          congr 1
          simp [div_eq_mul_inv]

/-! ## The shortest decimal -/

theorem roundQuotient_cases (numerator denominator : Nat) :
    roundQuotient numerator denominator = numerator / denominator ∨
      roundQuotient numerator denominator = numerator / denominator + 1 := by
  unfold roundQuotient
  dsimp only
  split
  · exact .inr rfl
  · exact .inl rfl

/-- A decimal that is found on a grid is read back as the number. -/
theorem ofDecimal_of_onGrid? {number : Binary64} {numerator denominator : Nat} {exponent : Int}
    {decimal : Decimal} (found : onGrid? number numerator denominator exponent = some decimal) :
    ofDecimal false decimal.digits decimal.exponent = number := by
  unfold onGrid? at found
  dsimp only at found
  generalize numerator * (scaledByTen 1 exponent).2 = top at found
  generalize denominator * (scaledByTen 1 exponent).1 = bottom at found
  split at found
  · rename_i below above
    rw [decide_eq_true_eq] at below above
    cases found
    rcases roundQuotient_cases top bottom with same | same
    · rw [same, below]
    · rw [same, above]
  · rename_i below _
    rw [decide_eq_true_eq] at below
    cases found
    exact below
  · rename_i _ above
    rw [decide_eq_true_eq] at above
    cases found
    exact above
  · cases found

/-- All digits of a number are read back as the number. -/
theorem ofDecimal_allDigits {significand : Nat} {exponent : Int}
    (normal : (finite false significand exponent).IsNormal) (filled : significand ≠ 0) :
    ofDecimal false (allDigits significand exponent).digits
      (allDigits significand exponent).exponent = finite false significand exponent := by
  have exact : ((allDigits significand exponent).digits : ℚ) *
      10 ^ (allDigits significand exponent).exponent = significand * 2 ^ exponent := by
    unfold allDigits
    split
    · rename_i natural
      obtain ⟨power, rfl⟩ := Int.eq_ofNat_of_zero_le natural
      simp
    · rename_i fraction
      obtain ⟨power, same⟩ := Int.eq_ofNat_of_zero_le (by omega : 0 ≤ -exponent)
      obtain rfl : exponent = -(power : Int) := by omega
      have ten : (10 : ℚ) ^ power = 5 ^ power * 2 ^ power := by
        rw [← mul_pow]
        norm_num
      simp only [neg_neg, Int.toNat_natCast, Nat.pow_eq, Nat.cast_mul, Nat.cast_pow, zpow_neg,
        zpow_natCast, Nat.cast_ofNat, ten]
      field_simp
  rw [ofDecimal_eq, exact, nearest_of_isNormal normal filled]

/-- The shortest decimal of a number is read back as the number. -/
theorem ofDecimal_shortest {significand : Nat} {exponent : Int}
    (normal : (finite false significand exponent).IsNormal) (filled : significand ≠ 0) :
    ofDecimal false (shortest significand exponent).digits
      (shortest significand exponent).exponent = finite false significand exponent := by
  unfold shortest
  dsimp only
  generalize search : (List.range 17).findSome? _ = found
  cases found with
  | none => exact ofDecimal_allDigits normal filled
  | some decimal =>
      rcases List.exists_of_findSome?_eq_some search with ⟨places, -, placed⟩
      exact ofDecimal_of_onGrid? placed

end StyleObjects.Binary64
