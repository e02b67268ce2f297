import StyleObjects.Proofs.Number.Rounding

/-!
# Integers as binary64 numbers

A finite number is an integer if its value is one.  Integers below `2 ^ 53` are numbers of the
format, so they are their own nearest numbers.  Rounding never takes a value below a number of the
format that the value reaches.
-/

namespace StyleObjects.Binary64

/-- A natural number with a sign. -/
def signed (negative : Bool) (value : Nat) : Int :=
  if negative then -value else value

theorem natAbs_signed (negative : Bool) (value : Nat) : (signed negative value).natAbs = value := by
  cases negative <;> simp [signed]

/-- A finite number is an integer if and only if its value is. -/
theorem toInt?_eq_some_iff {negative : Bool} {significand : Nat} {exponent value : Int} :
    (finite negative significand exponent).toInt? = some value ↔
      ∃ magnitude : Nat, (magnitude : ℚ) = significand * 2 ^ exponent ∧
        value = signed negative magnitude := by
  have divisor := scaled_pos significand exponent
  have ratio := scaled_ratio significand exponent
  have some : ((scaled significand exponent).2 : ℚ) ≠ 0 := by exact_mod_cast divisor.ne'
  rw [div_eq_iff some] at ratio
  have whole (magnitude : Nat) : (magnitude : ℚ) = significand * 2 ^ exponent ↔
      (scaled significand exponent).1 = magnitude * (scaled significand exponent).2 := by
    rw [← mul_left_inj' some, ← ratio, eq_comm]
    exact_mod_cast Iff.rfl
  simp only [toInt?, truncate?, whole]
  constructor
  · intro found
    split at found
    · rename_i exact
      refine ⟨_, (Nat.div_mul_cancel (Nat.dvd_of_mod_eq_zero exact)).symm, ?_⟩
      exact (Option.some.inj found).symm
    · cases found
  · rintro ⟨magnitude, same, rfl⟩
    rw [same, Nat.mul_mod_left, if_pos rfl, Nat.mul_div_cancel _ divisor]
    rfl

/-! ## Integers of the format -/

/-- A natural number below `2 ^ 53` is its own nearest number. -/
theorem toInt?_nearest_natCast (negative : Bool) {value : Nat} (small : value < 2 ^ 53) :
    (nearest negative value).toInt? = some (signed negative value) := by
  by_cases none : value = 0
  · subst none
    cases negative <;> decide +kernel
  · -- The significand has all its places, so the exponent is the one of the last place.
    have length := (Nat.log2_lt none).mpr small
    obtain ⟨places, full⟩ := Nat.exists_eq_add_of_le (by omega : value.log2 ≤ 52)
    have least : 2 ^ 52 ≤ value * 2 ^ places := by
      rw [full, pow_add]
      exact Nat.mul_le_mul_right _ (Nat.log2_self_le none)
    have most : value * 2 ^ places < 2 ^ 53 :=
      calc value * 2 ^ places < 2 ^ (value.log2 + 1) * 2 ^ places :=
            Nat.mul_lt_mul_of_pos_right Nat.lt_log2_self (Nat.two_pow_pos places)
        _ = 2 ^ 53 := by
            rw [← pow_add]
            congr 1
            omega
    have normal : (finite negative (value * 2 ^ places) (-places)).IsNormal := by
      refine .inr ⟨by omega, most, .inl least, ?_, ?_⟩ <;>
        simp only [minExponent, maxExponent] <;> omega
    have exact : ((value * 2 ^ places : Nat) : ℚ) * 2 ^ (-(places : Int)) = value := by
      rw [Nat.cast_mul, Nat.cast_pow, Nat.cast_ofNat, zpow_neg, zpow_natCast]
      field_simp
    have rounded := nearest_of_isNormal normal (by omega)
    rw [exact] at rounded
    rw [rounded, toInt?_eq_some_iff]
    exact ⟨value, exact.symm, rfl⟩

/-! ## Lower bounds -/

/-- The value of a rounded number, in units of the last place of the value. -/
theorem value_of_nearest {negative sign : Bool} {significand : Nat} {exponent : Int} {value : ℚ}
    (rounded : nearest negative value = finite sign significand exponent) {unit : Int}
    (last : unit = max (Int.log 2 value - 52) minExponent) :
    (significand : ℚ) * 2 ^ exponent = roundEven (value / 2 ^ unit) * 2 ^ unit := by
  unfold nearest zero at rounded
  simp only [← last] at rounded
  split at rounded
  · rename_i none
    cases rounded
    simp [none, roundEven]
  · split at rounded
    · rename_i none
      cases rounded
      simp [none]
    · by_cases carried : roundEven (value / 2 ^ unit) = Nat.pow 2 53
      · -- A carry moves one place from the significand to the exponent.
        simp only [carried, ↓reduceIte] at rounded
        split at rounded
        · cases rounded
        · cases rounded
          rw [carried, zpow_add₀ (by decide), zpow_one]
          simp only [Nat.pow_eq, Nat.cast_pow, Nat.cast_ofNat]
          ring
      · simp only [carried, ↓reduceIte] at rounded
        split at rounded
        · cases rounded
        · cases rounded
          rfl

/-- A value that reaches a number of the format is not rounded to a smaller one. -/
theorem le_of_nearest {negative sign : Bool} {significand least : Nat} {exponent place : Int}
    {value : ℚ} (normal : (finite sign least place).IsNormal)
    (reached : (least : ℚ) * 2 ^ place ≤ value)
    (rounded : nearest negative value = finite sign significand exponent) :
    (least : ℚ) * 2 ^ place ≤ significand * 2 ^ exponent := by
  rcases normal with ⟨rfl, -⟩ | ⟨filled, below, -, lowest, -⟩
  · rw [Nat.cast_zero, zero_mul]
    exact mul_nonneg (Nat.cast_nonneg _) (zpow_two_pos exponent).le
  · have some : (0 : ℚ) < least := by exact_mod_cast Nat.pos_of_ne_zero filled
    have positive : 0 < value := (mul_pos some (zpow_two_pos place)).trans_le reached
    rw [value_of_nearest rounded rfl]
    generalize last : max (Int.log 2 value - 52) minExponent = unit
    have power := zpow_two_pos unit
    rcases le_or_gt unit place with coarse | fine
    · -- The number is a whole count of the units to which the value is rounded.
      obtain ⟨places, rfl⟩ := Int.le.dest coarse
      rw [zpow_add₀ (by decide), zpow_natCast, mul_left_comm, mul_comm] at reached ⊢
      rw [← le_div_iff₀ power] at reached
      refine mul_le_mul_of_nonneg_right ?_ power.le
      exact_mod_cast le_roundEven (by exact_mod_cast reached)
    · have full : 2 ^ 52 ≤ roundEven (value / 2 ^ unit) := by
        apply le_roundEven
        exact_mod_cast (unit_bounds positive last.symm).2 (lowest.trans_lt fine).ne'
      calc (least : ℚ) * 2 ^ place ≤ 2 ^ 53 * 2 ^ place := by
            gcongr
            exact_mod_cast below.le
        _ = 2 ^ 52 * 2 ^ (place + 1) := by
            rw [zpow_add₀ (by decide), zpow_one]
            ring
        _ ≤ roundEven (value / 2 ^ unit) * 2 ^ unit := by
            gcongr
            · exact_mod_cast full
            · exact one_le_two
            · exact fine

end StyleObjects.Binary64
