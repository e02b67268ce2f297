import Mathlib.Algebra.Order.Field.Power
import Mathlib.Algebra.Order.Floor.Semifield
import Mathlib.Data.Int.Log
import Mathlib.Data.Rat.Floor
import Mathlib.Tactic.FieldSimp
import Mathlib.Tactic.Linarith
import Mathlib.Tactic.NormNum
import Mathlib.Tactic.Positivity
import Mathlib.Tactic.Ring
import StyleObjects.Number.Binary64

/-!
# Rounding a quotient

The arithmetic of binary64 numbers computes a quotient of integers and rounds it.  What it gives is
the number nearest to the value of the quotient, whatever the quotient that has this value.  It is
normalized, and it is the value itself where that is a number of the format.  A value that is too
small becomes zero, and one that is too large infinite.
-/

namespace StyleObjects.Binary64

/-! ## Quotients -/

theorem scaled_pos (value : Nat) (exponent : Int) : 0 < (scaled value exponent).2 := by
  unfold scaled
  split
  · exact Nat.one_pos
  · exact Nat.pow_pos (by decide)

/-- The value of a scaled integer. -/
theorem scaled_ratio (value : Nat) (exponent : Int) :
    ((scaled value exponent).1 : ℚ) / (scaled value exponent).2 = value * 2 ^ exponent := by
  unfold scaled
  split
  · rename_i natural
    obtain ⟨power, rfl⟩ := Int.eq_ofNat_of_zero_le natural
    simp
  · rename_i negative
    obtain ⟨power, same⟩ := Int.eq_ofNat_of_zero_le (by omega : 0 ≤ -exponent)
    obtain rfl : exponent = -(power : Int) := by omega
    simp [div_eq_mul_inv]

theorem zpow_two_pos (exponent : Int) : (0 : ℚ) < 2 ^ exponent := zpow_pos (by decide) exponent

/-- A quotient lies between the powers of two that the logarithms of its parts give. -/
theorem ratio_bounds {numerator denominator : Nat} (positive : 0 < numerator)
    (divisor : 0 < denominator) :
    (2 : ℚ) ^ ((numerator.log2 : Int) - denominator.log2 - 1) ≤ (numerator : ℚ) / denominator ∧
      (numerator : ℚ) / denominator < 2 ^ ((numerator.log2 : Int) - denominator.log2 + 1) := by
  have above : (2 : ℚ) ^ (numerator.log2 : Int) ≤ numerator := by
    exact_mod_cast Nat.log2_self_le (Nat.pos_iff_ne_zero.mp positive)
  have below : (numerator : ℚ) < 2 ^ ((numerator.log2 : Int) + 1) := by
    exact_mod_cast Nat.lt_log2_self
  have divisorAbove : (2 : ℚ) ^ (denominator.log2 : Int) ≤ denominator := by
    exact_mod_cast Nat.log2_self_le (Nat.pos_iff_ne_zero.mp divisor)
  have divisorBelow : (denominator : ℚ) < 2 ^ ((denominator.log2 : Int) + 1) := by
    exact_mod_cast Nat.lt_log2_self
  have some : (0 : ℚ) < denominator := by exact_mod_cast divisor
  constructor
  · rw [le_div_iff₀ some]
    calc (2 : ℚ) ^ ((numerator.log2 : Int) - denominator.log2 - 1) * denominator
        ≤ 2 ^ ((numerator.log2 : Int) - denominator.log2 - 1) *
            2 ^ ((denominator.log2 : Int) + 1) := by gcongr
      _ = 2 ^ (numerator.log2 : Int) := by
          rw [← zpow_add₀ (by decide)]
          congr 1
          ring
      _ ≤ numerator := above
  · rw [div_lt_iff₀ some]
    calc (numerator : ℚ) < 2 ^ ((numerator.log2 : Int) + 1) := below
      _ = 2 ^ ((numerator.log2 : Int) - denominator.log2 + 1) * 2 ^ (denominator.log2 : Int) := by
          rw [← zpow_add₀ (by decide)]
          congr 1
          ring
      _ ≤ 2 ^ ((numerator.log2 : Int) - denominator.log2 + 1) * denominator := by gcongr

theorem scaled_one_le_iff {numerator denominator : Nat} (divisor : 0 < denominator)
    (exponent : Int) :
    (scaled 1 exponent).1 * denominator ≤ numerator * (scaled 1 exponent).2 ↔
      (2 : ℚ) ^ exponent ≤ (numerator : ℚ) / denominator := by
  have some : (0 : ℚ) < denominator := by exact_mod_cast divisor
  have unit : (0 : ℚ) < (scaled 1 exponent).2 := by exact_mod_cast scaled_pos 1 exponent
  have value := scaled_ratio 1 exponent
  rw [Nat.cast_one, one_mul] at value
  rw [← value, div_le_div_iff₀ unit some]
  exact_mod_cast Iff.rfl

/-- The logarithm of a quotient, rounded down. -/
theorem floorLog_eq {numerator denominator : Nat} (positive : 0 < numerator)
    (divisor : 0 < denominator) :
    floorLog numerator denominator = Int.log 2 ((numerator : ℚ) / denominator) := by
  have ratio : 0 < (numerator : ℚ) / denominator := by positivity
  have bounds := ratio_bounds positive divisor
  have unique : ∀ exponent : Int, (2 : ℚ) ^ exponent ≤ (numerator : ℚ) / denominator →
      (numerator : ℚ) / denominator < 2 ^ (exponent + 1) →
      exponent = Int.log 2 ((numerator : ℚ) / denominator) := by
    intro exponent above below
    have least := (Int.zpow_le_iff_le_log (b := 2) (by decide) ratio).mp (by exact_mod_cast above)
    have most := (Int.lt_zpow_iff_log_lt (b := 2) (by decide) ratio).mp (by exact_mod_cast below)
    omega
  unfold floorLog
  dsimp only
  split
  · rename_i reached
    exact unique _ ((scaled_one_le_iff divisor _).mp reached) bounds.2
  · rename_i missed
    refine unique _ bounds.1 ?_
    rw [sub_add_cancel]
    exact not_le.mp (mt (scaled_one_le_iff divisor _).mpr missed)

/-! ## Rounding to an integer -/

/-- A value rounded to the nearest integer, to the even one of two. -/
def roundEven (value : ℚ) : Nat :=
  let whole := ⌊value⌋₊
  if 1 < 2 * (value - whole) ∨ (2 * (value - whole) = 1 ∧ whole % 2 = 1) then whole + 1 else whole

theorem roundQuotient_eq (numerator : Nat) {denominator : Nat} (divisor : 0 < denominator) :
    roundQuotient numerator denominator = roundEven ((numerator : ℚ) / denominator) := by
  have some : (0 : ℚ) < denominator := by exact_mod_cast divisor
  have rest : (numerator : ℚ) / denominator - (numerator / denominator : Nat) =
      ((numerator % denominator : Nat) : ℚ) / denominator := by
    have whole : (numerator : ℚ) =
        denominator * (numerator / denominator : Nat) + (numerator % denominator : Nat) := by
      exact_mod_cast (Nat.div_add_mod numerator denominator).symm
    rw [eq_div_iff some.ne', sub_mul, div_mul_cancel₀ _ some.ne']
    linarith
  have more : 1 < 2 * (((numerator % denominator : Nat) : ℚ) / denominator) ↔
      2 * (numerator % denominator) > denominator := by
    rw [← mul_div_assoc, one_lt_div some]
    exact_mod_cast Iff.rfl
  have half : 2 * (((numerator % denominator : Nat) : ℚ) / denominator) = 1 ↔
      2 * (numerator % denominator) = denominator := by
    rw [← mul_div_assoc, div_eq_one_iff_eq some.ne']
    exact_mod_cast Iff.rfl
  unfold roundEven roundQuotient
  simp only [Nat.floor_div_eq_div, rest, more, half]

theorem roundEven_natCast (value : Nat) : roundEven value = value := by
  simp [roundEven]

theorem le_roundEven {least : Nat} {value : ℚ} (above : (least : ℚ) ≤ value) :
    least ≤ roundEven value := by
  have whole : least ≤ ⌊value⌋₊ := Nat.le_floor above
  unfold roundEven
  dsimp only
  split
  · exact Nat.le_succ_of_le whole
  · exact whole

theorem roundEven_le {value : ℚ} (positive : 0 ≤ value) {most : Nat} (below : value < most) :
    roundEven value ≤ most := by
  have whole : ⌊value⌋₊ < most := (Nat.floor_lt positive).mpr below
  unfold roundEven
  dsimp only
  split
  · exact whole
  · exact whole.le

/-- A value less than one half below an integer is rounded to it, and so is one that is one half below
an even integer. -/
theorem roundEven_lt_iff {value : ℚ} (positive : 0 ≤ value) {most : Nat}
    (even : most % 2 = 0) (below : value < most) :
    roundEven value < most ↔ value < most - 1 / 2 := by
  have whole : ⌊value⌋₊ < most := (Nat.floor_lt positive).mpr below
  have least := Nat.floor_le positive
  have next := Nat.lt_floor_add_one value
  unfold roundEven
  dsimp only
  by_cases last : ⌊value⌋₊ + 1 = most
  · have odd : ⌊value⌋₊ % 2 = 1 := by omega
    have most : (most : ℚ) = ⌊value⌋₊ + 1 := by exact_mod_cast last.symm
    rw [most]
    split
    · rename_i half
      refine iff_of_false (by omega) (not_lt.mpr ?_)
      rcases half with more | ⟨same, -⟩ <;> linarith
    · rename_i less
      refine iff_of_true (by omega) ?_
      rw [not_or, not_and] at less
      have apart : 2 * (value - ⌊value⌋₊) ≠ 1 := fun same => less.2 same odd
      have strictly := lt_of_le_of_ne (not_lt.mp less.1) apart
      linarith
  · have far : ((⌊value⌋₊ + 2 : Nat) : ℚ) ≤ most := by exact_mod_cast (by omega : ⌊value⌋₊ + 2 ≤ most)
    push_cast at far
    refine iff_of_true ?_ (by linarith)
    split <;> omega

theorem roundEven_eq_zero {value : ℚ} (small : 2 * value < 1) : roundEven value = 0 := by
  have whole : ⌊value⌋₊ = 0 := Nat.floor_eq_zero.mpr (by linarith)
  have less : ¬1 < 2 * value := not_lt.mpr small.le
  simp [roundEven, whole, less]

/-! ## Rounding to a number -/

/-- The number nearest to a value with a sign. -/
def nearest (negative : Bool) (value : ℚ) : Binary64 :=
  if value = 0 then zero negative
  else
    let exponent := max (Int.log 2 value - 52) minExponent
    let significand := roundEven (value / 2 ^ exponent)
    if significand = 0 then zero negative
    else
      let carried := significand = Nat.pow 2 53
      let significand := if carried then Nat.pow 2 52 else significand
      let exponent := if carried then exponent + 1 else exponent
      if exponent > maxExponent then .infinite negative else .finite negative significand exponent

/-- A quotient is rounded to the number nearest to its value. -/
theorem ofQuotient_eq (negative : Bool) (numerator : Nat) {denominator : Nat}
    (divisor : 0 < denominator) :
    ofQuotient negative numerator denominator =
      nearest negative ((numerator : ℚ) / denominator) := by
  have some : (0 : ℚ) < denominator := by exact_mod_cast divisor
  unfold ofQuotient nearest
  by_cases none : numerator = 0
  · simp [none]
  · have filled : ¬(numerator : ℚ) / denominator = 0 := by simp [none, some.ne']
    rw [if_neg none, if_neg filled, floorLog_eq (Nat.pos_of_ne_zero none) divisor]
    dsimp only
    generalize max (Int.log 2 ((numerator : ℚ) / denominator) - 52) minExponent = exponent
    have rounded : roundQuotient (numerator * (scaled 1 exponent).2)
        (denominator * (scaled 1 exponent).1) =
          roundEven ((numerator : ℚ) / denominator / 2 ^ exponent) := by
      have unit := scaled_ratio 1 exponent
      have first : 0 < (scaled 1 exponent).1 := by
        unfold scaled
        split
        · exact Nat.mul_pos Nat.one_pos (Nat.pow_pos (by decide))
        · exact Nat.one_pos
      have second : ((scaled 1 exponent).2 : ℚ) ≠ 0 := by
        exact_mod_cast (scaled_pos 1 exponent).ne'
      rw [Nat.cast_one, one_mul] at unit
      rw [roundQuotient_eq _ (Nat.mul_pos divisor first), ← unit]
      congr 1
      push_cast
      field_simp
    rw [rounded]

/-- The sign of a rounded number is the one that is asked for. -/
def withSign (negative : Bool) : Binary64 → Binary64
  | .finite _ significand exponent => .finite negative significand exponent
  | .infinite _ => .infinite negative
  | .undefined => .undefined

theorem nearest_sign (negative : Bool) (value : ℚ) :
    nearest negative value = (nearest false value).withSign negative := by
  unfold nearest zero
  dsimp only
  split_ifs <;> rfl

/-! ## Numbers of the format -/

/-- A finite number is normalized. -/
def IsNormal : Binary64 → Prop
  | .finite _ significand exponent =>
      (significand = 0 ∧ exponent = 0) ∨
        (significand ≠ 0 ∧ significand < 2 ^ 53 ∧ (2 ^ 52 ≤ significand ∨ exponent = minExponent) ∧
          minExponent ≤ exponent ∧ exponent ≤ maxExponent)
  | .infinite _ | .undefined => True

/-- The bounds of a value in units of the last place of its significand. -/
theorem unit_bounds {value : ℚ} (positive : 0 < value) {exponent : Int}
    (unit : exponent = max (Int.log 2 value - 52) minExponent) :
    value / 2 ^ exponent < 2 ^ 53 ∧ (exponent ≠ minExponent → 2 ^ 52 ≤ value / 2 ^ exponent) := by
  have above := Int.zpow_log_le_self (b := 2) (by decide) positive
  have below := Int.lt_zpow_succ_log_self (b := 2) (by decide) value
  rw [Nat.cast_ofNat] at above below
  constructor
  · rw [div_lt_iff₀ (zpow_two_pos exponent)]
    calc value < 2 ^ (Int.log 2 value + 1) := below
      _ ≤ 2 ^ ((53 : Int) + exponent) := zpow_le_zpow_right₀ (by decide) (by omega)
      _ = 2 ^ 53 * 2 ^ exponent := zpow_add₀ (by decide) 53 exponent
  · intro larger
    rw [le_div_iff₀ (zpow_two_pos exponent)]
    calc (2 : ℚ) ^ 52 * 2 ^ exponent = 2 ^ ((52 : Int) + exponent) :=
          (zpow_add₀ (by decide) 52 exponent).symm
      _ = 2 ^ Int.log 2 value := by
          congr 1
          omega
      _ ≤ value := above

theorem nearest_isNormal (negative : Bool) {value : ℚ} (positive : 0 ≤ value) :
    (nearest negative value).IsNormal := by
  unfold nearest
  split
  · exact .inl ⟨rfl, rfl⟩
  · rename_i filled
    have positive : 0 < value := lt_of_le_of_ne positive (Ne.symm filled)
    dsimp only
    generalize unit : max (Int.log 2 value - 52) minExponent = exponent
    have bounds := unit_bounds positive unit.symm
    have least : minExponent ≤ exponent := unit ▸ le_max_right _ _
    have most : roundEven (value / 2 ^ exponent) ≤ 2 ^ 53 := by
      apply roundEven_le (div_pos positive (zpow_two_pos exponent)).le
      exact_mod_cast bounds.1
    have full : exponent ≠ minExponent → 2 ^ 52 ≤ roundEven (value / 2 ^ exponent) := by
      intro larger
      apply le_roundEven
      exact_mod_cast bounds.2 larger
    generalize roundEven (value / 2 ^ exponent) = significand at most full
    split
    · exact .inl ⟨rfl, rfl⟩
    · rename_i counted
      by_cases carried : significand = Nat.pow 2 53
      · simp only [carried, ↓reduceIte]
        split
        · trivial
        · exact .inr ⟨by decide, by decide, .inl (by decide), by omega, by omega⟩
      · simp only [carried, ↓reduceIte]
        split
        · trivial
        · have below : significand < 2 ^ 53 := lt_of_le_of_ne most carried
          refine .inr ⟨counted, below, ?_, least, by omega⟩
          by_cases larger : exponent = minExponent
          · exact .inr larger
          · exact .inl (full larger)

/-- A number of the format is nearest to itself. -/
theorem nearest_of_isNormal {negative : Bool} {significand : Nat} {exponent : Int}
    (normal : (finite negative significand exponent).IsNormal) (filled : significand ≠ 0) :
    nearest negative (significand * 2 ^ exponent) = finite negative significand exponent := by
  rcases normal with ⟨empty, -⟩ | ⟨-, below, full, least, most⟩
  · exact absurd empty filled
  · have some : (0 : ℚ) < significand := by exact_mod_cast Nat.pos_of_ne_zero filled
    have positive : (0 : ℚ) < significand * 2 ^ exponent := mul_pos some (zpow_two_pos exponent)
    have upper : Int.log 2 ((significand : ℚ) * 2 ^ exponent) < 53 + exponent := by
      apply (Int.lt_zpow_iff_log_lt (by decide) positive).mp
      rw [Nat.cast_ofNat, zpow_add₀ (by decide)]
      gcongr
      exact_mod_cast below
    have unit : max (Int.log 2 ((significand : ℚ) * 2 ^ exponent) - 52) minExponent = exponent := by
      rcases full with large | small
      · have lower : 52 + exponent ≤ Int.log 2 ((significand : ℚ) * 2 ^ exponent) := by
          apply (Int.zpow_le_iff_le_log (by decide) positive).mp
          rw [Nat.cast_ofNat, zpow_add₀ (by decide)]
          gcongr
          exact_mod_cast large
        omega
      · omega
    have exact : (significand : ℚ) * 2 ^ exponent / 2 ^ exponent = significand :=
      mul_div_cancel_right₀ _ (zpow_two_pos exponent).ne'
    unfold nearest
    rw [if_neg positive.ne']
    dsimp only
    rw [unit, exact, roundEven_natCast]
    have uncarried : significand ≠ Nat.pow 2 53 := below.ne
    simp [filled, uncarried, not_lt.mpr most]

/-! ## Values out of range -/

/-- A value from `2 ^ 1024` on is too large. -/
theorem nearest_eq_infinite (negative : Bool) {value : ℚ} (large : (2 : ℚ) ^ (1024 : Int) ≤ value) :
    nearest negative value = infinite negative := by
  have positive : 0 < value := lt_of_lt_of_le (zpow_two_pos 1024) large
  have logarithm : 1024 ≤ Int.log 2 value :=
    (Int.zpow_le_iff_le_log (by decide) positive).mp (by exact_mod_cast large)
  unfold nearest
  rw [if_neg positive.ne']
  dsimp only
  generalize unit : max (Int.log 2 value - 52) minExponent = exponent
  have bounds := unit_bounds positive unit.symm
  have beyond : maxExponent < exponent := by
    simp only [maxExponent, minExponent] at unit ⊢
    omega
  have larger : exponent ≠ minExponent := by
    intro least
    simp only [least, maxExponent, minExponent] at beyond
    omega
  have full : 2 ^ 52 ≤ roundEven (value / 2 ^ exponent) := by
    apply le_roundEven
    exact_mod_cast bounds.2 larger
  have counted : roundEven (value / 2 ^ exponent) ≠ 0 := by omega
  rw [if_neg counted, if_pos]
  split <;> omega

/-- The least value that is too large: it lies halfway between the largest number and the next power
of two. -/
def overflow : ℚ := (2 ^ 53 - 1 / 2) * 2 ^ maxExponent

/-- A value is rounded to a finite number if and only if it is below the least one that is too
large. -/
theorem nearest_isFinite_iff (negative : Bool) {value : ℚ} (positive : 0 ≤ value) :
    (nearest negative value).isFinite = true ↔ value < overflow := by
  have power : (2 : ℚ) ^ (1024 : Int) = 2 ^ 53 * 2 ^ maxExponent :=
    zpow_add₀ (by decide) 53 maxExponent
  have unit := zpow_two_pos maxExponent
  by_cases large : (2 : ℚ) ^ (1024 : Int) ≤ value
  · rw [nearest_eq_infinite negative large]
    refine iff_of_false Bool.false_ne_true (not_lt.mpr ?_)
    rw [power] at large
    exact (mul_le_mul_of_nonneg_right (by norm_num) unit.le).trans large
  · unfold nearest
    split
    · rename_i none
      rw [none]
      exact iff_of_true rfl (mul_pos (by norm_num) unit)
    · rename_i filled
      have positive : 0 < value := lt_of_le_of_ne positive (Ne.symm filled)
      have logarithm : Int.log 2 value < 1024 :=
        (Int.lt_zpow_iff_log_lt (by decide) positive).mp (by exact_mod_cast not_le.mp large)
      dsimp only
      generalize same : max (Int.log 2 value - 52) minExponent = exponent
      have bounds := unit_bounds positive same.symm
      have counted : (0 : ℚ) ≤ value / 2 ^ exponent := (div_pos positive (zpow_two_pos exponent)).le
      by_cases last : exponent = maxExponent
      · -- Only here a significand that is rounded up to the next power of two is too large.
        subst last
        have full : 2 ^ 52 ≤ roundEven (value / 2 ^ maxExponent) := by
          apply le_roundEven
          exact_mod_cast bounds.2 (by decide)
        have below : value < overflow ↔ roundEven (value / 2 ^ maxExponent) < 2 ^ 53 := by
          rw [roundEven_lt_iff counted (by decide) (by exact_mod_cast bounds.1), overflow,
            ← div_lt_iff₀ unit]
          norm_num
        have most : roundEven (value / 2 ^ maxExponent) ≤ 2 ^ 53 := by
          apply roundEven_le counted
          exact_mod_cast bounds.1
        rw [below]
        generalize roundEven (value / 2 ^ maxExponent) = significand at full most
        have some : significand ≠ 0 := by omega
        rw [if_neg some]
        by_cases carried : significand = Nat.pow 2 53
        · rw [if_pos carried, if_pos (lt_add_one maxExponent)]
          exact iff_of_false Bool.false_ne_true (not_lt.mpr carried.ge)
        · rw [if_neg carried, if_neg (lt_irrefl maxExponent)]
          exact iff_of_true rfl (lt_of_le_of_ne most carried)
      · have smaller : exponent + 1 ≤ maxExponent := by
          simp only [maxExponent, minExponent] at same last ⊢
          omega
        refine iff_of_true ?_ ?_
        · split
          · rfl
          · rw [if_neg (by split <;> omega)]
            rfl
        · have less : value < 2 ^ 53 * 2 ^ exponent :=
            (div_lt_iff₀ (zpow_two_pos exponent)).mp bounds.1
          calc value < 2 ^ 53 * 2 ^ exponent := less
            _ = 2 ^ 52 * 2 ^ (exponent + 1) := by
                rw [zpow_add₀ (by decide), zpow_one]
                ring
            _ ≤ 2 ^ 52 * 2 ^ maxExponent :=
                mul_le_mul_of_nonneg_left (zpow_le_zpow_right₀ one_le_two smaller) (by positivity)
            _ ≤ overflow := by
                rw [overflow]
                exact mul_le_mul_of_nonneg_right (by norm_num) unit.le

/-- A positive value below `2 ^ -1075` is too small. -/
theorem nearest_eq_zero (negative : Bool) {value : ℚ} (positive : 0 < value)
    (small : value < (2 : ℚ) ^ (-1075 : Int)) : nearest negative value = zero negative := by
  have logarithm : Int.log 2 value < -1075 :=
    (Int.lt_zpow_iff_log_lt (by decide) positive).mp (by exact_mod_cast small)
  unfold nearest
  rw [if_neg positive.ne']
  dsimp only
  have unit : max (Int.log 2 value - 52) minExponent = -1074 := by
    simp only [minExponent]
    omega
  have half : 2 * (value / (2 : ℚ) ^ (-1074 : Int)) < 1 := by
    rw [← mul_div_assoc, div_lt_one (zpow_two_pos _)]
    calc 2 * value < 2 ^ (1 : Int) * 2 ^ (-1075 : Int) := by
          rw [zpow_one]
          linarith
      _ = 2 ^ (-1074 : Int) := (zpow_add₀ (by decide) 1 (-1075)).symm
  rw [unit, roundEven_eq_zero half, if_pos rfl]

end StyleObjects.Binary64
