import StyleObjects.Proofs.Number.Numerals
import StyleObjects.Proofs.Style.Translated

/-!
# Numbers in styles

A number that is read from a measure is the one nearest to what the measure writes, and the quotient
of two numbers the one nearest to their exact quotient.  So the numbers in styles are normalized, and
they are finite where no measure and no quotient is out of range.
-/

namespace StyleObjects

/-! ## Range -/

namespace Numeral

theorem toBinary64_isNormal (numeral : Numeral) (negative : Bool) :
    (numeral.toBinary64 negative).IsNormal := by
  rw [toBinary64_eq]
  exact Binary64.nearest_isNormal negative numeral.value_nonneg

/-- A numeral is read as a finite number if and only if what it writes is in range. -/
theorem toBinary64_isFinite_iff (numeral : Numeral) (negative : Bool) :
    (numeral.toBinary64 negative).isFinite = true ↔ numeral.value < Binary64.overflow := by
  rw [toBinary64_eq]
  exact Binary64.nearest_isFinite_iff negative numeral.value_nonneg

end Numeral

namespace Binary64

/-- The value of a finite number without its sign. -/
def magnitude : Binary64 → ℚ
  | .finite _ significand exponent => significand * 2 ^ exponent
  | _ => 0

theorem magnitude_nonneg (number : Binary64) : 0 ≤ number.magnitude := by
  cases number with
  | finite => exact mul_nonneg (Nat.cast_nonneg _) (zpow_two_pos _).le
  | infinite | undefined => exact le_refl 0

theorem div_eq_nearest {first second : Bool} {significand divisor : Nat} {exponent power : Int}
    (some : divisor ≠ 0) :
    (finite first significand exponent).div (finite second divisor power) =
      nearest (first != second) ((finite first significand exponent).magnitude /
        (finite second divisor power).magnitude) := by
  have positive := Nat.mul_pos (scaled_pos significand (exponent - power)) (Nat.pos_of_ne_zero some)
  have ratio := scaled_ratio significand (exponent - power)
  rw [div, if_neg some]
  dsimp only
  rw [ofQuotient_eq _ _ positive, magnitude, magnitude]
  congr 1
  rw [Nat.cast_mul, ← div_div, ratio, zpow_sub₀ (by decide)]
  ring

theorem div_isNormal {numerator denominator : Binary64} (divisor : denominator.isZero = false) :
    (numerator.div denominator).IsNormal := by
  cases numerator with
  | finite first significand exponent =>
      cases denominator with
      | finite second divided power =>
          rw [div_eq_nearest (by simpa [isZero] using divisor)]
          exact nearest_isNormal _ (div_nonneg (magnitude_nonneg _) (magnitude_nonneg _))
      | infinite => exact .inl ⟨rfl, rfl⟩
      | undefined => exact trivial
  | infinite => cases denominator <;> exact trivial
  | undefined => cases denominator <;> exact trivial

/-- The quotient of finite numbers is finite if and only if the exact quotient is in range. -/
theorem div_isFinite_iff {numerator denominator : Binary64} (first : numerator.isFinite = true)
    (second : denominator.isFinite = true) (divisor : denominator.isZero = false) :
    (numerator.div denominator).isFinite = true ↔
      numerator.magnitude / denominator.magnitude < overflow := by
  cases numerator with
  | finite negative significand exponent =>
      cases denominator with
      | finite other divided power =>
          rw [div_eq_nearest (by simpa [isZero] using divisor)]
          exact nearest_isFinite_iff _ (div_nonneg (magnitude_nonneg _) (magnitude_nonneg _))
      | infinite | undefined => cases second
  | infinite | undefined => cases first

end Binary64

/-! ## Scalars -/

namespace Scalar

/-- Something holds of the number that a scalar is, unless it is a text or an integer. -/
def Real (holds : Binary64 → Prop) : Scalar → Prop
  | .real value => holds value
  | _ => True

theorem real_ofNumber {holds : Binary64 → Prop} {number : Binary64} (known : holds number) :
    (ofNumber number).Real holds := by
  unfold ofNumber
  split
  · split
    · trivial
    · exact known
  · exact known

theorem real_read {holds : Binary64 → Prop} {word : String}
    (known : ∀ measure, Measure.read? word = some measure →
      measure.unit = [] ∨ measure.unit = ['p', 'x'] → holds measure.number.toBinary64) :
    (read word).Real holds := by
  unfold read
  split
  · rename_i measure written
    split
    · exact real_ofNumber (known measure written ‹_›)
    · trivial
  · trivial

/-- The numbers in styles are in normal form. -/
theorem IsOf.isNormal {property value : String} {scalar : Scalar}
    (known : IsOf property value scalar) : scalar.Real Binary64.IsNormal := by
  cases known with
  | text | integer => trivial
  | read piece => exact real_read fun measure _ _ => measure.number.numeral.toBinary64_isNormal _
  | quotient ratio parts first second divisor => exact Binary64.div_isNormal divisor

end Scalar

/-- The measures that may be read from the value of a declaration are in range, and so is the
quotient of an aspect ratio. -/
structure Declaration.IsInRange (declaration : Declaration) : Prop where
  measures : ∀ piece, Translation.Piece (Text.stripped declaration.value) piece →
    ∀ measure, Measure.read? piece = some measure →
      measure.unit = [] ∨ measure.unit = ['p', 'x'] →
        measure.number.numeral.value < Binary64.overflow
  ratio : declaration.property = "aspect-ratio" → ∀ width height,
    words (Single.spaceSlashes (Text.stripped declaration.value)) = [width, "/", height] →
      ∀ numerator denominator, Single.number? width = some numerator →
        Single.number? height = some denominator → denominator.isZero = false →
          numerator.magnitude / denominator.magnitude < Binary64.overflow

theorem Single.number?_eq_some {text : String} {number : Binary64}
    (found : number? text = some number) : ∃ measure, Measure.read? text = some measure ∧
      measure.unit = [] ∧ number = measure.number.toBinary64 := by
  simp only [number?, Option.bind_eq_some_iff, Option.ite_none_right_eq_some,
    Option.some.injEq] at found
  rcases found with ⟨measure, read, unitless, rfl⟩
  exact ⟨measure, read, unitless, rfl⟩

/-- Where all measures are in range, so are the numbers in the styles. -/
theorem Declaration.IsInRange.admits {declaration : Declaration}
    (inRange : declaration.IsInRange) :
    declaration.Admits (Scalar.Real fun number => number.isFinite = true) := by
  intro scalar known
  cases known with
  | text | integer => trivial
  | read piece =>
      exact Scalar.real_read fun measure read unit =>
        (measure.number.numeral.toBinary64_isFinite_iff _).mpr
          (inRange.measures _ piece measure read unit)
  | @quotient width height numerator denominator ratio parts first second divisor =>
      have isFinite : ∀ word ∈ [width, height], ∀ number, Single.number? word = some number →
          number.isFinite = true := by
        intro word member number found
        rcases Single.number?_eq_some found with ⟨measure, read, unitless, rfl⟩
        have piece : word ∈ words (Single.spaceSlashes (Text.stripped declaration.value)) := by
          rw [parts]
          simp only [List.mem_cons, List.not_mem_nil, or_false] at member ⊢
          exact member.imp_right .inr
        exact (measure.number.numeral.toBinary64_isFinite_iff _).mpr
          (inRange.measures _ (.spaced piece) measure read (.inl unitless))
      exact (Binary64.div_isFinite_iff (isFinite _ List.mem_cons_self _ first)
        (isFinite _ (List.mem_cons_of_mem _ List.mem_cons_self) _ second) divisor).mpr
          (inRange.ratio ratio width height parts numerator denominator first second divisor)

end StyleObjects
