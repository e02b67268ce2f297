import StyleObjects.Media.Match
import StyleObjects.Media.Validation
import StyleObjects.Proofs.Media.Joints
import StyleObjects.Proofs.Media.Lists
import StyleObjects.Proofs.Style.Measures

/-!
# Dimensions in media queries

The dimensions of an accepted query are compared with lengths: measures in pixels, in root font
sizes or without a unit.  Matching reads the pixels of such a length unless it has a power of ten.
So a test of a dimension compares two numbers, but one with a power of ten never holds.
-/

namespace StyleObjects

open Text

/-! ## Lengths -/

namespace Measure

/-- Units of the lengths with which dimensions are compared. -/
def lengthUnits : List (List Char) := [[], ['p', 'x'], ['r', 'e', 'm']]

theorem exists_of_isLength {text : String} (length : isLength text = true) :
    ∃ measure, read? text = some measure ∧ measure.unit ∈ lengthUnits := by
  simp only [isLength, hasUnit, Option.any_eq_true, List.contains_iff_mem] at length
  rcases length with ⟨measure, found, unit⟩
  refine ⟨measure, found, ?_⟩
  have spelled := List.mem_map_of_mem (f := String.toList) unit
  rwa [String.toList_ofList] at spelled

/-- There is a power of ten. -/
def hasPower (measure : Measure) : Bool :=
  !measure.number.numeral.power.isEmpty

/-- The pixels of a length, if it is written without a power of ten. -/
def pixels? (measure : Measure) : Option Binary64 :=
  if measure.hasPower then none
  else
    some (measure.number.toBinary64.mul
      (if measure.unit = ['r', 'e', 'm'] then Quantity.decimal 16 0 else Quantity.decimal 1 0))

theorem isSome_pixels?_iff {measure : Measure} :
    measure.pixels?.isSome = true ↔ measure.hasPower = false := by
  unfold pixels?
  split <;> simp_all

end Measure

/-! ## Reading lengths -/

namespace Numeral

/-- The text of a power of ten starts with its mark, and goes on with a sign or a digit. -/
theorem exists_of_takePower {cs : List Char} (filled : (takePower cs).1.2 ≠ []) :
    ∃ e c rest, cs = e :: c :: rest ∧ (e = 'e' ∨ e = 'E') ∧
      (c = '+' ∨ c = '-' ∨ isDecimalDigit c = true) := by
  unfold takePower at filled
  split at filled
  · rename_i e rest
    split at filled
    · rename_i mark
      simp only at filled
      split at filled
      · exact absurd rfl filled
      · rename_i digits
        unfold Numeral.takeSign at digits
        split at digits
        · exact ⟨e, '-', _, rfl, mark, .inr (.inl rfl)⟩
        · exact ⟨e, '+', _, rfl, mark, .inl rfl⟩
        · cases rest with
          | nil => exact absurd rfl digits
          | cons c rest =>
              refine ⟨e, c, rest, rfl, mark, .inr (.inr ?_)⟩
              simpa [takeDigits, List.takeWhile_cons] using digits
    · exact absurd rfl filled
  · exact absurd rfl filled

/-- Without a power of ten the text after the digits is left as it is. -/
theorem takePower_eq {cs : List Char} (empty : (takePower cs).1.2 = []) :
    takePower cs = ((false, []), cs) := by
  unfold takePower at empty ⊢
  split
  · rename_i e rest
    split
    · rename_i mark
      simp only [mark, ↓reduceIte] at empty
      dsimp only
      split
      · rfl
      · rename_i filled
        simp only [filled, Bool.false_eq_true, ↓reduceIte] at empty
        simp [empty] at filled
    · rfl
  · rfl

end Numeral

namespace Quantity

/-- No unit starts with the mark of a power of ten and a sign or a digit. -/
theorem unitOf?_power {e c : Char} (mark : e = 'e' ∨ e = 'E')
    (other : c = '+' ∨ c = '-' ∨ isDecimalDigit c = true) (rest : List Char) :
    unitOf? (lengthUnits.map Prod.fst) (e :: c :: rest) = none := by
  have folded : foldChar e = 'e' ∧ isBlank e = false := by
    rcases mark with rfl | rfl <;> decide
  have apart : foldChar c ≠ 'm' := by
    intro same
    have letter : c.isAlpha = true := by
      apply Stylesheet.isAlpha_of_toLower
      rcases foldChar_cases c with lower | folded
      · rw [← lower, same]
        rfl
      · rw [same] at folded
        exact absurd folded (by decide)
    rcases other with rfl | rfl | digit
    · cases letter
    · cases letter
    · have checked : ∀ c : Char, c.toNat < 128 → isDecimalDigit c = true → c.isAlpha = false := by
        apply Stylesheet.of_ascii
        decide
      have ascii := Stylesheet.ascii_of_isAlphanum (c := c) (by simp [Char.isAlphanum, letter])
      rw [checked c ascii digit] at letter
      cases letter
  simp [unitOf?, skipBlanks, folded, takeUnit?, lengthUnits, dropKeyword?, apart]

/-- A unit of a length is the unit that its text is. -/
theorem convert_unit {unit after : List Char} (known : unit ∈ Measure.lengthUnits)
    (ended : after = [] ∨ after = ['\n']) (number : Binary64) :
    convert lengthUnits number (unit ++ after) = .ok (some (number.mul
      (if unit = ['r', 'e', 'm'] then decimal 16 0 else decimal 1 0))) := by
  simp only [Measure.lengthUnits, List.mem_cons, List.not_mem_nil, or_false] at known
  rcases known with rfl | rfl | rfl <;> rcases ended with rfl | rfl <;> rfl

/-- Matching reads a length that has no power of ten. -/
theorem readLength_eq_pixels? {text : String} {measure : Measure}
    (found : Measure.read? text = some measure) (known : measure.unit ∈ Measure.lengthUnits) :
    readLength text = .ok measure.pixels? := by
  obtain ⟨⟨number, unit⟩, taken, rfl⟩ := Option.map_eq_some_iff.mp found
  obtain ⟨after, ended, split⟩ := Measure.exists_of_withoutLineBreak text.toList
  generalize Measure.withoutLineBreak text.toList = cs at taken split
  have stop : after.head?.any Numeral.isNumeralChar = false := by
    rcases ended with rfl | rfl <;> decide
  have visible : skipBlanks text.toList = text.toList := by
    have first := SignedNumeral.head?_of_take? taken
    rw [split]
    cases cs with
    | nil => cases first
    | cons c cs => simp [skipBlanks, Numeral.isBlank_of_isNumeralChar first]
  simp only [SignedNumeral.take?, Numeral.takeUnsigned?, Option.map_map,
    Option.map_eq_some_iff] at taken
  obtain ⟨⟨⟨whole, fraction⟩, rest⟩, mantissa, same⟩ := taken
  cases same
  have plain : SignedNumeral.takePlain? text.toList =
      some (⟨(Numeral.takeSign cs).1, ⟨whole, fraction, false, []⟩⟩, rest ++ after) := by
    simp only [SignedNumeral.takePlain?, Numeral.takePlain?, split, Numeral.takeSign_append cs stop,
      Numeral.takeMantissa?_append _ stop, mantissa, Option.map_some]
  rw [readLength, visible, plain]
  dsimp only at known ⊢
  by_cases powered : (Numeral.takePower rest).1.2 = []
  · have left := Numeral.takePower_eq powered
    rw [left] at known
    simp only [convert_unit known ended, Measure.pixels?, Measure.hasPower, left]
    rfl
  · obtain ⟨e, c, others, rfl, mark, other⟩ := Numeral.exists_of_takePower powered
    have unread : convert lengthUnits (SignedNumeral.toBinary64
        ⟨(Numeral.takeSign cs).1, ⟨whole, fraction, false, []⟩⟩) (e :: c :: others ++ after) =
          .ok none := by
      have start : skipBlanks (e :: c :: others ++ after) = e :: c :: (others ++ after) := by
        rcases mark with rfl | rfl <;> rfl
      rw [convert, start, unitOf?_power mark other]
    rw [unread, Measure.pixels?, if_pos]
    simpa [Measure.hasPower] using powered

end Quantity

/-! ## Tests of dimensions -/

namespace MediaQuery

/-- The renderer accepts every test of an accepted query. -/
theorem expressionError?_of_parseAccepted {text : String} {queries : List MediaQuery}
    {query : MediaQuery} {expression : MediaExpression}
    (accepted : parseAccepted text = .ok queries) (listed : query ∈ queries)
    (tested : expression ∈ query.expressions) : expressionError? expression = none := by
  have unrefused := (parseAccepted_eq_ok_iff.mp accepted).2
  simp only [listError?, List.findSome?_eq_none_iff] at unrefused
  have own := unrefused query listed
  simp only [error?] at own
  split at own
  · cases own
  · exact List.findSome?_eq_none_iff.mp own expression tested

/-- A dimension of an accepted query is compared with a length. -/
theorem exists_length_of_parseAccepted {text : String} {queries : List MediaQuery}
    {query : MediaQuery} {expression : MediaExpression}
    (accepted : parseAccepted text = .ok queries) (listed : query ∈ queries)
    (tested : expression ∈ query.expressions)
    (dimension : expression.feature ∈ dimensionFeatures) :
    ∃ value measure, expression.value = some value ∧ Measure.read? value = some measure ∧
      measure.unit ∈ Measure.lengthUnits := by
  have expected := expressionError?_of_parseAccepted accepted listed tested
  simp only [expressionError?] at expected
  split at expected
  · cases expected
  · split at expected
    · cases expected
    · rename_i checked
      rw [List.contains_iff_mem.mpr dimension, Bool.true_and, Bool.not_eq_true,
        Bool.not_eq_false', Option.any_eq_true] at checked
      obtain ⟨value, held, length⟩ := checked
      obtain ⟨measure, found, unit⟩ := Measure.exists_of_isLength length
      exact ⟨value, measure, held, found, unit⟩

end MediaQuery

namespace MediaExpression

/-- A test of a dimension compares the pixels of its length with those of the environment, if both
are there. -/
theorem isMatch_dimension {expression : MediaExpression} {value : String} {pixels : Option Binary64}
    (dimension : expression.feature ∈ MediaQuery.dimensionFeatures)
    (expected : expression.value = some value) (read : Quantity.readLength value = .ok pixels)
    {environment : Environment} {actual : FeatureValue}
    (held : environment.get? expression.feature = some actual) (given : actual.isMissing = false) :
    expression.isMatch environment =
      (actual.toReal Quantity.readLength).map fun number =>
        number.any fun number => pixels.any fun pixels =>
          MediaBound.compareReals expression.bound number pixels := by
  have compared : comparison expression.feature = .lengths := by
    have checked : ∀ feature ∈ MediaQuery.dimensionFeatures, comparison feature = .lengths := by
      decide
    exact checked _ dimension
  simp only [isMatch, held, given, expected, matchValue, compared, matchReals, read, bind,
    Except.bind, Bool.false_eq_true, ↓reduceIte]
  cases actual.toReal Quantity.readLength with
  | error fault => rfl
  | ok number => cases number <;> cases pixels <;> rfl

end MediaExpression

/-- The dimensions of an accepted query are compared with lengths.  The length of one has a number
of pixels if and only if it is written without a power of ten; then the test compares it with what
the environment has, and otherwise it never holds. -/
theorem MediaQuery.readLength_dimension_iff {text : String} {queries : List MediaQuery}
    {query : MediaQuery} {expression : MediaExpression}
    (accepted : parseAccepted text = .ok queries) (listed : query ∈ queries)
    (tested : expression ∈ query.expressions)
    (dimension : expression.feature ∈ dimensionFeatures) :
    ∃ value measure, expression.value = some value ∧ Measure.read? value = some measure ∧
      measure.unit ∈ Measure.lengthUnits ∧
      ((∃ pixels, Quantity.readLength value = .ok (some pixels)) ↔ measure.hasPower = false) ∧
      ∀ (environment : Environment) (actual : FeatureValue),
        environment.get? expression.feature = some actual → actual.isMissing = false →
          expression.isMatch environment =
            (actual.toReal Quantity.readLength).map fun number =>
              number.any fun number => measure.pixels?.any fun pixels =>
                MediaBound.compareReals expression.bound number pixels := by
  obtain ⟨value, measure, expected, found, unit⟩ :=
    exists_length_of_parseAccepted accepted listed tested dimension
  have read := Quantity.readLength_eq_pixels? found unit
  refine ⟨value, measure, expected, found, unit, ?_, ?_⟩
  · rw [read, ← Measure.isSome_pixels?_iff, Option.isSome_iff_exists]
    simp only [Except.ok.injEq]
  · intro environment actual held given
    exact MediaExpression.isMatch_dimension dimension expected read held given

/-- A query for a dimension whose length has a power of ten. -/
def poweredText : String := "(width: 1e3px)"

/-- Such a query is accepted, but holds in no environment, whether it has that width or not. -/
theorem MediaQuery.not_isMatch_of_poweredText :
    parseAccepted poweredText = .ok [⟨false, "all", [⟨none, "width", some "1e3px"⟩]⟩] ∧
      Quantity.readLength "1e3px" = .ok none ∧
      matchAny (.ofList [("width", .integer 1000)])
        [⟨false, "all", [⟨none, "width", some "1e3px"⟩]⟩] = .ok false := by
  decide +kernel

theorem MediaQuery.readLength_dimension_iff_of_boundedText :
    let expression : MediaExpression := ⟨some .min, "device-width", some "+2.5rem"⟩
    let query : MediaQuery := ⟨true, "screen", [expression]⟩
    let environment : Environment := .ofList [("device-width", .integer 40)]
    parseAccepted "not screen and (min-device-width: +2.5rem)" = .ok [query] ∧
      (∃ pixels, Quantity.readLength "+2.5rem" = .ok (some pixels)) ∧
      expression.isMatch environment = .ok true := by
  intro expression query environment
  have accepted : parseAccepted "not screen and (min-device-width: +2.5rem)" = .ok [query] := by
    decide +kernel
  obtain ⟨value, measure, expected, found, -, reads, compares⟩ :=
    readLength_dimension_iff accepted List.mem_cons_self List.mem_cons_self
      (by decide : expression.feature ∈ dimensionFeatures)
  cases expected
  have spelled : Measure.read? "+2.5rem" =
      some ⟨⟨false, ⟨['2'], ['5'], false, []⟩⟩, ['r', 'e', 'm']⟩ := by decide +kernel
  rw [spelled] at found
  cases found
  refine ⟨accepted, reads.mpr rfl, ?_⟩
  rw [compares environment (.integer 40) rfl rfl]
  decide +kernel

end StyleObjects
