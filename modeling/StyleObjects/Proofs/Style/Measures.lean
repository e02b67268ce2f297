import StyleObjects.Proofs.Number.Numerals
import StyleObjects.Proofs.Number.Scanning
import StyleObjects.Style.Scalar

/-!
# Units of measures

A measure is a numeral and the unit that is left behind it, so a character that stands in no numeral
stands in the unit, unless it is the line break that is ignored at the end.  The same is true of
viewport lengths, which have numbers of their own, and of the texts that are read as numbers.
-/

namespace StyleObjects.Measure

open Numeral (isNumeralChar)
open Text

/-! ## Line breaks -/

theorem exists_of_withoutLineBreak (cs : List Char) :
    ∃ after, (after = [] ∨ after = ['\n']) ∧ cs = withoutLineBreak cs ++ after := by
  unfold withoutLineBreak
  split
  · rename_i ended
    have filled : cs ≠ [] := by
      rintro rfl
      cases ended
    rw [List.getLast?_eq_getLast_of_ne_nil filled, Option.some.injEq] at ended
    exact ⟨['\n'], .inr rfl, by rw [← ended, List.dropLast_append_getLast]⟩
  · exact ⟨[], .inl rfl, (List.append_nil cs).symm⟩

theorem mem_withoutLineBreak {cs : List Char} {c : Char} (member : c ∈ cs) (other : c ≠ '\n') :
    c ∈ withoutLineBreak cs := by
  obtain ⟨after, ended, split⟩ := exists_of_withoutLineBreak cs
  rw [split] at member
  refine (List.mem_append.mp member).resolve_right fun last => ?_
  rcases ended with rfl | rfl
  · cases last
  · exact other (List.mem_singleton.mp last)

theorem withoutLineBreak_append (cs : List Char) {unit : List Char} (filled : unit ≠ [])
    (ended : unit.getLast? ≠ some '\n') : withoutLineBreak (cs ++ unit) = cs ++ unit := by
  rw [withoutLineBreak, List.getLast?_append_of_ne_nil _ filled, if_neg ended]

/-! ## Units -/

theorem hasUnit_iff {units : List String} {word : String} :
    hasUnit units word = true ↔
      ∃ measure, read? word = some measure ∧ String.ofList measure.unit ∈ units := by
  rw [hasUnit, Option.any_eq_true]
  simp only [List.contains_iff_mem]

theorem hasUnit_singleton_iff {unit text : String} : hasUnit [unit] text = true ↔
    ∃ signed, SignedNumeral.take? (withoutLineBreak text.toList) = some (signed, unit.toList) := by
  rw [hasUnit_iff]
  constructor
  · rintro ⟨measure, found, listed⟩
    rcases Option.map_eq_some_iff.mp found with ⟨⟨signed, rest⟩, taken, rfl⟩
    rw [List.mem_singleton] at listed
    refine ⟨signed, ?_⟩
    rw [taken, ← listed, String.toList_ofList]
  · rintro ⟨signed, taken⟩
    refine ⟨⟨signed, unit.toList⟩, ?_, by simp⟩
    rw [read?, taken]
    rfl

theorem hasUnit_append (units others : List String) (text : String) :
    hasUnit (units ++ others) text = (hasUnit units text || hasUnit others text) := by
  rw [Bool.eq_iff_iff, Bool.or_eq_true, hasUnit_iff, hasUnit_iff, hasUnit_iff, ← exists_or]
  refine exists_congr fun measure => ?_
  rw [List.mem_append, and_or_left]

/-- A word is a number with one unit. -/
theorem hasUnit_eq_false {units others : List String} {word : String}
    (known : hasUnit units word = true) (apart : ∀ unit ∈ units, unit ∉ others) :
    hasUnit others word = false := by
  rcases hasUnit_iff.mp known with ⟨measure, found, unit⟩
  rw [Bool.eq_false_iff, Ne, hasUnit_iff]
  rintro ⟨other, same, listed⟩
  rw [found, Option.some.injEq] at same
  exact apart _ unit (same ▸ listed)

/-- A character of a measure that stands in no numeral stands in its unit, unless it is a line
break. -/
theorem mem_unit {word : String} {measure : Measure} (found : read? word = some measure) {c : Char}
    (member : c ∈ withoutLineBreak word.toList) (other : Numeral.isNumeralChar c = false) :
    c ∈ measure.unit := by
  rcases Option.map_eq_some_iff.mp found with ⟨⟨number, unit⟩, taken, rfl⟩
  exact (SignedNumeral.spells_of_take? taken).mem_rest member other

/-! ## Viewport lengths -/

/-- The units of the viewport. -/
def viewportUnits : List String := ["vh", "vw", "vmin", "vmax"]

/-- May stand in the number of a viewport length. -/
def isDigitOrPoint (c : Char) : Bool :=
  c.isDigit || c == '.'

theorem isViewportLength_eq {text : String} {body : List Char}
    (unsigned : (Numeral.takeSign (withoutLineBreak text.toList)).2 = body) :
    isViewportLength text = (!(body.takeWhile isDigitOrPoint).isEmpty &&
      viewportUnits.contains (String.ofList (body.dropWhile isDigitOrPoint))) := by
  subst unsigned
  rfl

/-- A viewport length has one of the units of the viewport behind characters of numerals. -/
theorem exists_of_isViewportLength {text : String} (length : isViewportLength text = true) :
    ∃ unit ∈ viewportUnits, Numeral.Spells (withoutLineBreak text.toList) unit.toList := by
  have numeric {c : Char} (inside : isDigitOrPoint c = true) : isNumeralChar c = true := by
    rcases Bool.or_eq_true_iff.mp inside with digit | point
    · rw [isNumeralChar, isDecimalDigit_of_isDigit digit, Bool.true_or]
    · rw [eq_of_beq point]
      decide
  rw [isViewportLength_eq rfl, Bool.and_eq_true, List.contains_iff_mem] at length
  refine ⟨_, length.2, ?_⟩
  rw [String.toList_ofList]
  refine (Numeral.spells_takeSign _).trans ⟨_, ?_, List.takeWhile_append_dropWhile.symm⟩
  exact List.all_eq_true.mpr fun c member =>
    numeric (List.all_eq_true.mp List.all_takeWhile c member)

end StyleObjects.Measure

/-! ## Scalars -/

namespace StyleObjects.Scalar

theorem ofNumber_ne_text (number : Binary64) (text : String) : ofNumber number ≠ .text text := by
  unfold ofNumber
  split
  · split <;> simp
  · simp

/-- A text is read as it is, or as a number of nothing or of pixels, which has no other characters
than these. -/
theorem read_cases (text : String) :
    read text = .text text ∨ (∃ number, read text = ofNumber number) ∧
      ∀ c ∈ text.toList, c = '\n' ∨ Numeral.isNumeralChar c = true ∨ c ∈ ['p', 'x'] := by
  unfold read
  cases found : Measure.read? text with
  | none => exact .inl rfl
  | some measure =>
      dsimp only
      split
      · next plain =>
          refine .inr ⟨⟨_, rfl⟩, fun c member => ?_⟩
          by_contra other
          simp only [not_or, Bool.not_eq_true] at other
          have stays := Measure.mem_withoutLineBreak member other.1
          have inside := Measure.mem_unit found stays other.2.1
          rcases plain with bare | pixels
          · simp [bare] at inside
          · exact other.2.2 (pixels ▸ inside)
      · exact .inl rfl

/-- Where a text is read as a text, it is read as it is. -/
theorem eq_of_read_eq_text {text other : String} (same : read text = .text other) :
    text = other := by
  rcases read_cases text with own | ⟨⟨number, numeric⟩, -⟩
  · simpa [own] using same
  · exact absurd (numeric ▸ same) (ofNumber_ne_text number other)

end StyleObjects.Scalar
