import StyleObjects.Proofs.Lists
import StyleObjects.Proofs.Number.Whole
import StyleObjects.Proofs.Style.Measures

/-!
# Numbers of viewport lengths

All units but those of the viewport share one grammar of numbers.  A viewport length asks only for
ASCII digits and points, in any order.  So it takes some texts for numbers that are none, and it
refuses numbers with a power of ten or with digits of other scripts.  On all other texts that stand
before a unit the two grammars agree.
-/

namespace StyleObjects

open Numeral (isNumeralChar)
open Text

namespace Measure

/-! ## The number of a viewport length -/

/-- An unsigned number to a viewport length. -/
def isDotted (cs : List Char) : Bool :=
  !cs.isEmpty && cs.all isDigitOrPoint

/-- No unit of the viewport ends in another one. -/
theorem eq_nil_of_append_mem {before : List Char} {unit : String} (listed : unit ∈ viewportUnits)
    (whole : String.ofList (before ++ unit.toList) ∈ viewportUnits) : before = [] := by
  have ends : ∀ unit ∈ viewportUnits, ∀ other ∈ viewportUnits,
      unit.toList <:+ other.toList → unit.toList.length = other.toList.length := by decide
  have length := ends unit listed _ whole (by simp)
  simpa using length

theorem isViewportLength_append {unit : String} (listed : unit ∈ viewportUnits) (number : String) :
    isViewportLength (number ++ unit) = isDotted (Numeral.takeSign number.toList).2 := by
  have units : ∀ unit ∈ viewportUnits, unit.toList ≠ [] ∧ unit.toList.getLast? ≠ some '\n' ∧
      unit.toList.head?.any isNumeralChar = false ∧
      unit.toList.head?.any isDigitOrPoint = false := by decide
  obtain ⟨filled, ended, stop, other⟩ := units unit listed
  have unsigned : (Numeral.takeSign (withoutLineBreak (number ++ unit).toList)).2 =
      (Numeral.takeSign number.toList).2 ++ unit.toList := by
    rw [String.toList_append, withoutLineBreak_append _ filled ended,
      Numeral.takeSign_append _ stop]
  rw [isViewportLength_eq unsigned]
  generalize (Numeral.takeSign number.toList).2 = body
  cases dotted : body.all isDigitOrPoint with
  | true =>
      rw [Lists.takeWhile_append_of_stop dotted other, Lists.dropWhile_append_of_stop dotted other]
      simp [isDotted, dotted, listed]
  | false =>
      -- What is left of the body stands before the unit, and both together are no unit.
      have unknown : viewportUnits.contains
          (String.ofList ((body ++ unit.toList).dropWhile isDigitOrPoint)) = false := by
        rw [Bool.eq_false_iff, Ne, List.contains_iff_mem]
        intro whole
        rw [List.dropWhile_append] at whole
        split at whole
        · rename_i inside
          rw [List.isEmpty_iff, List.dropWhile_eq_nil_iff, ← List.all_eq_true, dotted] at inside
          cases inside
        · rename_i left
          rw [eq_nil_of_append_mem listed whole] at left
          exact left rfl
      rw [unknown, isDotted, dotted, Bool.and_false, Bool.and_false]

/-! ## The number of other measures -/

theorem exists_take?_iff {cs : List Char} :
    (∃ signed, SignedNumeral.take? cs = some (signed, [])) ↔
      ∃ numeral : Numeral, numeral.Writes (Numeral.takeSign cs).2 := by
  simp only [← Numeral.takeUnsigned?_eq_some_nil_iff]
  constructor
  · rintro ⟨signed, taken⟩
    rcases Option.map_eq_some_iff.mp taken with ⟨⟨numeral, rest⟩, unsigned, same⟩
    cases same
    exact ⟨numeral, unsigned⟩
  · rintro ⟨numeral, unsigned⟩
    refine ⟨⟨(Numeral.takeSign cs).1, numeral⟩, ?_⟩
    simp only [SignedNumeral.take?, unsigned, Option.map_some]

theorem isNumber_iff {text : String} : isNumber text = true ↔
    ∃ numeral : Numeral, numeral.Writes (Numeral.takeSign (withoutLineBreak text.toList)).2 := by
  rw [isNumber, hasUnit_singleton_iff]
  exact exists_take?_iff

theorem isPixels_append_iff {number : String} : isPixels (number ++ "px") = true ↔
    ∃ numeral : Numeral, numeral.Writes (Numeral.takeSign number.toList).2 := by
  have stop : "px".toList.head?.any isNumeralChar = false := by decide
  rw [isPixels, hasUnit_singleton_iff, String.toList_append,
    withoutLineBreak_append _ (by decide) (by decide), SignedNumeral.take?_append _ stop,
    ← exists_take?_iff]
  simp only [Option.map_eq_some_iff, Prod.exists, Prod.mk.injEq, List.append_left_eq_self]
  constructor
  · rintro ⟨-, signed, rest, taken, -, rfl⟩
    exact ⟨signed, taken⟩
  · rintro ⟨signed, taken⟩
    exact ⟨signed, signed, [], taken, rfl, rfl⟩

end Measure

/-! ## Numerals of digits and points -/

namespace Numeral

open StyleObjects.Measure (isDigitOrPoint isDotted)

variable {numeral : Numeral} {cs digits : List Char}

/-- There is a power of ten, or a digit beyond ASCII. -/
def isElaborate (numeral : Numeral) : Bool :=
  !numeral.whole.all Char.isDigit || !numeral.fraction.all Char.isDigit || !numeral.power.isEmpty

theorem point_not_mem (decimal : digits.all isDecimalDigit = true) : '.' ∉ digits := by
  intro member
  cases List.all_eq_true.mp decimal _ member

theorem all_isDigitOrPoint (unpointed : '.' ∉ digits) :
    digits.all isDigitOrPoint = digits.all Char.isDigit := by
  rw [Bool.eq_iff_iff, List.all_eq_true, List.all_eq_true]
  refine forall₂_congr fun c member => ?_
  have other : c ≠ '.' := fun same => unpointed (same ▸ member)
  simp [isDigitOrPoint, other]

theorem WritesFraction.all_isDigitOrPoint {fraction : List Char}
    (writes : WritesFraction digits fraction) :
    fraction.all isDigitOrPoint = digits.all Char.isDigit := by
  cases writes with
  | absent => rfl
  | point _ decimal =>
      rw [List.all_cons, Numeral.all_isDigitOrPoint (point_not_mem decimal)]
      rfl

theorem WritesPower.all_isDigitOrPoint {negative : Bool} {power : List Char}
    (writes : WritesPower negative digits power) :
    power.all isDigitOrPoint = digits.isEmpty := by
  cases writes with
  | absent => rfl
  | mark mark _ filled =>
      rw [List.isEmpty_eq_false_iff.mpr filled]
      rcases mark with rfl | rfl <;> rfl

theorem WritesPower.eq_nil {negative : Bool} {power : List Char}
    (writes : WritesPower negative [] power) : power = [] := by
  cases writes with
  | absent => rfl
  | mark _ _ filled => exact absurd rfl filled

/-- A numeral is written with digits and points only unless it is elaborate. -/
theorem Writes.isDotted_eq (writes : numeral.Writes cs) : isDotted cs = !numeral.isElaborate := by
  have filled : cs.isEmpty = false := by
    rcases writes.exists_cons with ⟨first, rest, rfl, -⟩
    rfl
  rw [isDotted, filled, isElaborate]
  rcases writes with ⟨decimal, -, fraction, power⟩
  simp only [List.all_append, fraction.all_isDigitOrPoint, power.all_isDigitOrPoint,
    all_isDigitOrPoint (point_not_mem decimal), Bool.not_or, Bool.not_not, Bool.not_false,
    Bool.true_and, Bool.and_assoc]

/-- A point stands at the end of the text, or there is more than one. -/
def hasStrayPoint (cs : List Char) : Bool :=
  cs.getLast? == some '.' || 1 < cs.count '.'

theorem hasStrayPoint_of_not_mem (unpointed : '.' ∉ cs) : hasStrayPoint cs = false := by
  have last : cs.getLast? ≠ some '.' := fun last => unpointed (List.mem_of_getLast? last)
  simp [hasStrayPoint, last, List.count_eq_zero_of_not_mem unpointed]

/-- What follows the first point may neither be empty nor have another one. -/
theorem hasStrayPoint_append_cons {whole rest : List Char} (unpointed : '.' ∉ whole) :
    hasStrayPoint (whole ++ '.' :: rest) = true ↔ rest = [] ∨ '.' ∈ rest := by
  have count : (whole ++ '.' :: rest).count '.' = rest.count '.' + 1 := by
    rw [List.count_append, List.count_eq_zero_of_not_mem unpointed, List.count_cons_self, zero_add]
  rw [hasStrayPoint, count, Bool.or_eq_true, beq_iff_eq, decide_eq_true_eq,
    List.getLast?_append_of_ne_nil _ (List.cons_ne_nil _ _), List.getLast?_cons,
    Nat.lt_add_left_iff_pos, List.count_pos_iff]
  cases last : rest.getLast? with
  | none => simp [List.getLast?_eq_none_iff.mp last]
  | some c =>
      have member := List.mem_of_getLast? last
      have filled : rest ≠ [] := List.ne_nil_of_mem member
      simp only [Option.getD_some, Option.some.injEq, filled, false_or, or_iff_right_iff_imp]
      rintro rfl
      exact member

theorem WritesFraction.hasStrayPoint_eq_false {whole fraction : List Char}
    (writes : WritesFraction digits fraction) (decimal : whole.all isDecimalDigit = true) :
    hasStrayPoint (whole ++ fraction) = false := by
  have unpointed := point_not_mem decimal
  cases writes with
  | absent =>
      rw [List.append_nil]
      exact hasStrayPoint_of_not_mem unpointed
  | point filled digital =>
      rw [Bool.eq_false_iff, Ne, hasStrayPoint_append_cons unpointed, not_or]
      exact ⟨filled, point_not_mem digital⟩

/-- Digits and points write a numeral unless there is a stray point. -/
theorem exists_writes_iff (dotted : isDotted cs = true) :
    (∃ numeral : Numeral, numeral.Writes cs) ↔ hasStrayPoint cs = false := by
  constructor
  · rintro ⟨numeral, writes⟩
    have plain := writes.isDotted_eq
    rw [dotted, eq_comm, Bool.not_eq_true', isElaborate, Bool.or_eq_false_iff] at plain
    have powerless : numeral.power = [] := by simpa using plain.2
    rcases writes with ⟨decimal, -, fraction, power⟩
    rw [powerless] at power
    rw [power.eq_nil, List.append_nil]
    exact fraction.hasStrayPoint_eq_false decimal
  · intro placed
    obtain ⟨filled, inside⟩ : cs ≠ [] ∧ cs.all isDigitOrPoint = true := by
      simpa [isDotted] using dotted
    by_cases pointed : '.' ∈ cs
    · obtain ⟨whole, rest, rfl, unpointed⟩ := List.eq_append_cons_of_mem pointed
      rw [Bool.eq_false_iff, Ne, hasStrayPoint_append_cons unpointed, not_or] at placed
      rw [List.all_append, List.all_cons, Bool.and_eq_true, Bool.and_eq_true,
        all_isDigitOrPoint unpointed, all_isDigitOrPoint placed.2] at inside
      have writes : Writes ⟨whole, rest, false, []⟩ (whole ++ ('.' :: rest ++ [])) :=
        .parts (all_isDecimalDigit inside.1) (.inr placed.1)
          (.point placed.1 (all_isDecimalDigit inside.2.2)) .absent
      rw [List.append_nil] at writes
      exact ⟨_, writes⟩
    · rw [all_isDigitOrPoint pointed] at inside
      have writes : Writes ⟨cs, [], false, []⟩ (cs ++ ([] ++ [])) :=
        .parts (all_isDecimalDigit inside) (.inl filled) .absent .absent
      rw [List.append_nil, List.append_nil] at writes
      exact ⟨_, writes⟩

end Numeral

/-! ## Both grammars -/

namespace Measure

variable {unit number : String}

/-- Digits and points after a sign or none, with a stray point. -/
def isMisshapen (number : String) : Bool :=
  let body := (Numeral.takeSign number.toList).2
  isDotted body && Numeral.hasStrayPoint body

/-- A number with a power of ten or with digits beyond ASCII. -/
def isElaborate (number : String) : Bool :=
  (Numeral.takeUnsigned? (Numeral.takeSign number.toList).2).any fun (numeral, rest) =>
    rest.isEmpty && numeral.isElaborate

/-- A number with a line break after it. -/
def isNumberLine (number : String) : Bool :=
  isNumber number && number.toList.getLast? == some '\n'

/-- The misshapen texts are those that are numbers to a viewport length only. -/
theorem isMisshapen_iff (listed : unit ∈ viewportUnits) (number : String) :
    isMisshapen number = true ↔
      isViewportLength (number ++ unit) = true ∧ ¬isPixels (number ++ "px") = true := by
  rw [isViewportLength_append listed, isPixels_append_iff, isMisshapen, Bool.and_eq_true]
  refine and_congr_right fun dotted => ?_
  rw [Numeral.exists_writes_iff dotted, Bool.not_eq_false]

/-- The elaborate numbers are those that a viewport length refuses. -/
theorem isElaborate_iff (listed : unit ∈ viewportUnits) (number : String) :
    isElaborate number = true ↔
      isPixels (number ++ "px") = true ∧ ¬isViewportLength (number ++ unit) = true := by
  rw [isViewportLength_append listed, isPixels_append_iff, isElaborate, Option.any_eq_true]
  constructor
  · rintro ⟨⟨numeral, rest⟩, taken, found⟩
    obtain ⟨rfl, elaborate⟩ : rest = [] ∧ numeral.isElaborate = true := by simpa using found
    have writes := Numeral.takeUnsigned?_eq_some_nil_iff.mp taken
    refine ⟨⟨numeral, writes⟩, ?_⟩
    rw [writes.isDotted_eq, elaborate]
    exact Bool.false_ne_true
  · rintro ⟨⟨numeral, writes⟩, refused⟩
    refine ⟨(numeral, []), Numeral.takeUnsigned?_eq_some_nil_iff.mpr writes, ?_⟩
    simpa [writes.isDotted_eq] using refused

/-- No sign is a line break, so one at the end stands behind the sign. -/
theorem lineBreak_mem (last : number.toList.getLast? = some '\n') :
    '\n' ∈ (Numeral.takeSign number.toList).2 :=
  (Numeral.spells_takeSign number.toList).mem_rest (List.mem_of_getLast? last) (by decide)

theorem not_isPixels_of_lineBreak (last : number.toList.getLast? = some '\n') :
    ¬isPixels (number ++ "px") = true := by
  rw [isPixels_append_iff]
  rintro ⟨numeral, writes⟩
  cases List.all_eq_true.mp writes.all_isNumeralChar _ (lineBreak_mem last)

theorem not_isViewportLength_of_lineBreak (listed : unit ∈ viewportUnits)
    (last : number.toList.getLast? = some '\n') : ¬isViewportLength (number ++ unit) = true := by
  rw [isViewportLength_append listed, isDotted, Bool.and_eq_true, List.all_eq_true]
  rintro ⟨-, inside⟩
  cases inside _ (lineBreak_mem last)

/-- A number without unit is one that may have a unit, or has a line break after it. -/
theorem isNumber_eq (number : String) :
    isNumber number = (isPixels (number ++ "px") || isNumberLine number) := by
  by_cases last : number.toList.getLast? = some '\n'
  · rw [Bool.eq_false_iff.mpr (not_isPixels_of_lineBreak last), isNumberLine, last]
    simp
  · have same : isNumber number = isPixels (number ++ "px") := by
      rw [Bool.eq_iff_iff, isNumber_iff, isPixels_append_iff, withoutLineBreak, if_neg last]
    simp [isNumberLine, last, same]

/-- A text is a number to a viewport length if and only if it is a number, except for misshapen
texts, elaborate numbers and numbers with a line break after them.  Before the unit of pixels no
line break is ignored, so there only the first two are exceptions. -/
theorem isViewportLength_append_iff (listed : unit ∈ viewportUnits) (number : String) :
    ((isViewportLength (number ++ unit) = true ↔ isNumber number = true) ↔
      isMisshapen number = false ∧ isElaborate number = false ∧ isNumberLine number = false) ∧
    ((isViewportLength (number ++ unit) = true ↔ isPixels (number ++ "px") = true) ↔
      isMisshapen number = false ∧ isElaborate number = false) := by
  have agree : (isViewportLength (number ++ unit) = true ↔ isPixels (number ++ "px") = true) ↔
      isMisshapen number = false ∧ isElaborate number = false := by
    rw [Bool.eq_false_iff, Bool.eq_false_iff, Ne, Ne, isMisshapen_iff listed,
      isElaborate_iff listed, not_and_not_right, not_and_not_right]
    exact iff_def
  refine ⟨?_, agree⟩
  rw [isNumber_eq]
  cases line : isNumberLine number with
  | true =>
      have last : number.toList.getLast? = some '\n' := by
        simp only [isNumberLine, Bool.and_eq_true, beq_iff_eq] at line
        exact line.2
      simp [not_isViewportLength_of_lineBreak listed last]
  | false =>
      rw [Bool.or_false, agree]
      simp

/-- A number with a power of ten before a unit of the viewport is no viewport length, and two points
are one. -/
theorem not_isViewportLength_of_poweredNumber :
    ¬(isViewportLength ("1e3" ++ "vh") = true ↔ isNumber "1e3" = true) ∧
      ¬(isViewportLength ("1e3" ++ "vh") = true ↔ isPixels ("1e3" ++ "px") = true) ∧
      ¬(isViewportLength (".." ++ "vh") = true ↔ isNumber ".." = true) := by
  decide

theorem isViewportLength_append_iff_of_numberLine :
    "vmin" ∈ viewportUnits ∧
      (isViewportLength ("-.5" ++ "vmin") = true ↔ isNumber "-.5" = true) ∧
      ¬(isViewportLength ("-.5\n" ++ "vmin") = true ↔ isNumber "-.5\n" = true) ∧
      (isViewportLength ("-.5\n" ++ "vmin") = true ↔ isPixels ("-.5\n" ++ "px") = true) := by
  have listed : "vmin" ∈ viewportUnits := by decide
  have plain := isViewportLength_append_iff listed "-.5"
  have ended := isViewportLength_append_iff listed "-.5\n"
  have line : isNumberLine "-.5\n" = true := by decide
  refine ⟨listed, plain.1.mpr (by decide), ?_, ended.2.mpr (by decide)⟩
  rw [ended.1, line]
  simp

end Measure

end StyleObjects
