import StyleObjects.Number.Numeral

/-!
# Measures

A measure is a signed numeral with a unit, which may be empty.  One line break after it is ignored.
Viewport lengths have a grammar of their own, which asks of the number only that it has digits and
points.
-/

namespace StyleObjects

/-- A number with a unit. -/
structure Measure where
  number : SignedNumeral
  unit : List Char
  deriving DecidableEq, Repr

namespace Measure

/-- The text without one line break at its end. -/
def withoutLineBreak (cs : List Char) : List Char :=
  if cs.getLast? = some '\n' then cs.dropLast else cs

/-- The measure that a text writes: the longest numeral at its start, and all of the rest as the
unit. -/
def read? (text : String) : Option Measure :=
  (SignedNumeral.take? (withoutLineBreak text.toList)).map fun (number, unit) => ⟨number, unit⟩

/-- The text is a measure with one of the units. -/
def hasUnit (units : List String) (text : String) : Bool :=
  (read? text).any fun measure => units.contains (String.ofList measure.unit)

/-- A number without unit. -/
def isNumber : String → Bool :=
  hasUnit [""]

/-- A number of pixels. -/
def isPixels : String → Bool :=
  hasUnit ["px"]

/-- A number, of pixels, of root font sizes, or of nothing. -/
def isLength : String → Bool :=
  hasUnit ["", "px", "rem"]

/-- A percentage. -/
def isPercentage : String → Bool :=
  hasUnit ["%"]

/-- A length in a unit that stylesheets have and the renderer has not. -/
def isUnsupported : String → Bool :=
  hasUnit ["ch", "em", "ex", "cm", "mm", "in", "pc", "pt"]

/-- An angle. -/
def isAngle : String → Bool :=
  hasUnit ["deg", "rad", "grad", "turn"]

/-- A time. -/
def isTime : String → Bool :=
  hasUnit ["ms", "s"]

/-- A number with a unit of ASCII letters. -/
def isDimension (text : String) : Bool :=
  (read? text).any fun measure => !measure.unit.isEmpty && measure.unit.all Char.isAlpha

/-- A length in a unit of the viewport. -/
def isViewportLength (text : String) : Bool :=
  let body := (Numeral.takeSign (withoutLineBreak text.toList)).2
  let isDigitOrPoint (c : Char) : Bool := c.isDigit || c == '.'
  !(body.takeWhile isDigitOrPoint).isEmpty
    && ["vh", "vw", "vmin", "vmax"].contains (String.ofList (body.dropWhile isDigitOrPoint))

end Measure

end StyleObjects
