import StyleObjects.Style.Measure
import StyleObjects.Style.Value

/-!
# Reading scalars

Numbers and lengths in pixels become numbers, and any other text stays one.  Where a length is
wanted, a unit that the renderer has not is refused.
-/

namespace StyleObjects.Scalar

/-- Properties whose values are lengths. -/
def lengthProperties : List String := [
  "width", "height", "min-width", "max-width", "min-height", "max-height",
  "top", "right", "bottom", "left", "start", "end", "inset",
  "margin-top", "margin-right", "margin-bottom", "margin-left",
  "margin-horizontal", "margin-vertical",
  "padding-top", "padding-right", "padding-bottom", "padding-left",
  "padding-horizontal", "padding-vertical",
  "border-top-width", "border-right-width", "border-bottom-width", "border-left-width",
  "border-top-left-radius", "border-top-right-radius",
  "border-bottom-right-radius", "border-bottom-left-radius",
  "font-size", "line-height", "letter-spacing", "flex-basis",
  "gap", "row-gap", "column-gap"]

/-- Words that stand for a length. -/
def lengthKeywords : List String :=
  ["auto", "none", "normal", "inherit", "initial", "unset"]

/-- The number that a text without unit writes. -/
def readNumber? (text : String) : Option Scalar :=
  (Measure.read? text).bind fun measure =>
    if measure.unit = [] then some (ofNumber measure.number.toBinary64) else none

/-- The scalar that a text writes. -/
def read (text : String) : Scalar :=
  match Measure.read? text with
  | some measure =>
    if measure.unit = [] ∨ measure.unit = ['p', 'x'] then ofNumber measure.number.toBinary64
    else .text text
  | none => .text text

/-- The text is a length that the renderer has. -/
def isLengthWord (text : String) : Bool :=
  Measure.isPixels text || Measure.isNumber text || Measure.isPercentage text
    || Measure.isViewportLength text

/-- The scalar of a text where a length is wanted.  A text that is no measure at all is taken for a
keyword or an expression that the renderer resolves. -/
def readLength? (text : String) : Option Scalar :=
  if isLengthWord text || lengthKeywords.contains text then some (read text)
  else if Measure.isUnsupported text || Measure.isDimension text then none
  else some (.text text)

/-- The property is a custom one, whose value is any text. -/
def isCustom (property : String) : Bool :=
  property.toList.take 2 = ['-', '-']

/-- The scalar of a whole value. -/
def ofValue? (property value : String) : Option Scalar :=
  if isCustom property then some (.text value)
  else if lengthProperties.contains property then readLength? value
  else some (read value)

end StyleObjects.Scalar
