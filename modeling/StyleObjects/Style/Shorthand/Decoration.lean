import StyleObjects.Style.Scalar
import StyleObjects.Style.Words

/-!
# Decoration of text

The lines that decorate a text, their style and their color, in any order.
-/

namespace StyleObjects.Decoration

/-- Lines that decorate a text. -/
def lineKinds : List String := ["none", "underline", "line-through", "overline"]

/-- Styles of such lines. -/
def lineStyles : List String := ["solid", "double", "dotted", "dashed", "wavy"]

/-- The places that words of a decoration have taken. -/
structure Parts where
  lines : List String := []
  lineStyle : Option String := none
  color : Option String := none
  deriving DecidableEq, Repr

/-- Give a word its place. -/
def Parts.place? (parts : Parts) (word : String) : Option Parts :=
  if lineKinds.contains word then some { parts with lines := parts.lines ++ [word] }
  else if parts.lineStyle.isNone && lineStyles.contains word then
    some { parts with lineStyle := some word }
  else if parts.color.isNone then some { parts with color := some word }
  else none

/-- No line excludes every other line. -/
def Parts.isConsistent (parts : Parts) : Bool :=
  !parts.lines.contains "none" || parts.lines.length ≤ 1

/-- The styles of a decoration. -/
def Parts.styles (parts : Parts) : Styles :=
  .ofList [
    ("textDecorationLine",
      .text (if parts.lines.isEmpty then "none" else " ".intercalate parts.lines)),
    ("textDecorationStyle", .text (parts.lineStyle.getD "solid")),
    ("textDecorationColor", .text (parts.color.getD "black"))]

/-- A whole decoration. -/
def decoration? (value : String) : Option Styles :=
  ((words value).foldlM Parts.place? {}).bind fun parts =>
    if parts.isConsistent then some parts.styles else none

end StyleObjects.Decoration
