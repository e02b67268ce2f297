import StyleObjects.Style.Scalar
import StyleObjects.Style.Words

/-!
# Borders

A border has a width, a style and a color, in any order.  Each word takes the first place that it
fits and that is still free; a color may be any word.
-/

namespace StyleObjects.Border

/-- The styles of a border. -/
def lineStyles : List String :=
  ["solid", "dashed", "dotted", "double", "groove", "ridge", "inset", "outset", "hidden", "none"]

/-- The places that words of a border have taken. -/
structure Parts where
  width : Option Scalar := none
  lineStyle : Option String := none
  color : Option String := none
  deriving DecidableEq, Repr

/-- Give a word its place. -/
def Parts.place? (parts : Parts) (word : String) : Option Parts :=
  if parts.width.isNone && Scalar.isLengthWord word then
    some { parts with width := some (.read word) }
  else if parts.lineStyle.isNone && lineStyles.contains word then
    some { parts with lineStyle := some word }
  else if parts.color.isNone then some { parts with color := some word }
  else none

/-- The styles of a border; places that no word takes have their initial values. -/
def Parts.styles (parts : Parts) : Styles :=
  .ofList [
    ("borderWidth", .scalar (parts.width.getD (.integer 1))),
    ("borderColor", .text (parts.color.getD "black")),
    ("borderStyle", .text (parts.lineStyle.getD "solid"))]

/-- The styles of no border. -/
def absent : Styles :=
  .ofList [
    ("borderWidth", .integer 0), ("borderColor", .text "black"), ("borderStyle", .text "solid")]

/-- A whole border. -/
def border? (value : String) : Option Styles :=
  if value = "none" ∨ value = "0" then some absent
  else ((words value).foldlM Parts.place? {}).map Parts.styles

/-- The style of a border, which is the same on all sides. -/
def borderStyle? (value : String) : Option Styles :=
  match words value with
  | [word] =>
    if lineStyles.contains word then some (.ofList [("borderStyle", .text word)]) else none
  | _ => none

end StyleObjects.Border
