import StyleObjects.Style.Scalar
import StyleObjects.Style.Words

/-!
# Flexible layout

How an item of a flexible layout grows and shrinks, the direction and wrapping of the layout, and
how its contents are placed.
-/

namespace StyleObjects.Flex

/-- Directions of a layout. -/
def directions : List String := ["row", "row-reverse", "column", "column-reverse"]

/-- Ways of wrapping. -/
def wraps : List String := ["wrap", "nowrap", "wrap-reverse"]

/-- The styles of growth, shrinkage and basis. -/
def styles (grow shrink basis : Scalar) : Styles :=
  .ofList [
    ("flexGrow", .scalar grow), ("flexShrink", .scalar shrink), ("flexBasis", .scalar basis)]

/-- The styles of a list of numbers and a list of other words.  The third of three numbers is the
basis. -/
def ofWords? : List String → List String → Option Styles
  | [], [] => some (styles (.integer 1) (.integer 1) (.integer 0))
  | [grow], [] => some (styles (.read grow) (.integer 1) (.integer 0))
  | [grow, shrink], [] => some (styles (.read grow) (.read shrink) (.integer 0))
  | [grow, shrink, basis], [] =>
    (Scalar.readLength? basis).map (styles (.read grow) (.read shrink))
  | [], [basis] => (Scalar.readLength? basis).map (styles (.integer 1) (.integer 1))
  | [grow], [basis] => (Scalar.readLength? basis).map (styles (.read grow) (.integer 1))
  | [grow, shrink], [basis] => (Scalar.readLength? basis).map (styles (.read grow) (.read shrink))
  | _, _ => none

/-- Growth, shrinkage and basis of an item. -/
def flex? (value : String) : Option Styles :=
  if value = "none" then some (styles (.integer 0) (.integer 0) (.text "auto"))
  else if value = "auto" then some (styles (.integer 1) (.integer 1) (.text "auto"))
  else
    let all := words value
    ofWords? (all.filter Measure.isNumber) (all.filter (!Measure.isNumber ·))

/-- The places that words of a flow have taken. -/
structure Flow where
  direction : Option String := none
  wrap : Option String := none
  deriving DecidableEq, Repr

/-- Give a word its place. -/
def Flow.place? (flow : Flow) (word : String) : Option Flow :=
  if flow.direction.isNone && directions.contains word then
    some { flow with direction := some word }
  else if flow.wrap.isNone && wraps.contains word then some { flow with wrap := some word }
  else none

/-- Direction and wrapping. -/
def flow? (value : String) : Option Styles :=
  ((words value).foldlM Flow.place? {}).map fun flow => .ofList [
    ("flexDirection", .text (flow.direction.getD "row")),
    ("flexWrap", .text (flow.wrap.getD "nowrap"))]

/-- How contents are aligned and justified. -/
def placeContent? (value : String) : Option Styles :=
  let styles (align justify : String) : Styles :=
    .ofList [("alignContent", .text align), ("justifyContent", .text justify)]
  match words value with
  | [both] => some (styles both both)
  | [align, justify] => some (styles align justify)
  | _ => none

end StyleObjects.Flex
