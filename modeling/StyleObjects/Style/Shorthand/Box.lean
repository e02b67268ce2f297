import StyleObjects.Style.Scalar
import StyleObjects.Style.Words

/-!
# Boxes

One to four values give the four sides or corners of a box: missing ones are taken from the
opposite side, and that from the first value.
-/

namespace StyleObjects.Box

/-- The sides of a box. -/
def sides : List String := ["Top", "Right", "Bottom", "Left"]

/-- The corners of a box. -/
def corners : List String := ["TopLeft", "TopRight", "BottomRight", "BottomLeft"]

/-- The four values that one to four words give. -/
def spread? : List String → Option (List String)
  | [all] => some [all, all, all, all]
  | [vertical, horizontal] => some [vertical, horizontal, vertical, horizontal]
  | [top, horizontal, bottom] => some [top, horizontal, bottom, horizontal]
  | [top, right, bottom, left] => some [top, right, bottom, left]
  | _ => none

/-- The keys of the four places of a box. -/
def keys (start finish : String) (places : List String) : List String :=
  places.map fun place => start ++ place ++ finish

/-- Four lengths. -/
def lengths? (keys : List String) (value : String) : Option Styles := do
  let spread ← spread? (words value)
  let scalars ← spread.mapM Scalar.readLength?
  return .ofList (keys.zip (scalars.map .scalar))

/-- Four words. -/
def texts? (keys : List String) (value : String) : Option Styles :=
  (spread? (words value)).map fun spread => .ofList (keys.zip (spread.map .text))

/-- Four margins. -/
def margin? : String → Option Styles :=
  lengths? (keys "margin" "" sides)

/-- Four paddings. -/
def padding? : String → Option Styles :=
  lengths? (keys "padding" "" sides)

/-- Four widths of a border. -/
def borderWidth? : String → Option Styles :=
  lengths? (keys "border" "Width" sides)

/-- Four colors of a border. -/
def borderColor? : String → Option Styles :=
  texts? (keys "border" "Color" sides)

/-- Four radii of a border; elliptic ones, which have a slash, are refused. -/
def borderRadius? (value : String) : Option Styles :=
  if value.toList.contains '/' then none
  else lengths? (keys "border" "Radius" corners) value

end StyleObjects.Box
