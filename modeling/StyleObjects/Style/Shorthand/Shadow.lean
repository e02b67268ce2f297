import StyleObjects.Style.Scalar
import StyleObjects.Style.Words

/-!
# Shadows

A shadow has two offsets, a radius and a color.  Lists of shadows and inset shadows are refused.
-/

namespace StyleObjects

/-- The parts of a shadow. -/
structure Shadow where
  width : Scalar
  height : Scalar
  radius : Scalar
  color : String
  deriving DecidableEq, Repr

namespace Shadow

/-- The words of a shadow so far. -/
structure Parts where
  lengths : List Scalar := []
  color : Option String := none
  deriving DecidableEq, Repr

/-- Give a word its place. -/
def Parts.place? (parts : Parts) (word : String) : Option Parts :=
  if Scalar.isLengthWord word then some { parts with lengths := parts.lengths ++ [.read word] }
  else if parts.color.isNone && word != "inset" then some { parts with color := some word }
  else none

/-- The shadow of two or three lengths and a color. -/
def Parts.shadow? (parts : Parts) : Option Shadow :=
  let color := parts.color.getD "black"
  match parts.lengths with
  | [width, height] => some ⟨width, height, .integer 0, color⟩
  | [width, height, radius] => some ⟨width, height, radius, color⟩
  | _ => none

/-- No shadow. -/
def absent : Shadow := ⟨.integer 0, .integer 0, .integer 0, "black"⟩

/-- The shadow that a value writes. -/
def read? (value : String) : Option Shadow :=
  if value = "none" then some absent
  else if (items value).length > 1 then none
  else ((words value).foldlM Parts.place? {}).bind Parts.shadow?

/-- The offset as a value. -/
def offset (shadow : Shadow) : Value :=
  .map [("width", .scalar shadow.width), ("height", .scalar shadow.height)]

/-- The shadow of a box. -/
def box? (value : String) : Option Styles :=
  (read? value).map fun shadow => .ofList [
    ("shadowOffset", shadow.offset),
    ("shadowRadius", .scalar shadow.radius),
    ("shadowColor", .text shadow.color),
    ("shadowOpacity", .integer 1)]

/-- The shadow of a text. -/
def text? (value : String) : Option Styles :=
  (read? value).map fun shadow => .ofList [
    ("textShadowOffset", shadow.offset),
    ("textShadowRadius", .scalar shadow.radius),
    ("textShadowColor", .text shadow.color)]

end Shadow

end StyleObjects
