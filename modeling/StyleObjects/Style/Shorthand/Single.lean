import StyleObjects.Style.Key
import StyleObjects.Style.Scalar
import StyleObjects.Style.Words

/-!
# Properties with one key

Font families, font weights, aspect ratios and backgrounds each have a rule for their single value;
any other property has a scalar under the key of its name.
-/

namespace StyleObjects.Single

/-- The first of the font families. -/
def fontFamily? (value : String) : Option Styles :=
  (items value).head?.map fun family => .ofList [("fontFamily", .text (unquoted family))]

/-- A font weight, which stays a text. -/
def fontWeight (value : String) : Styles :=
  .ofList [("fontWeight", .text value)]

/-- The text with spaces around its slashes. -/
def spaceSlashes (value : String) : String :=
  String.ofList (value.toList.flatMap fun c => if c = '/' then [' ', '/', ' '] else [c])

/-- The number that a text without unit writes. -/
def number? (text : String) : Option Binary64 :=
  (Measure.read? text).bind fun measure =>
    if measure.unit = [] then some measure.number.toBinary64 else none

/-- A ratio: a scalar, or the quotient of two numbers, of which the second is not zero. -/
def aspectRatio? (value : String) : Option Styles :=
  match words (spaceSlashes value) with
  | [word] => some (.ofList [("aspectRatio", .scalar (.read word))])
  | [width, "/", height] => do
    let width ← number? width
    let height ← number? height
    if height.isZero then none
    else some (.ofList [("aspectRatio", .scalar (.real (width.div height)))])
  | _ => none

/-- A background that is a color. -/
def background? (value : String) : Option Styles :=
  match words value with
  | [color] => some (.ofList [("backgroundColor", .text color)])
  | _ => none

/-- A property without a rule of its own. -/
def plain? (property value : String) : Option Styles :=
  (Scalar.ofValue? property value).map fun scalar => .ofList [(styleKey property, .scalar scalar)]

end StyleObjects.Single
