import StyleObjects.Style.Rem
import StyleObjects.Style.Translation

/-!
# From declarations to styles

Before a declaration of a rule is translated, its lengths are written in pixels.  Borders whose
sides are all equal fold to one key, and animations find the keyframes of the stylesheet.
-/

namespace StyleObjects

/-- How a declaration is turned into styles. -/
inductive DeclarationKind where
  | borderShorthand
  | animation
  | plain
  deriving DecidableEq, Repr

/-- Properties with four sides or corners that may fold to one key. -/
def borderShorthands : List String :=
  ["border-radius", "border-width", "border-color", "border-style"]

/-- How a declaration of a property is turned into styles, given the keyframes of the stylesheet. -/
def DeclarationKind.of (keyframes : Table String) (property : String) : DeclarationKind :=
  if borderShorthands.contains property then .borderShorthand
  else if ["animation", "animation-name"].contains property && !keyframes.isEmpty then .animation
  else .plain

/-- What the declarations of a stylesheet depend on: its keyframes, and the pixels of a root font
size. -/
structure Context where
  keyframes : Table String
  remSize : RemSize

namespace Context

/-- A declaration with its lengths in pixels. -/
def convert (context : Context) (declaration : Declaration) : Except Error Declaration :=
  match Rem.toPixels context.remSize declaration.value with
  | .ok value => .ok { declaration with value }
  | .error fault => .error (.number fault)

/-- The declarations that give the bodies of the keyframes. -/
def keyframeDeclarations (context : Context) : List Declaration :=
  context.keyframes.entries.map fun (name, body) => ⟨Translation.keyframesMark ++ name, body⟩

/-- Four equal sides as one key, and anything else as it is. -/
def foldSides (property : String) (styles : Styles) : Styles :=
  match styles.values with
  | [] => styles
  | first :: rest =>
    if rest.all (· = first) then .ofList [(styleKey property, first)] else styles

/-- The styles of a declaration whose lengths are in pixels. -/
def lower (context : Context) (declaration : Declaration) : Except Error Styles :=
  match DeclarationKind.of context.keyframes declaration.property with
  | .borderShorthand =>
    (translateDeclarations [declaration]).map (foldSides declaration.property)
  | .animation => translateDeclarations (context.keyframeDeclarations ++ [declaration])
  | .plain => translateDeclarations [declaration]

/-- The height of a line is a number, a length or a percentage. -/
def isLineHeight (value : String) : Bool :=
  Measure.isLength value || Measure.isViewportLength value || Measure.isPercentage value
    || Measure.isUnsupported value

/-- A declaration that may be lowered: any but a line height that is none. -/
def guardLineHeight (declaration : Declaration) : Except Error Unit :=
  if declaration.property = "line-height" && !isLineHeight declaration.value then
    .error (.inexpressible declaration.property declaration.value)
  else .ok ()

end Context

end StyleObjects
