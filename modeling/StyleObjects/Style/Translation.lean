import StyleObjects.Error
import StyleObjects.Style.Animation
import StyleObjects.Style.Shorthand.Border
import StyleObjects.Style.Shorthand.Box
import StyleObjects.Style.Shorthand.Decoration
import StyleObjects.Style.Shorthand.Flex
import StyleObjects.Style.Shorthand.Shadow
import StyleObjects.Style.Shorthand.Single
import StyleObjects.Style.Transform

/-!
# Translating declarations

Declarations are translated one after the other, and a later one replaces keys of an earlier one.
A declaration `@keyframes name` gives no styles; its value is the body of the keyframes that a later
or earlier animation may refer to.
-/

namespace StyleObjects

namespace Translation

/-- The styles of a property that does not need frames. -/
def expand? (property value : String) : Option Styles :=
  match property with
  | "margin" => Box.margin? value
  | "padding" => Box.padding? value
  | "border" => Border.border? value
  | "border-width" => Box.borderWidth? value
  | "border-color" => Box.borderColor? value
  | "border-radius" => Box.borderRadius? value
  | "border-style" => Border.borderStyle? value
  | "flex" => Flex.flex? value
  | "flex-flow" => Flex.flow? value
  | "place-content" => Flex.placeContent? value
  | "text-decoration" => Decoration.decoration? value
  | "box-shadow" => Shadow.box? value
  | "text-shadow" => Shadow.text? value
  | "font-family" => Single.fontFamily? value
  | "font-weight" => some (Single.fontWeight value)
  | "aspect-ratio" => Single.aspectRatio? value
  | "background" => Single.background? value
  | "transform" => Transform.transform? value
  | property => Single.plain? property value

/-- A way of looking up the frames of a name. -/
abbrev FrameLookup := String → Except Error (Option Frames)

/-- There are no frames. -/
def noFrames : FrameLookup := fun _ => .ok none

/-- The styles of one declaration, whose value is trimmed. -/
def translateOne (frames : FrameLookup) (declaration : Declaration) : Except Error Styles :=
  let property := declaration.property
  let value := Text.stripped declaration.value
  let rejected := Error.inexpressible property value
  match property with
  | "animation" => Animation.animation rejected frames value
  | "animation-name" => Animation.animationName rejected frames value
  | property =>
    match expand? property value with
    | some styles => .ok styles
    | none => .error rejected

/-- The merged styles of declarations. -/
def translateAll (frames : FrameLookup) (declarations : List Declaration) : Except Error Styles :=
  declarations.foldlM (fun styles declaration =>
    (translateOne frames declaration).map styles.merge) .empty

/-- Add the styles of a rule to the frames of its selectors. -/
def addFrames (frames : Frames) : Rule → Except Error Frames
  | .style selectors declarations =>
    (translateAll noFrames declarations).map fun styles =>
      selectors.foldl (fun frames selector => frames.alter selector .empty (·.merge styles)) frames
  | _ => .ok frames

end Translation

/-- The frames that the body of a keyframe block writes. -/
def readFrames (body : String) : Except Error Frames := do
  let rules ← (Stylesheet.parse body).mapError .unreadable
  rules.foldlM Translation.addFrames .empty

namespace Translation

/-- What the property of a declaration that gives the body of keyframes starts with. -/
def keyframesMark : String := "@keyframes "

/-- The name of the keyframes whose body a declaration gives. -/
def keyframesName? (declaration : Declaration) : Option String :=
  let property := declaration.property.toList
  if keyframesMark.toList.isPrefixOf property then
    some (String.ofList (Text.trim (property.drop keyframesMark.toList.length)))
  else none

/-- The bodies of keyframes that declarations give. -/
def bodies (declarations : List Declaration) : Table String :=
  .ofList (declarations.filterMap fun declaration =>
    (keyframesName? declaration).map fun name => (name, declaration.value))

/-- Look up frames among bodies of keyframes. -/
def framesOf (bodies : Table String) : FrameLookup := fun name =>
  match bodies.get? name with
  | some body => (readFrames body).map some
  | none => .ok none

end Translation

/-- The merged styles of declarations, among them those that give bodies of keyframes. -/
def translateDeclarations (declarations : List Declaration) : Except Error Styles :=
  Translation.translateAll (Translation.framesOf (Translation.bodies declarations))
    (declarations.filter fun declaration => (Translation.keyframesName? declaration).isNone)

end StyleObjects
