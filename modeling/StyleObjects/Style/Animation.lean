import StyleObjects.Style.Scalar
import StyleObjects.Style.Words

/-!
# Animations

An animation has up to eight parts, which its words give in any order.  A name becomes the frames
that are bound to it, if there are any.  Several animations, which commas separate, give aligned
lists.

The two functions for a whole value work for any way of looking up frames, which may fail for
causes of its own, and for any cause of rejection.
-/

namespace StyleObjects.Animation

/-- Names of easing curves. -/
def timingKeywords : List String :=
  ["linear", "ease", "ease-in", "ease-out", "ease-in-out", "step-start", "step-end"]

/-- How calls of easing functions start. -/
def timingFunctions : List String := ["cubic-bezier(", "steps(", "linear("]

/-- Directions in which an animation runs. -/
def directions : List String := ["normal", "reverse", "alternate", "alternate-reverse"]

/-- What holds before and after an animation. -/
def fillModes : List String := ["forwards", "backwards", "both"]

/-- Whether an animation runs. -/
def playStates : List String := ["running", "paused"]

/-- The keys of an animation with their initial values. -/
def initialValues : List (String × Value) := [
  ("animationName", .text "none"),
  ("animationDuration", .text "0s"),
  ("animationTimingFunction", .text "ease"),
  ("animationDelay", .text "0s"),
  ("animationIterationCount", .integer 1),
  ("animationDirection", .text "normal"),
  ("animationFillMode", .text "none"),
  ("animationPlayState", .text "running")]

/-- The text starts with another one. -/
def startsWith (start text : String) : Bool :=
  start.toList.isPrefixOf text.toList

/-- The key and the value that a word gives, after the styles that earlier words have given; none if
it is the name of an animation. -/
def part? (styles : Styles) (word : String) : Option (String × Value) :=
  if Measure.isTime word then
    some (if styles.contains "animationDuration" then "animationDelay" else "animationDuration",
      .text word)
  else if timingKeywords.contains word || timingFunctions.any (startsWith · word) then
    some ("animationTimingFunction", .text word)
  else if word = "infinite" then some ("animationIterationCount", .text word)
  else
    match Scalar.readNumber? word with
    | some count => some ("animationIterationCount", .scalar count)
    | none =>
      if directions.contains word then some ("animationDirection", .text word)
      else if fillModes.contains word || (word = "none" && styles.contains "animationName") then
        some ("animationFillMode", .text word)
      else if playStates.contains word then some ("animationPlayState", .text word)
      else none

variable {ε : Type}

/-- The frames bound to a name, or else the name. -/
def bind (frames : String → Except ε (Option Frames)) (name : String) : Except ε Value :=
  (frames name).map fun
    | some bound => .ofFrames bound
    | none => .text name

/-- Add the part that a word gives.  No part may be given twice. -/
def place (rejected : ε) (frames : String → Except ε (Option Frames)) (styles : Styles)
    (word : String) : Except ε Styles := do
  let (key, value) ← match part? styles word with
    | some part => pure part
    | none => (bind frames word).map fun value => ("animationName", value)
  if styles.contains key then throw rejected
  return styles.insert key value

/-- The styles of one animation. -/
def single (rejected : ε) (frames : String → Except ε (Option Frames)) (item : String) :
    Except ε Styles :=
  (words item).foldlM (place rejected frames) .empty

/-- The lists of the values of several animations under every key. -/
def align (animations : List Styles) : Styles :=
  .ofList (initialValues.map fun (key, initial) =>
    (key, .list (animations.map fun styles => (styles.get? key).getD initial)))

/-- The styles of a whole `animation`. -/
def animation (rejected : ε) (frames : String → Except ε (Option Frames)) (value : String) :
    Except ε Styles := do
  match ← (items value).mapM (single rejected frames) with
  | [] => throw rejected
  | [styles] => return styles
  | animations => return align animations

/-- The styles of a whole `animation-name`. -/
def animationName (rejected : ε) (frames : String → Except ε (Option Frames)) (value : String) :
    Except ε Styles := do
  match ← (items value).mapM (bind frames) with
  | [] => throw rejected
  | [name] => return .ofList [("animationName", name)]
  | names => return .ofList [("animationName", .list names)]

end StyleObjects.Animation
