import StyleObjects.Compile.Step
import StyleObjects.Text.Quoted

/-!
# The log of a compilation

The log tells which keyframes have been cut out, which selectors have been left out as unsupported,
and which media rules have been accepted.
-/

namespace StyleObjects

/-- Something that the log tells. -/
inductive LogEvent where
  | keyframesCut (name : String)
  | keyframesCounted (count : Nat)
  | selectorSkipped (selector : String) (media : Option String)
  | mediaRecorded (media : String) (count : Nat)
  deriving DecidableEq, Repr

namespace LogEvent

/-- The part of the program that tells of an event. -/
def source : LogEvent → String
  | .keyframesCut _ => "cssnative.keyframes"
  | .keyframesCounted _ | .selectorSkipped _ none => "cssnative.transforms"
  | .selectorSkipped _ (some _) | .mediaRecorded .. => "cssnative.transforms.media"

/-- What is told of an event. -/
def text : LogEvent → String
  | .keyframesCut name => "Extracted @keyframes " ++ name
  | .keyframesCounted count => "Extracted " ++ toString count ++ " keyframe block(s)"
  | .selectorSkipped selector none => "Skipping unsupported selector " ++ Text.quoted selector
  | .selectorSkipped selector (some media) =>
    "Skipping unsupported selector " ++ Text.quoted selector ++ " in " ++ media
  | .mediaRecorded media count =>
    "Recorded " ++ media ++ " (" ++ toString count ++ " alternative(s))"

/-- The line of an event. -/
def line (event : LogEvent) : String :=
  event.source ++ ": " ++ event.text ++ "\n"

end LogEvent

/-- What the log tells of a step. -/
def Step.event? : Step → Option LogEvent
  | .skip ⟨selector, .unsupportedSelector, media⟩ => some (.selectorSkipped selector media)
  | .recordQueries media queries => some (.mediaRecorded media queries.length)
  | _ => none

end StyleObjects
