import StyleObjects.Error
import StyleObjects.Media.Parser
import StyleObjects.Style.Measure

/-!
# Accepted media queries

The renderer knows certain types and features of media, and compares dimensions only with lengths.
-/

namespace StyleObjects.MediaQuery

/-- Types of media that the renderer knows, those of its platforms among them. -/
def knownTypes : List String := [
  "all", "braille", "embossed", "handheld", "print", "projection", "screen", "speech", "tty", "tv",
  "android", "dom", "ios", "macos", "web", "windows"]

/-- Features that the renderer knows. -/
def knownFeatures : List String := [
  "aspect-ratio", "device-aspect-ratio", "device-height", "device-width", "direction", "height",
  "orientation", "platform", "prefers-color-scheme", "width"]

/-- Features whose values are lengths. -/
def dimensionFeatures : List String :=
  ["device-height", "device-width", "height", "width"]

/-- Why the renderer does not accept an expression. -/
def expressionError? (expression : MediaExpression) : Option Error :=
  if !knownFeatures.contains expression.feature then some (.mediaFeature expression.name)
  else if dimensionFeatures.contains expression.feature
      && !expression.value.any Measure.isLength then
    some (.mediaExpression expression.text)
  else none

/-- Why the renderer does not accept a query. -/
def error? (query : MediaQuery) : Option Error :=
  if !knownTypes.contains query.type then some (.mediaType query.type)
  else query.expressions.findSome? expressionError?

/-- Why the renderer does not accept a list of queries. -/
def listError? (queries : List MediaQuery) : Option Error :=
  queries.findSome? error?

/-- Read a list of queries that the renderer accepts. -/
def parseAccepted (text : String) : Except Error (List MediaQuery) :=
  match parse? text with
  | none => .error (.mediaQuery text)
  | some queries =>
    match listError? queries with
    | some error => .error error
    | none => .ok queries

end StyleObjects.MediaQuery
