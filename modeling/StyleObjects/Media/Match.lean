import StyleObjects.Media.Query
import StyleObjects.Number.Reading
import StyleObjects.Number.Shortest
import StyleObjects.Table

/-!
# Matching media queries

A query is matched against an environment, which gives the values of features.  Lengths are compared
in pixels, resolutions in dots per inch, ratios as quotients, and counts as integers; any other
values are compared as words.
-/

namespace StyleObjects

open Text

/-- The value of a feature in an environment. -/
inductive FeatureValue where
  | absent
  | flag (value : Bool)
  | integer (value : Int)
  | real (value : Binary64)
  | text (value : String)
  deriving DecidableEq, Repr

/-- The values of features. -/
abbrev Environment := Table FeatureValue

/-- Why two values cannot be compared. -/
inductive MatchFault where
  /-- The unit of a length or resolution is only similar to one that is known. -/
  | unit (name : String)
  /-- An infinite number is given for a count. -/
  | infinite
  /-- An integer is too large for a length, resolution or ratio. -/
  | tooLarge
  deriving DecidableEq, Repr

namespace FeatureValue

/-- The feature counts as missing. -/
def isMissing (value : FeatureValue) : Bool :=
  value = .absent || value = .text ""

/-- The feature is there and is not zero. -/
def isTruthy : FeatureValue → Bool
  | .absent => false
  | .flag value => value
  | .integer value => value != 0
  | .real value => !value.isZero
  | .text value => !value.isEmpty

/-- The value as a word. -/
def word : FeatureValue → String
  | .absent => "None"
  | .flag value => if value then "True" else "False"
  | .integer value => toString value
  | .real value => value.text
  | .text value => value

/-- The number nearest to an integer. -/
def realOfInt (value : Int) : Except MatchFault Binary64 :=
  let number := Binary64.ofInt value
  if number.isFinite then .ok number else .error .tooLarge

/-- The number that a value is, or that `read` gives for a text. -/
def toReal (read : String → Except MatchFault (Option Binary64)) :
    FeatureValue → Except MatchFault (Option Binary64)
  | .absent => .ok none
  | .flag value => .ok (some (.ofInt (if value then 1 else 0)))
  | .integer value => (realOfInt value).map some
  | .real value => .ok (some value)
  | .text value => read value

end FeatureValue

namespace Quantity

/-- The rest of a text after a unit, letter case aside, and the unit as it is written. -/
def takeUnit? (units : List String) (cs : List Char) : Option (List Char × List Char) :=
  units.findSome? fun unit =>
    (dropKeyword? unit.toList cs).map fun rest => (cs.take unit.toList.length, rest)

/-- The unit that a text consists of, letter case and blanks at the end aside; the first of the
units if there is nothing. -/
def unitOf? (units : List String) (cs : List Char) : Option String :=
  if (skipBlanks cs).isEmpty then units.head?
  else
    (takeUnit? units cs).bind fun (unit, rest) =>
      if (skipBlanks rest).isEmpty then some (String.ofList (lower unit)) else none

/-- A number with a unit, in the first of the units; `factors` gives the others in that one. -/
def convert (factors : List (String × Binary64)) (number : Binary64) (rest : List Char) :
    Except MatchFault (Option Binary64) :=
  match unitOf? (factors.map Prod.fst) (skipBlanks rest) with
  | none => .ok none
  | some unit =>
    match factors.lookup unit with
    | some factor => .ok (some (number.mul factor))
    | none => .error (.unit unit)

/-- A decimal constant. -/
def decimal (mantissa : Nat) (exponent : Int) : Binary64 :=
  .ofDecimal false mantissa exponent

/-- Units of length in pixels. -/
def lengthUnits : List (String × Binary64) := [
  ("px", decimal 1 0),
  ("em", decimal 16 0),
  ("rem", decimal 16 0),
  ("in", decimal 96 0),
  ("cm", (decimal 96 0).div (decimal 254 (-2))),
  ("mm", (decimal 96 0).div (decimal 254 (-1))),
  ("pt", (decimal 96 0).div (decimal 72 0)),
  ("pc", decimal 16 0)]

/-- Units of resolution in dots per inch. -/
def resolutionUnits : List (String × Binary64) := [
  ("dpi", decimal 1 0), ("dpcm", decimal 254 (-2)), ("dppx", decimal 96 0), ("x", decimal 96 0)]

/-- The pixels of a length. -/
def readLength (text : String) : Except MatchFault (Option Binary64) :=
  match SignedNumeral.takePlain? (skipBlanks text.toList) with
  | some (number, rest) => convert lengthUnits number.toBinary64 rest
  | none => .ok none

/-- The dots per inch of a resolution. -/
def readResolution (text : String) : Except MatchFault (Option Binary64) :=
  match Numeral.takePlain? (skipBlanks text.toList) with
  | some (number, rest) => convert resolutionUnits (number.toBinary64 false) rest
  | none => .ok none

/-- The quotient of a ratio; a ratio without slash is a quotient by one. -/
def readRatio? (text : String) : Option Binary64 := do
  let (numerator, rest) ← Numeral.takePlain? (skipBlanks text.toList)
  let numerator := numerator.toBinary64 false
  match skipBlanks rest with
  | [] => return numerator
  | '/' :: rest =>
    let (denominator, rest) ← Numeral.takePlain? (skipBlanks rest)
    let denominator := denominator.toBinary64 false
    if (skipBlanks rest).isEmpty && !denominator.isZero then
      return numerator.div denominator
    else none
  | _ => none

/-- The count that a value is; zero and what is no integer are `default`. -/
def count (default : Int) (value : FeatureValue) : Except MatchFault Int :=
  let orDefault (value : Int) : Int := if value = 0 then default else value
  match value with
  | .absent => .ok default
  | .flag value => .ok (orDefault (if value then 1 else 0))
  | .integer value => .ok (orDefault value)
  | .real (.infinite _) => .error .infinite
  | .real value => .ok (orDefault (value.truncate?.getD 0))
  | .text value => .ok (orDefault ((Number.readInteger? value).getD 0))

end Quantity

namespace MediaBound

/-- Compare numbers as a bound asks; without one they have to be equal. -/
def compareReals (bound : Option MediaBound) (actual expected : Binary64) : Bool :=
  match bound with
  | some .min => expected.le actual
  | some .max => actual.le expected
  | none => actual.eq expected

/-- Compare integers as a bound asks. -/
def compareIntegers (bound : Option MediaBound) (actual expected : Int) : Bool :=
  match bound with
  | some .min => expected ≤ actual
  | some .max => actual ≤ expected
  | none => actual = expected

end MediaBound

namespace MediaExpression

/-- How the values of a feature are compared. -/
inductive Comparison where
  | lengths
  | resolutions
  | ratios
  | counts
  | words
  deriving DecidableEq, Repr

/-- How the values of a feature are compared. -/
def comparison (feature : String) : Comparison :=
  if ["width", "height", "device-width", "device-height"].contains feature then .lengths
  else if feature = "resolution" then .resolutions
  else if ["aspect-ratio", "device-aspect-ratio", "device-pixel-ratio"].contains feature then
    .ratios
  else if ["grid", "color", "color-index", "monochrome"].contains feature then .counts
  else .words

/-- Compare two values that `read` takes for numbers; values that are none do not match. -/
def matchReals (bound : Option MediaBound) (read : String → Except MatchFault (Option Binary64))
    (actual : FeatureValue) (expected : String) : Except MatchFault Bool := do
  let actual ← actual.toReal read
  let expected ← read expected
  match actual, expected with
  | some actual, some expected => return MediaBound.compareReals bound actual expected
  | _, _ => return false

/-- A feature's value matches the expected one. -/
def matchValue (expression : MediaExpression) (actual : FeatureValue) (expected : String) :
    Except MatchFault Bool :=
  match comparison expression.feature with
  | .lengths => matchReals expression.bound Quantity.readLength actual expected
  | .resolutions => matchReals expression.bound Quantity.readResolution actual expected
  | .ratios =>
    matchReals expression.bound (fun text => .ok (Quantity.readRatio? text)) actual expected
  | .counts => do
    let actual ← Quantity.count 0 actual
    let expected ← Quantity.count 1 (.text expected)
    return MediaBound.compareIntegers expression.bound actual expected
  | .words => .ok (lowered actual.word = lowered (stripped expected))

/-- The test holds in an environment. -/
def isMatch (expression : MediaExpression) (environment : Environment) : Except MatchFault Bool :=
  match environment.get? expression.feature with
  | none => .ok false
  | some actual =>
    if actual.isMissing then .ok false
    else
      match expression.value with
      | none => .ok actual.isTruthy
      | some expected => expression.matchValue actual expected

end MediaExpression

namespace MediaQuery

/-- The type of media of an environment is the one that a query asks for. -/
def matchesType (query : MediaQuery) (environment : Environment) : Bool :=
  query.type = "all" || environment.get? "type" = some (.text query.type)

/-- All tests hold in an environment; tests after the first that fails are not made. -/
def matchAll (environment : Environment) : List MediaExpression → Except MatchFault Bool
  | [] => .ok true
  | expression :: expressions => do
    if ← expression.isMatch environment then matchAll environment expressions else return false

/-- The query holds in an environment. -/
def isMatch (query : MediaQuery) (environment : Environment) : Except MatchFault Bool := do
  if query.matchesType environment then
    return (← matchAll environment query.expressions) != query.inverse
  else return query.inverse

/-- One of the queries holds in an environment; queries after the first that holds are not tried. -/
def matchAny (environment : Environment) : List MediaQuery → Except MatchFault Bool
  | [] => .ok false
  | query :: queries => do
    if ← query.isMatch environment then return true else matchAny environment queries

end MediaQuery

end StyleObjects
