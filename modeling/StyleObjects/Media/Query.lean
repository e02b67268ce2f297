/-!
# Media queries

A media query names a type of media and asks for features of it, and may be negated as a whole.  A
list of queries holds where one of them does.
-/

namespace StyleObjects

/-- A bound on the value of a feature. -/
inductive MediaBound where
  | min
  | max
  deriving DecidableEq, Repr

/-- The name of a bound. -/
def MediaBound.name : MediaBound → String
  | .min => "min"
  | .max => "max"

/-- A test of one feature: of its value, of a bound on its value, or of whether it is there. -/
structure MediaExpression where
  bound : Option MediaBound
  feature : String
  value : Option String
  deriving DecidableEq, Repr

namespace MediaExpression

/-- The name of the feature with its bound. -/
def name (expression : MediaExpression) : String :=
  match expression.bound with
  | some bound => bound.name ++ "-" ++ expression.feature
  | none => expression.feature

/-- The text of a test. -/
def text (expression : MediaExpression) : String :=
  match expression.value with
  | some value =>
    if value.isEmpty then "(" ++ expression.name ++ ")"
    else "(" ++ expression.name ++ ": " ++ value ++ ")"
  | none => "(" ++ expression.name ++ ")"

end MediaExpression

/-- A media query. -/
structure MediaQuery where
  inverse : Bool
  type : String
  expressions : List MediaExpression
  deriving DecidableEq, Repr

namespace MediaQuery

/-- The key of a media rule with some query text. -/
def keyOf (text : String) : String :=
  "@media " ++ text

end MediaQuery

end StyleObjects
