import StyleObjects.Number.Binary64
import StyleObjects.Stylesheet.Parser

/-!
# Causes of failure

Compiling a stylesheet stops at the first cause of failure.  Most causes are reported to the user
in words; a length that arithmetic takes out of the range of numbers is not among those.
-/

namespace StyleObjects

/-- Why a length cannot be converted. -/
inductive NumberFault where
  /-- The length is infinite. -/
  | infinite
  /-- The length is undefined. -/
  | undefined
  /-- The unit is given by an integer beyond the range of floating point numbers. -/
  | tooLarge
  /-- The unit is given by something else than a number. -/
  | notNumber
  deriving DecidableEq, Repr

/-- Why a stylesheet cannot be compiled. -/
inductive Error where
  /-- The text is no stylesheet from a position on. -/
  | unreadable (position : Position)
  /-- The renderer has no style for a declaration. -/
  | inexpressible (property value : String)
  /-- The text after `@media` is no list of queries. -/
  | mediaQuery (text : String)
  /-- The renderer knows no such media type. -/
  | mediaType (type : String)
  /-- The renderer knows no such media feature. -/
  | mediaFeature (name : String)
  /-- The value of a media feature is no length. -/
  | mediaExpression (expression : String)
  /-- The name of an exported value is the name of a class. -/
  | exportCollision (name : String)
  /-- A converted length is no number that can be written. -/
  | number (fault : NumberFault)
  deriving DecidableEq, Repr

/-- The words for why a length cannot be converted. -/
def NumberFault.message : NumberFault → String
  | .infinite => "cannot convert float infinity to integer"
  | .undefined => "cannot convert float NaN to integer"
  | .tooLarge => "int too large to convert to float"
  | .notNumber => "the size of the root font is no number"

/-- The words that report an error. -/
def Error.message : Error → String
  | .unreadable position =>
    "Invalid stylesheet at line " ++ toString position.line ++ ", column "
      ++ toString position.column
  | .inexpressible property value =>
    "Failed to parse declaration \"" ++ property ++ ": " ++ value ++ "\""
  | .mediaQuery text => "Invalid CSS media query \"" ++ text ++ "\""
  | .mediaType type => "Failed to parse media query type \"" ++ type ++ "\""
  | .mediaFeature name => "Failed to parse media query feature \"" ++ name ++ "\""
  | .mediaExpression expression =>
    "Failed to parse media query expression \"" ++ expression ++ "\""
  | .exportCollision name =>
    "Failed to parse :export block because a CSS class in the same file is already using the name "
      ++ "\"" ++ name ++ "\""
  | .number fault => fault.message

end StyleObjects
