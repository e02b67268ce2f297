import StyleObjects.Media.Query
import StyleObjects.Proofs.Stylesheet.Written

/-!
# Written media queries

A query is written with single spaces between its words, and a list of queries with a space after
every comma.  A query is canonical if its words can be told apart: names are in lower case, and no
value has a parenthesis, a comma, or the word `and`.
-/

namespace StyleObjects

open Text
open Stylesheet (isLowerName)

/-- The text of a query: `not` if it is negated, its type, and `and` before every expression. -/
def MediaQuery.text (query : MediaQuery) : String :=
  (if query.inverse then "not " else "") ++ query.type ++
    String.join (query.expressions.map fun expression => " and " ++ expression.text)

/-- The text of a list of queries. -/
def MediaQuery.listText (queries : List MediaQuery) : String :=
  ", ".intercalate (queries.map text)

/-! ## Canonical queries -/

/-- A word is `and`, whatever the case of its letters. -/
def Text.isAnd (word : List Char) : Bool :=
  word.map Char.toLower == ['a', 'n', 'd']

/-- One of the words between the blanks of a text is `and`. -/
def Text.hasAnd (cs : List Char) : Bool :=
  (cs.splitOnP isBlank).any isAnd

namespace MediaExpression

/-- A canonical value: neither empty nor with blanks at its ends. -/
def isValue (cs : List Char) : Bool :=
  cs.head?.any (!isBlank ·) && cs.getLast?.any (!isBlank ·)
    && cs.all (fun c => !(['(', ')', ','].contains c)) && !hasAnd cs

/-- A feature that does not start as one with a bound does. -/
def isUnbounded (feature : List Char) : Bool :=
  !"min-".toList.isPrefixOf feature && !"max-".toList.isPrefixOf feature

/-- A canonical expression. -/
def isCanonical (expression : MediaExpression) : Bool :=
  isLowerName (fun c => c == '_' || c == '-') expression.name.toList
    && (expression.bound.isSome || isUnbounded expression.feature.toList)
    && expression.value.all (isValue ·.toList)

end MediaExpression

/-- A canonical query.  Its type may be a word of the grammar. -/
def MediaQuery.isCanonical (query : MediaQuery) : Bool :=
  isLowerName (· == '_') query.type.toList && query.expressions.all MediaExpression.isCanonical

end StyleObjects
