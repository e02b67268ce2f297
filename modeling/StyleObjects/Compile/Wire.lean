import StyleObjects.Compile.Output
import StyleObjects.Json.Printer

/-!
# The wire format

A renderer takes the whole output as one JSON object: styles by selector, media rules by their keys,
the queries of those, a mark for lengths of the viewport, and exported values.  An exported value
replaces anything else of its name.
-/

namespace StyleObjects

/-- A text or null. -/
def Json.ofText? : Option String → Json
  | some value => .text value
  | none => .null

/-- The JSON form of an expression. -/
def MediaExpression.toJson (expression : MediaExpression) : Json :=
  .object [
    ("modifier", .ofText? (expression.bound.map MediaBound.name)),
    ("feature", .text expression.feature),
    ("value", .ofText? expression.value)]

/-- The JSON form of a query. -/
def MediaQuery.toJson (query : MediaQuery) : Json :=
  .object [
    ("inverse", .bool query.inverse),
    ("type", .text query.type),
    ("expressions", .array (query.expressions.map MediaExpression.toJson))]

/-- The JSON form of styles. -/
def stylesToJson (styles : Styles) : Json :=
  (Value.ofStyles styles).toJson

/-- The JSON form of styles by selector. -/
def blockToJson (block : Table Styles) : Json :=
  .object (block.map stylesToJson).entries

namespace Output

/-- The name of the queries. -/
def queriesKey : String := "__mediaQueries"

/-- The name of the mark for lengths of the viewport. -/
def viewportKey : String := "__viewportUnits"

/-- The JSON form of the queries of media rules. -/
def queriesToJson (queries : Table (List MediaQuery)) : Json :=
  .object (queries.map fun list => .array (list.map MediaQuery.toJson)).entries

/-- The fields of the wire format, of which later ones replace earlier ones. -/
def wireFields (output : Output) : List (String × Json) :=
  (output.classes.map stylesToJson).entries
    ++ (output.media.map blockToJson).entries
    ++ (if output.queries.isEmpty then [] else [(queriesKey, queriesToJson output.queries)])
    ++ (if output.usesViewport then [(viewportKey, .bool true)] else [])
    ++ (output.exports.map Json.text).entries

/-- The wire format of an output. -/
def wire (output : Output) : Json :=
  .object (Table.ofList output.wireFields).entries

end Output

end StyleObjects
