import StyleObjects.Number.Shortest

/-!
# JSON values

A JSON value keeps what its text says of a number: an integer of any size, or a real number.  An
object keeps its fields in order.
-/

namespace StyleObjects

/-- A JSON value. -/
inductive Json where
  | null
  | bool (value : Bool)
  | integer (value : Int)
  | real (value : Binary64)
  | text (value : String)
  | array (items : List Json)
  | object (fields : List (String × Json))
  deriving Repr

namespace Json

instance : Inhabited Json := ⟨.null⟩

/-- The value of a field of an object. -/
def field? : Json → String → Option Json
  | .object fields, name => fields.lookup name
  | _, _ => none

end Json

end StyleObjects
