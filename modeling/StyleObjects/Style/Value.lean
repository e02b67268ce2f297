import StyleObjects.Json.Basic
import StyleObjects.Table

/-!
# Values of styles

A style object maps keys to values.  Most values are scalars: a number or a text.  Shadows,
transforms and bound animations also have lists and nested maps.
-/

namespace StyleObjects

/-- A value without parts. -/
inductive Scalar where
  | integer (value : Int)
  | real (value : Binary64)
  | text (value : String)
  deriving DecidableEq, Repr

/-- The value of a style. -/
inductive Value where
  | scalar (scalar : Scalar)
  | list (items : List Value)
  | map (entries : List (String × Value))
  deriving Repr

/-- A style object: values by key. -/
abbrev Styles := Table Value

/-- The frames of an animation: styles by position. -/
abbrev Frames := Table Styles

namespace Scalar

/-- Integral numbers below this magnitude are integers. -/
def integerLimit : Nat := 1000000000000000

/-- The scalar of a number: an integer if it is integral and not too large. -/
def ofNumber (number : Binary64) : Scalar :=
  match number.toInt? with
  | some value => if value.natAbs < integerLimit then .integer value else .real number
  | none => .real number

end Scalar

namespace Value

/-- The value of an integer. -/
def integer (value : Int) : Value :=
  .scalar (.integer value)

/-- The value of a text. -/
def text (value : String) : Value :=
  .scalar (.text value)

/-- The value of a number. -/
def ofNumber (number : Binary64) : Value :=
  .scalar (.ofNumber number)

/-- The value of a table of values. -/
def ofStyles (styles : Styles) : Value :=
  .map styles.entries

/-- The value of the frames of an animation. -/
def ofFrames (frames : Frames) : Value :=
  .map (frames.map ofStyles).entries

mutual

/-- Values are equal or not. -/
def decideEq : (left right : Value) → Decidable (left = right)
  | .scalar left, .scalar right =>
    if same : left = right then isTrue (by rw [same]) else isFalse (by simpa using same)
  | .list left, .list right =>
    match decideEqList left right with
    | isTrue same => isTrue (by rw [same])
    | isFalse different => isFalse (by simpa using different)
  | .map left, .map right =>
    match decideEqEntries left right with
    | isTrue same => isTrue (by rw [same])
    | isFalse different => isFalse (by simpa using different)
  | .scalar _, .list _ | .scalar _, .map _ | .list _, .scalar _ | .list _, .map _
  | .map _, .scalar _ | .map _, .list _ => isFalse (by simp)

/-- Lists of values are equal or not. -/
def decideEqList : (left right : List Value) → Decidable (left = right)
  | [], [] => isTrue rfl
  | left :: lefts, right :: rights =>
    match decideEq left right, decideEqList lefts rights with
    | isTrue head, isTrue tail => isTrue (by rw [head, tail])
    | isFalse different, _ => isFalse (by simp [different])
    | _, isFalse different => isFalse (by simp [different])
  | [], _ :: _ | _ :: _, [] => isFalse (by simp)

/-- Lists of entries are equal or not. -/
def decideEqEntries : (left right : List (String × Value)) → Decidable (left = right)
  | [], [] => isTrue rfl
  | (name, left) :: lefts, (other, right) :: rights =>
    if named : name = other then
      match decideEq left right, decideEqEntries lefts rights with
      | isTrue head, isTrue tail => isTrue (by rw [named, head, tail])
      | isFalse different, _ => isFalse (by simp [different])
      | _, isFalse different => isFalse (by simp [different])
    else isFalse (by simp [named])
  | [], _ :: _ | _ :: _, [] => isFalse (by simp)

end

instance : DecidableEq Value := decideEq

mutual

/-- The JSON form of a value. -/
def toJson : Value → Json
  | .scalar (.integer value) => .integer value
  | .scalar (.real value) => .real value
  | .scalar (.text value) => .text value
  | .list items => .array (toJsonList items)
  | .map entries => .object (toJsonFields entries)

/-- The JSON forms of the values of a list. -/
def toJsonList : List Value → List Json
  | [] => []
  | item :: items => item.toJson :: toJsonList items

/-- The JSON forms of the values of entries. -/
def toJsonFields : List (String × Value) → List (String × Json)
  | [] => []
  | (name, value) :: entries => (name, value.toJson) :: toJsonFields entries

end

end Value

end StyleObjects
