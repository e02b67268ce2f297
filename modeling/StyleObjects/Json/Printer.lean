import StyleObjects.Json.Basic
import StyleObjects.Text.Quoted

/-!
# JSON text

A value is written on one line, with a space after every comma and colon, or over several lines
with an indentation for every level.  Only ASCII is written: all other characters, and the control
characters, are escaped as UTF-16 units.
-/

namespace StyleObjects.Json

open Text

/-- The escape of one UTF-16 unit. -/
def escapeUnit (unit : Nat) : List Char :=
  '\\' :: 'u' :: hexDigits 4 unit

/-- How a character stands in a string. -/
def escapeChar (c : Char) : List Char :=
  let code := c.toNat
  if c = '"' ∨ c = '\\' then ['\\', c]
  else if c = '\n' then ['\\', 'n']
  else if c = '\r' then ['\\', 'r']
  else if c = '\t' then ['\\', 't']
  else if code = 12 then ['\\', 'f']
  else if code = 8 then ['\\', 'b']
  else if 32 ≤ code ∧ code < 127 then [c]
  else if code < 0x10000 then escapeUnit code
  else escapeUnit (0xD800 + (code - 0x10000) / 0x400) ++ escapeUnit (0xDC00 + code % 0x400)

/-- A string between quotes. -/
def quotedText (s : String) : String :=
  String.ofList ('"' :: s.toList.flatMap escapeChar ++ ['"'])

/-- How the items of an array or the fields of an object are laid out. -/
inductive Layout where
  /-- All on one line. -/
  | compact
  /-- Each on a line of its own, indented by so many spaces for every level. -/
  | indented (width : Nat)
  deriving DecidableEq, Repr

namespace Layout

/-- The line break in front of an item at some level of nesting. -/
def lineBreak : Layout → Nat → String
  | .compact, _ => ""
  | .indented width, level => "\n" ++ String.ofList (List.replicate (width * level) ' ')

/-- What stands between two items. -/
def separator : Layout → Nat → String
  | .compact, _ => ", "
  | layout, level => "," ++ layout.lineBreak level

/-- Items between brackets; nothing stands between the brackets if there are no items. -/
def enclose (layout : Layout) (level : Nat) (opening closing : String) (items : List String) :
    String :=
  if items.isEmpty then opening ++ closing
  else
    opening ++ layout.lineBreak (level + 1) ++ (layout.separator (level + 1)).intercalate items
      ++ layout.lineBreak level ++ closing

end Layout

mutual

/-- The text of a value at some level of nesting. -/
def renderAt (layout : Layout) (level : Nat) : Json → String
  | .null => "null"
  | .bool value => if value then "true" else "false"
  | .integer value => toString value
  | .real value => value.textWith "Infinity" "NaN"
  | .text value => quotedText value
  | .array items => layout.enclose level "[" "]" (renderItems layout (level + 1) items)
  | .object fields =>
    layout.enclose level "\x7b" "\x7d" (renderFields layout (level + 1) fields)

/-- The texts of the items of an array. -/
def renderItems (layout : Layout) (level : Nat) : List Json → List String
  | [] => []
  | item :: items => renderAt layout level item :: renderItems layout level items

/-- The texts of the fields of an object. -/
def renderFields (layout : Layout) (level : Nat) : List (String × Json) → List String
  | [] => []
  | (name, value) :: fields =>
    (quotedText name ++ ": " ++ renderAt layout level value) :: renderFields layout level fields

end

/-- The text of a value. -/
def render (layout : Layout) (value : Json) : String :=
  renderAt layout 0 value

end StyleObjects.Json
