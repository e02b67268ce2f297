import StyleObjects.Json.Basic
import StyleObjects.Style.Rem
import StyleObjects.Table

/-!
# Options

Keyframes, media rules and part selectors are compiled only where they are asked for.  Selectors
that a predicate names are left out, and root font sizes have a number of pixels.
-/

namespace StyleObjects

/-- What is compiled, and how. -/
structure Options where
  keyframes : Bool := false
  mediaQueries : Bool := false
  partSelectors : Bool := false
  ignores : String → Bool := fun _ => false
  remSize : RemSize := .ok (.ofInt 16)

namespace Options

/-- A setting that is on unless it is nothing, false, zero or empty. -/
def isOn : Json → Bool
  | .null => false
  | .bool value => value
  | .integer value => value != 0
  | .real value => !value.isZero
  | .text value => !value.isEmpty
  | .array items => !items.isEmpty
  | .object fields => !fields.isEmpty

/-- The root font size of a setting. -/
def remSizeOf : Json → RemSize
  | .integer value =>
    let size := Binary64.ofInt value
    if size.isFinite then .ok size else .error .tooLarge
  | .real value => .ok value
  | .bool value => .ok (.ofInt (if value then 1 else 0))
  | _ => .error .notNumber

/-- Apply a named setting.  Names may be written with underscores or with inner capitals; others
have no meaning. -/
def set (options : Options) (name : String) (value : Json) : Options :=
  match name with
  | "parse_keyframes" | "parseKeyframes" => { options with keyframes := isOn value }
  | "parse_media_queries" | "parseMediaQueries" => { options with mediaQueries := isOn value }
  | "parse_part_selectors" | "parsePartSelectors" => { options with partSelectors := isOn value }
  | "rem_size" | "remSize" => { options with remSize := remSizeOf value }
  | _ => options

/-- The options of named settings.  Of two names for one option the later one counts. -/
def ofSettings (settings : Table Json) : Options :=
  settings.entries.foldl (fun options setting => options.set setting.1 setting.2) {}

end Options

end StyleObjects
