import StyleObjects.Error
import StyleObjects.Number.Numeral
import StyleObjects.Number.Shortest
import StyleObjects.Text.Word

/-!
# Lengths in root font sizes

A length in `rem` is written in pixels wherever it stands in a value, given the number of pixels in
a root font size.  The length must stand alone: no word character or point before it, and no word
character after it.  A root font size that is no number matters only where a length needs it.
-/

namespace StyleObjects

/-- The number of pixels in a root font size, or why there is none. -/
abbrev RemSize := Except NumberFault Binary64

namespace Rem

open Text

/-- The number of root font sizes at the start of a text, and the text after the unit. -/
def take? (cs : List Char) : Option (Numeral × List Char) :=
  match Numeral.takeUnsigned? cs with
  | some (number, 'r' :: 'e' :: 'm' :: rest) =>
    if rest.head?.any isWord then none else some (number, rest)
  | _ => none

/-- The text of a number: all digits of an integral one, the shortest text of any other. -/
def numberText (number : Binary64) : Except NumberFault (List Char) :=
  match number with
  | .undefined => .error .undefined
  | .infinite _ => .error .infinite
  | number =>
    match number.toInt? with
    | some value => .ok (toString value).toList
    | none => .ok number.text.toList

/-- So many root font sizes in pixels. -/
def pixels (size : RemSize) (number : Numeral) : Except NumberFault (List Char) := do
  let text ← numberText ((number.toBinary64 false).mul (← size))
  return text ++ ['p', 'x']

/-- May not stand right before a length. -/
def joins (c : Char) : Bool :=
  isWord c || c == '.'

theorem length_of_take? {cs rest : List Char} {number : Numeral}
    (h : take? cs = some (number, rest)) : rest.length < cs.length := by
  unfold take? at h
  split at h
  · rename_i found
    have shorter := Numeral.length_of_takeUnsigned? found
    simp only [Option.ite_none_left_eq_some, Option.some.injEq, Prod.mk.injEq] at h
    simp only [List.length_cons, h.2.2] at shorter
    omega
  · cases h

/-- Write all lengths of a text in pixels; `joined` tells whether the character before the text
keeps a length from starting. -/
def convert (size : RemSize) (joined : Bool) (cs : List Char) : Except NumberFault (List Char) :=
  match cs with
  | [] => .ok []
  | c :: cs =>
    match _found : if joined then none else take? (c :: cs) with
    | some (number, rest) => do
      let length ← pixels size number
      return length ++ (← convert size true rest)
    | none => return c :: (← convert size (joins c) cs)
termination_by cs.length
decreasing_by
  · split at _found
    · cases _found
    · have := length_of_take? _found
      simpa using this
  · simp

/-- A value with its lengths in pixels. -/
def toPixels (size : RemSize) (value : String) : Except NumberFault String :=
  (convert size false value.toList).map String.ofList

end Rem

end StyleObjects
