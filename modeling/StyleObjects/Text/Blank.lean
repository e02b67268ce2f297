/-!
# White space

The blanks are the white space of all scripts together with the four information separators.  Text
is trimmed of them at its ends, and runs of them inside a text collapse to a single space.
-/

namespace StyleObjects.Text

/-- White space of any script, or one of the control characters that separate. -/
def isBlank (c : Char) : Bool :=
  let code := c.toNat
  (9 ≤ code && code ≤ 13) || (28 ≤ code && code ≤ 32) || code == 0x85 || code == 0xA0
    || code == 0x1680 || (0x2000 ≤ code && code ≤ 0x200A) || code == 0x2028 || code == 0x2029
    || code == 0x202F || code == 0x205F || code == 0x3000

/-- The text without the blanks at its start. -/
def skipBlanks (cs : List Char) : List Char :=
  cs.dropWhile isBlank

theorem length_skipBlanks (cs : List Char) : (skipBlanks cs).length ≤ cs.length :=
  (List.dropWhile_suffix isBlank).length_le

/-- The text without the blanks at its end. -/
def dropTrailingBlanks (cs : List Char) : List Char :=
  (cs.reverse.dropWhile isBlank).reverse

/-- The text without the blanks at its ends. -/
def trim (cs : List Char) : List Char :=
  dropTrailingBlanks (skipBlanks cs)

/-- The text with every run of blanks made one space. -/
def collapse : List Char → List Char
  | [] => []
  | c :: cs =>
    if isBlank c then
      if cs.head?.any isBlank then collapse cs else ' ' :: collapse cs
    else c :: collapse cs

/-- Every run of blanks made one space, and none at the ends. -/
def normalize (cs : List Char) : List Char :=
  trim (collapse cs)

/-- A string without the blanks at its ends. -/
def stripped (s : String) : String :=
  String.ofList (trim s.toList)

end StyleObjects.Text
