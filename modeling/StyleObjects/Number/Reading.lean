import StyleObjects.Number.Numeral
import StyleObjects.Text.Blank
import StyleObjects.Text.Case

/-!
# Numbers read from whole texts

Numbers given by a user, on the command line or in an environment, may have spacing around them and
single underscores between their digits.  A real number may also lack digits on one side of its
point, or be an infinity or undefined.
-/

namespace StyleObjects.Number

open Text

/-- The white space that may surround a number: blanks other than the information separators. -/
def isSpacing (c : Char) : Bool :=
  isBlank c && !(28 ≤ c.toNat && c.toNat ≤ 31)

/-- The text without the spacing around it. -/
def withoutSpacing (cs : List Char) : List Char :=
  ((cs.dropWhile isSpacing).reverse.dropWhile isSpacing).reverse

/-- The text without its underscores, if each stands between two digits; `afterDigit` tells whether
a digit comes before the text. -/
def withoutUnderscores? : Bool → List Char → Option (List Char)
  | _, [] => some []
  | afterDigit, c :: cs =>
    if c = '_' then
      if afterDigit && cs.head?.any isDecimalDigit then withoutUnderscores? false cs else none
    else (withoutUnderscores? (isDecimalDigit c) cs).map (c :: ·)

/-- Texts of integers with more digits than this are not read. -/
def maxIntegerDigits : Nat := 4300

/-- The integer that a text writes. -/
def readInteger? (s : String) : Option Int :=
  let (negative, body) := Numeral.takeSign (withoutSpacing s.toList)
  (withoutUnderscores? false body).bind fun digits =>
    if digits.isEmpty || !digits.all isDecimalDigit || digits.length > maxIntegerDigits then none
    else
      let magnitude : Int := digitsValue digits
      some (if negative then -magnitude else magnitude)

/-- The unsigned real number that a text without spacing and underscores writes. -/
def readUnsigned? (negative : Bool) (cs : List Char) : Option Binary64 :=
  let (whole, rest) := Numeral.takeDigits cs
  let (fraction, rest) := match rest with
    | '.' :: rest => Numeral.takeDigits rest
    | rest => ([], rest)
  if whole.isEmpty && fraction.isEmpty then none
  else
    let ((powerNegative, power), rest) := Numeral.takePower rest
    if rest.isEmpty then
      some ((⟨whole, fraction, powerNegative, power⟩ : Numeral).toBinary64 negative)
    else none

/-- The number that a word names, letter case aside. -/
def readWord? (negative : Bool) (cs : List Char) : Option Binary64 :=
  let word := String.ofList (cs.map Char.toLower)
  if word = "inf" ∨ word = "infinity" then some (.infinite negative)
  else if word = "nan" then some .undefined
  else none

/-- The real number that a text writes. -/
def readReal? (s : String) : Option Binary64 :=
  (withoutUnderscores? false (withoutSpacing s.toList)).bind fun cs =>
    let (negative, body) := Numeral.takeSign cs
    (readWord? negative body).orElse fun _ => readUnsigned? negative body

end StyleObjects.Number
