import StyleObjects.Json.Basic
import StyleObjects.Number.Reading

/-!
# Reading JSON text

The text is cut into tokens, and a machine with a stack of the open arrays and objects builds the
value from them.  A number with a point or a power of ten is real, any other an integer.
-/

namespace StyleObjects.Json

/-- A piece of JSON text.  Strings, numbers and words are values already. -/
inductive Token where
  | openArray
  | closeArray
  | openObject
  | closeObject
  | comma
  | colon
  | leaf (value : Json)

namespace Token

/-- The value of a hexadecimal digit. -/
def hexValue? (c : Char) : Option Nat :=
  if '0' ≤ c ∧ c ≤ '9' then some (c.toNat - 48)
  else if 'a' ≤ c ∧ c ≤ 'f' then some (c.toNat - 87)
  else if 'A' ≤ c ∧ c ≤ 'F' then some (c.toNat - 55)
  else none

/-- The UTF-16 unit that four hexadecimal digits write. -/
def unit? (a b c d : Char) : Option Nat := do
  let a ← hexValue? a
  let b ← hexValue? b
  let c ← hexValue? c
  let d ← hexValue? d
  return ((a * 16 + b) * 16 + c) * 16 + d

/-- The character that a short escape stands for. -/
def shortEscape? : Char → Option Nat
  | '"' => some 34
  | '\\' => some 92
  | '/' => some 47
  | 'b' => some 8
  | 'f' => some 12
  | 'n' => some 10
  | 'r' => some 13
  | 't' => some 9
  | _ => none

/-- The units and code points of a string up to its closing quote, and the text after it. -/
def takeUnits? : List Char → Option (List Nat × List Char)
  | [] => none
  | '"' :: rest => some ([], rest)
  | '\\' :: 'u' :: a :: b :: c :: d :: rest =>
    (unit? a b c d).bind fun unit =>
      (takeUnits? rest).map fun (units, rest) => (unit :: units, rest)
  | '\\' :: c :: rest =>
    (shortEscape? c).bind fun unit =>
      (takeUnits? rest).map fun (units, rest) => (unit :: units, rest)
  | c :: rest => (takeUnits? rest).map fun (units, rest) => (c.toNat :: units, rest)

/-- Join surrogate pairs; a surrogate without its partner becomes the replacement character. -/
def joinSurrogates : List Nat → List Char
  | [] => []
  | [unit] => [if 0xD800 ≤ unit ∧ unit < 0xE000 then '\ufffd' else Char.ofNat unit]
  | high :: low :: rest =>
    if 0xD800 ≤ high ∧ high < 0xDC00 ∧ 0xDC00 ≤ low ∧ low < 0xE000 then
      Char.ofNat (0x10000 + (high - 0xD800) * 0x400 + (low - 0xDC00)) :: joinSurrogates rest
    else
      (if 0xD800 ≤ high ∧ high < 0xE000 then '\ufffd' else Char.ofNat high)
        :: joinSurrogates (low :: rest)

/-- The characters of numbers and words. -/
def isLeafChar (c : Char) : Bool :=
  c.isAlphanum || c == '-' || c == '+' || c == '.'

/-- The value that a number or a word writes. -/
def readLeaf? (cs : List Char) : Option Json :=
  let word := String.ofList cs
  if word = "null" then some .null
  else if word = "true" then some (.bool true)
  else if word = "false" then some (.bool false)
  else if word = "NaN" then some (.real .undefined)
  else if word = "Infinity" then some (.real (.infinite false))
  else if word = "-Infinity" then some (.real (.infinite true))
  else if cs.any fun c => c == '.' || c == 'e' || c == 'E' then
    (Number.readReal? word).map .real
  else
    let (negative, digits) := Numeral.takeSign cs
    if digits.isEmpty || !digits.all Char.isDigit then none
    else
      let magnitude : Int := Text.digitsValue digits
      some (.integer (if negative then -magnitude else magnitude))

/-- The token that a single character makes. -/
def punctuation? : Char → Option Token
  | '[' => some .openArray
  | ']' => some .closeArray
  | '\x7b' => some .openObject
  | '\x7d' => some .closeObject
  | ',' => some .comma
  | ':' => some .colon
  | _ => none

/-- The token at the start of a text that starts with no blank, and the text after it. -/
def take? : List Char → Option (Token × List Char)
  | [] => none
  | c :: rest =>
    match punctuation? c with
    | some token => some (token, rest)
    | none =>
      if c = '"' then
        (takeUnits? rest).map fun (units, rest) =>
          (.leaf (.text (String.ofList (joinSurrogates units))), rest)
      else if isLeafChar c then
        (readLeaf? (c :: rest.takeWhile isLeafChar)).map fun value =>
          (.leaf value, rest.dropWhile isLeafChar)
      else none

theorem length_of_takeUnits? {cs rest : List Char} {units : List Nat}
    (h : takeUnits? cs = some (units, rest)) : rest.length < cs.length := by
  fun_induction takeUnits? cs generalizing units <;>
    simp_all [Option.bind_eq_some_iff, Option.map_eq_some_iff]
  all_goals grind

theorem length_of_take? {cs rest : List Char} {token : Token}
    (h : take? cs = some (token, rest)) : rest.length < cs.length := by
  match cs with
  | [] => simp [take?] at h
  | c :: cs =>
    have shorter := (List.dropWhile_suffix isLeafChar (l := cs)).length_le
    simp only [take?] at h
    split at h
    · simp only [Option.some.injEq, Prod.mk.injEq] at h
      simp [← h.2]
    · split at h
      · obtain ⟨⟨units, after⟩, taken, h⟩ := Option.map_eq_some_iff.1 h
        have := length_of_takeUnits? taken
        simp only [Prod.mk.injEq] at h
        simp only [List.length_cons, ← h.2]
        omega
      · split at h
        · obtain ⟨value, _, h⟩ := Option.map_eq_some_iff.1 h
          simp only [Prod.mk.injEq] at h
          simp only [List.length_cons, ← h.2]
          omega
        · cases h

/-- White space between tokens. -/
def isSpace (c : Char) : Bool :=
  c == ' ' || c == '\t' || c == '\n' || c == '\r'

/-- All tokens of a text. -/
def readAll? (cs : List Char) : Option (List Token) :=
  if (cs.dropWhile isSpace).isEmpty then some []
  else
    match _found : take? (cs.dropWhile isSpace) with
    | some (token, rest) => (readAll? rest).map (token :: ·)
    | none => none
termination_by cs.length
decreasing_by
  have := length_of_take? _found
  have := (List.dropWhile_suffix isSpace (l := cs)).length_le
  omega

end Token

/-- An array or object that is still open. -/
inductive OpenPart where
  /-- An array with its items so far, the last one first. -/
  | array (items : List Json)
  /-- An object with its fields so far, the last one first, and the name of the next one. -/
  | object (fields : List (String × Json)) (name : String)

/-- What has just been read. -/
inductive Place where
  /-- Nothing, or a comma or colon: a value must follow. -/
  | before
  /-- The bracket that opens an array. -/
  | arrayStart
  /-- The brace that opens an object. -/
  | objectStart
  /-- A value. -/
  | after (value : Json)

/-- Build the value that tokens write, inside the parts that are open. -/
def build? : Place → List OpenPart → List Token → Option Json
  | .after value, [], [] => some value
  | .before, parts, .leaf value :: rest => build? (.after value) parts rest
  | .before, parts, .openArray :: rest => build? .arrayStart parts rest
  | .before, parts, .openObject :: rest => build? .objectStart parts rest
  | .arrayStart, parts, .closeArray :: rest => build? (.after (.array [])) parts rest
  | .arrayStart, parts, .leaf value :: rest => build? (.after value) (.array [] :: parts) rest
  | .arrayStart, parts, .openArray :: rest => build? .arrayStart (.array [] :: parts) rest
  | .arrayStart, parts, .openObject :: rest => build? .objectStart (.array [] :: parts) rest
  | .objectStart, parts, .closeObject :: rest => build? (.after (.object [])) parts rest
  | .objectStart, parts, .leaf (.text name) :: .colon :: rest =>
    build? .before (.object [] name :: parts) rest
  | .after value, .array items :: parts, .comma :: rest =>
    build? .before (.array (value :: items) :: parts) rest
  | .after value, .array items :: parts, .closeArray :: rest =>
    build? (.after (.array (value :: items).reverse)) parts rest
  | .after value, .object fields name :: parts, .comma :: .leaf (.text next) :: .colon :: rest =>
    build? .before (.object ((name, value) :: fields) next :: parts) rest
  | .after value, .object fields name :: parts, .closeObject :: rest =>
    build? (.after (.object ((name, value) :: fields).reverse)) parts rest
  | _, _, _ => none

/-- The value that a JSON text writes. -/
def parse? (s : String) : Option Json :=
  (Token.readAll? s.toList).bind (build? .before [])

end StyleObjects.Json
