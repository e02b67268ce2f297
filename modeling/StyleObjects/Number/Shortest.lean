import StyleObjects.Number.Binary64

/-!
# Shortest decimal text

A finite number is written with the fewest digits that read back as the number, and of those the
nearest.  The decimal grids of one, two, … digits are tried in turn; on each, the two neighbours of
the number are the only candidates that need a look.
-/

namespace StyleObjects.Binary64

/-- A decimal `digits · 10 ^ exponent`. -/
structure Decimal where
  digits : Nat
  exponent : Int
  deriving DecidableEq, Repr

/-- `value · 10 ^ exponent` as a quotient of integers. -/
def scaledByTen (value : Nat) (exponent : Int) : Nat × Nat :=
  if 0 ≤ exponent then (value * Nat.pow 10 exponent.toNat, 1)
  else (value, Nat.pow 10 (-exponent).toNat)

/-- `10 ^ exponent` is at most the quotient. -/
def powerBelow (exponent : Int) (numerator denominator : Nat) : Bool :=
  let power := scaledByTen 1 exponent
  power.1 * denominator ≤ numerator * power.2

/-- The `k` with `10 ^ k ≤ numerator / denominator < 10 ^ (k + 1)`, for a positive quotient. -/
def floorLogTen (numerator denominator : Nat) : Int :=
  let estimate := (floorLog numerator denominator * 30103).fdiv 100000
  if powerBelow (estimate + 1) numerator denominator then estimate + 1
  else if powerBelow estimate numerator denominator then estimate
  else estimate - 1

/-- The neighbour of `numerator / denominator` on the grid of the multiples of `10 ^ exponent` that
reads back as `number`; if both do, the nearer one, and the even one of two equally near. -/
def onGrid? (number : Binary64) (numerator denominator : Nat) (exponent : Int) : Option Decimal :=
  let cell := scaledByTen 1 exponent
  let top := numerator * cell.2
  let bottom := denominator * cell.1
  let below := top / bottom
  let readsBack (digits : Nat) : Bool := ofDecimal false digits exponent = number
  match readsBack below, readsBack (below + 1) with
  | true, true => some ⟨roundQuotient top bottom, exponent⟩
  | true, false => some ⟨below, exponent⟩
  | false, true => some ⟨below + 1, exponent⟩
  | false, false => none

/-- All digits of `significand · 2 ^ exponent`. -/
def allDigits (significand : Nat) (exponent : Int) : Decimal :=
  if 0 ≤ exponent then ⟨significand * Nat.pow 2 exponent.toNat, 0⟩
  else ⟨significand * Nat.pow 5 (-exponent).toNat, exponent⟩

/-- The shortest decimal that reads back as the positive number `significand · 2 ^ exponent`.
Seventeen digits are always enough; all digits would be, too. -/
def shortest (significand : Nat) (exponent : Int) : Decimal :=
  let exact := scaled significand exponent
  let magnitude := floorLogTen exact.1 exact.2
  let number := finite false significand exponent
  ((List.range 17).findSome? fun (places : Nat) =>
    onGrid? number exact.1 exact.2 (magnitude - places)).getD (allDigits significand exponent)

/-- The digits without trailing zeros. -/
def significantDigits (decimal : Decimal) : List Char :=
  ((Nat.toDigits 10 decimal.digits).reverse.dropWhile (· == '0')).reverse

/-- The power of ten of the first digit. -/
def Decimal.magnitude (decimal : Decimal) : Int :=
  decimal.exponent + (Nat.toDigits 10 decimal.digits).length - 1

/-- The digits around a point, or with a zero on the side of the point that has none. -/
def positional (digits : List Char) (magnitude : Int) : List Char :=
  if magnitude < 0 then
    '0' :: '.' :: List.replicate (-magnitude - 1).toNat '0' ++ digits
  else
    let whole := magnitude.toNat + 1
    let padded := digits ++ List.replicate (whole - digits.length) '0'
    let fraction := padded.drop whole
    padded.take whole ++ '.' :: (if fraction.isEmpty then ['0'] else fraction)

/-- The digits with a point after the first and a signed power of ten of at least two digits. -/
def scientific (digits : List Char) (magnitude : Int) : List Char :=
  let power := Nat.toDigits 10 magnitude.natAbs
  let mantissa := match digits with
    | first :: second :: rest => first :: '.' :: second :: rest
    | short => short
  mantissa ++ 'e' :: (if magnitude < 0 then '-' else '+')
    :: (if power.length < 2 then '0' :: power else power)

/-- The text of a positive number: positional from `10 ^ -4` up to `10 ^ 16`. -/
def digitsText (significand : Nat) (exponent : Int) : List Char :=
  let decimal := shortest significand exponent
  let digits := significantDigits decimal
  let magnitude := decimal.magnitude
  if -4 ≤ magnitude ∧ magnitude < 16 then positional digits magnitude
  else scientific digits magnitude

/-- The text of a finite number. -/
def finiteText (negative : Bool) (significand : Nat) (exponent : Int) : String :=
  let digits := if significand = 0 then ['0', '.', '0'] else digitsText significand exponent
  String.ofList (if negative then '-' :: digits else digits)

/-- The text of a number, with the given words for infinity and for an undefined result. -/
def textWith (infinity undefinedWord : String) : Binary64 → String
  | .finite negative significand exponent => finiteText negative significand exponent
  | .infinite negative => if negative then "-" ++ infinity else infinity
  | .undefined => undefinedWord

/-- The text of a number. -/
def text : Binary64 → String :=
  textWith "inf" "nan"

end StyleObjects.Binary64
