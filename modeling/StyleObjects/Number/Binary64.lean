/-!
# Binary floating point numbers

The numbers of the binary64 format and their arithmetic, carried out on integers: an operation
computes the exact result as a quotient and rounds it once, to the nearest number of the format and
to the even one of two that are equally near.
-/

namespace StyleObjects

/-- A binary64 number: `± significand · 2 ^ exponent`, an infinity, or the result of an operation
that has none.  A finite number is normalized: zero has exponent 0, and another number has the
least exponent, from `-1074` on, for which its significand is below `2 ^ 53`. -/
inductive Binary64 where
  | finite (negative : Bool) (significand : Nat) (exponent : Int)
  | infinite (negative : Bool)
  | undefined
  deriving DecidableEq, Repr

namespace Binary64

/-- Zero, with a sign. -/
def zero (negative : Bool) : Binary64 :=
  .finite negative 0 0

/-- The least exponent of a number. -/
def minExponent : Int := -1074

/-- The largest exponent of a number. -/
def maxExponent : Int := 971

/-- The quotient rounded to the nearest integer, to the even one of two. -/
def roundQuotient (numerator denominator : Nat) : Nat :=
  let quotient := numerator / denominator
  let rest := numerator % denominator
  if 2 * rest > denominator ∨ (2 * rest = denominator ∧ quotient % 2 = 1) then quotient + 1
  else quotient

/-- `value · 2 ^ exponent` as a quotient of integers. -/
def scaled (value : Nat) (exponent : Int) : Nat × Nat :=
  if 0 ≤ exponent then (value * Nat.pow 2 exponent.toNat, 1)
  else (value, Nat.pow 2 (-exponent).toNat)

/-- The `k` with `2 ^ k ≤ numerator / denominator < 2 ^ (k + 1)`, for a positive quotient. -/
def floorLog (numerator denominator : Nat) : Int :=
  let estimate : Int := (numerator.log2 : Int) - denominator.log2
  let power := scaled 1 estimate
  if power.1 * denominator ≤ numerator * power.2 then estimate else estimate - 1

/-- The number nearest to `± numerator / denominator`. -/
def ofQuotient (negative : Bool) (numerator denominator : Nat) : Binary64 :=
  if numerator = 0 then zero negative
  else
    let exponent := max (floorLog numerator denominator - 52) minExponent
    let unit := scaled 1 exponent
    let significand := roundQuotient (numerator * unit.2) (denominator * unit.1)
    if significand = 0 then zero negative
    else
      let carried := significand = Nat.pow 2 53
      let significand := if carried then Nat.pow 2 52 else significand
      let exponent := if carried then exponent + 1 else exponent
      if exponent > maxExponent then .infinite negative else .finite negative significand exponent

/-- The number nearest to an integer. -/
def ofInt (value : Int) : Binary64 :=
  ofQuotient (value < 0) value.natAbs 1

/-- The number nearest to `± mantissa · 10 ^ exponent`.  Powers of ten far outside the range of the
format are not computed: they overflow or vanish whatever the mantissa. -/
def ofDecimal (negative : Bool) (mantissa : Nat) (exponent : Int) : Binary64 :=
  if mantissa = 0 then zero negative
  else if 400 < exponent then .infinite negative
  else if exponent + (mantissa.log2 : Int) < -1500 then zero negative
  else if 0 ≤ exponent then ofQuotient negative (mantissa * Nat.pow 10 exponent.toNat) 1
  else ofQuotient negative mantissa (Nat.pow 10 (-exponent).toNat)

/-- The number is neither infinite nor undefined. -/
def isFinite : Binary64 → Bool
  | .finite .. => true
  | _ => false

/-- The number is a zero of either sign. -/
def isZero : Binary64 → Bool
  | .finite _ significand _ => significand == 0
  | _ => false

/-- The product of two numbers. -/
def mul : Binary64 → Binary64 → Binary64
  | .finite s m e, .finite t n f =>
    let exact := scaled (m * n) (e + f)
    ofQuotient (s != t) exact.1 exact.2
  | .undefined, _ => .undefined
  | _, .undefined => .undefined
  | .infinite s, .infinite t => .infinite (s != t)
  | .infinite s, .finite t n _ => if n = 0 then .undefined else .infinite (s != t)
  | .finite s m _, .infinite t => if m = 0 then .undefined else .infinite (s != t)

/-- The quotient of two numbers. -/
def div : Binary64 → Binary64 → Binary64
  | .finite s m e, .finite t n f =>
    if n = 0 then (if m = 0 then .undefined else .infinite (s != t))
    else
      let exact := scaled m (e - f)
      ofQuotient (s != t) exact.1 (exact.2 * n)
  | .undefined, _ => .undefined
  | _, .undefined => .undefined
  | .infinite _, .infinite _ => .undefined
  | .infinite s, .finite t _ _ => .infinite (s != t)
  | .finite s _ _, .infinite t => zero (s != t)

/-- The integer that a number lies at or beyond, seen from zero; none unless it is finite. -/
def truncate? : Binary64 → Option Int
  | .finite negative significand exponent =>
    let exact := scaled significand exponent
    let magnitude : Int := (exact.1 / exact.2 : Nat)
    some (if negative then -magnitude else magnitude)
  | _ => none

/-- The integer that a number is, if it is one. -/
def toInt? : Binary64 → Option Int
  | .finite negative significand exponent =>
    let exact := scaled significand exponent
    if exact.1 % exact.2 = 0 then (Binary64.finite negative significand exponent).truncate?
    else none
  | _ => none

/-- A finite number as an integer multiple of `2 ^ unit`, for a `unit` not above its exponent. -/
def multipleOf (unit : Int) (negative : Bool) (significand : Nat) (exponent : Int) : Int :=
  let magnitude : Int := (significand * Nat.pow 2 (exponent - unit).toNat : Nat)
  if negative then -magnitude else magnitude

/-- At most; an undefined number compares with none. -/
def le : Binary64 → Binary64 → Bool
  | .undefined, _ => false
  | _, .undefined => false
  | .infinite negative, .infinite other => negative || !other
  | .infinite negative, .finite .. => negative
  | .finite .., .infinite negative => !negative
  | .finite s m e, .finite t n f =>
    let unit := min e f
    multipleOf unit s m e ≤ multipleOf unit t n f

/-- Numerical equality, in which the two zeros are equal and an undefined number equals none. -/
def eq (left right : Binary64) : Bool :=
  left.le right && right.le left

end Binary64

end StyleObjects
