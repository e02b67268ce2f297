import StyleObjects.Number.Binary64
import StyleObjects.Text.DecimalDigit

/-!
# Numerals

A numeral is an optional sign, digits with an optional point before at least one of them, and an
optional power of ten.  Reading one takes the longest numeral at the start of a text: after the
digits a point belongs to it only if a digit follows, and so does an `e`.
-/

namespace StyleObjects

open Text

/-- A numeral without its sign: the digits before and after the point, and the power of ten. -/
structure Numeral where
  whole : List Char
  fraction : List Char
  powerNegative : Bool := false
  power : List Char := []
  deriving DecidableEq, Repr

namespace Numeral

/-- Take the sign at the start of a text: whether it is negative, and the text after it. -/
def takeSign : List Char → Bool × List Char
  | '-' :: rest => (true, rest)
  | '+' :: rest => (false, rest)
  | rest => (false, rest)

/-- The digits at the start of a text and the text after them. -/
def takeDigits (cs : List Char) : List Char × List Char :=
  (cs.takeWhile isDecimalDigit, cs.dropWhile isDecimalDigit)

/-- The digits before and after the point at the start of a text; a point that no digit follows is
left. -/
def takeMantissa? (cs : List Char) : Option ((List Char × List Char) × List Char) :=
  let (whole, rest) := takeDigits cs
  let plain := if whole.isEmpty then none else some ((whole, []), rest)
  match rest with
  | '.' :: rest =>
    let (fraction, rest) := takeDigits rest
    if fraction.isEmpty then plain else some ((whole, fraction), rest)
  | _ => plain

/-- The power of ten at the start of a text: its sign, its digits, and the text after it.  It is
empty unless there is an `e` with a digit after it. -/
def takePower (cs : List Char) : (Bool × List Char) × List Char :=
  match cs with
  | e :: rest =>
    if e = 'e' ∨ e = 'E' then
      let (negative, rest) := takeSign rest
      let (digits, rest) := takeDigits rest
      if digits.isEmpty then ((false, []), cs) else ((negative, digits), rest)
    else ((false, []), cs)
  | [] => ((false, []), cs)

/-- The unsigned numeral at the start of a text and the text after it. -/
def takeUnsigned? (cs : List Char) : Option (Numeral × List Char) :=
  (takeMantissa? cs).map fun ((whole, fraction), rest) =>
    let ((powerNegative, power), rest) := takePower rest
    (⟨whole, fraction, powerNegative, power⟩, rest)

/-- The unsigned numeral without a power of ten at the start of a text. -/
def takePlain? (cs : List Char) : Option (Numeral × List Char) :=
  (takeMantissa? cs).map fun ((whole, fraction), rest) => (⟨whole, fraction, false, []⟩, rest)

theorem length_takeDigits (cs : List Char) : (takeDigits cs).2.length ≤ cs.length :=
  (List.dropWhile_suffix isDecimalDigit).length_le

theorem length_of_takeMantissa? {cs rest : List Char} {parts : List Char × List Char}
    (h : takeMantissa? cs = some (parts, rest)) : rest.length ≤ cs.length := by
  have whole := length_takeDigits cs
  simp only [takeMantissa?] at h
  split at h
  · rename_i after found
    have fraction := length_takeDigits after
    rw [found, List.length_cons] at whole
    split at h
    · split at h
      · cases h
      · simp only [Option.some.injEq, Prod.mk.injEq] at h
        rw [← h.2, found, List.length_cons]
        omega
    · simp only [Option.some.injEq, Prod.mk.injEq] at h
      rw [← h.2]
      omega
  · split at h
    · cases h
    · simp only [Option.some.injEq, Prod.mk.injEq] at h
      rw [← h.2]
      exact whole

theorem length_takeSign (cs : List Char) : (takeSign cs).2.length ≤ cs.length := by
  fun_cases takeSign cs <;> simp

theorem length_takePower (cs : List Char) : (takePower cs).2.length ≤ cs.length := by
  unfold takePower
  split
  · rename_i e rest
    have sign := length_takeSign rest
    have digits := length_takeDigits (takeSign rest).2
    dsimp only
    split
    · split
      · exact Nat.le_refl _
      · simp only [List.length_cons]
        omega
    · exact Nat.le_refl _
  · exact Nat.le_refl _

theorem length_of_takeUnsigned? {cs rest : List Char} {numeral : Numeral}
    (h : takeUnsigned? cs = some (numeral, rest)) : rest.length ≤ cs.length := by
  simp only [takeUnsigned?, Option.map_eq_some_iff] at h
  obtain ⟨⟨⟨whole, fraction⟩, after⟩, mantissa, same⟩ := h
  have := length_of_takeMantissa? mantissa
  have power := length_takePower after
  simp only [Prod.mk.injEq] at same
  rw [same.2] at power
  omega

/-- The power of ten as a number. -/
def powerValue (numeral : Numeral) : Int :=
  let magnitude : Int := digitsValue numeral.power
  if numeral.powerNegative then -magnitude else magnitude

/-- The number nearest to what a numeral with a sign writes. -/
def toBinary64 (numeral : Numeral) (negative : Bool) : Binary64 :=
  .ofDecimal negative (digitsValue (numeral.whole ++ numeral.fraction))
    (numeral.powerValue - numeral.fraction.length)

end Numeral

/-- A numeral with its sign. -/
structure SignedNumeral where
  negative : Bool
  numeral : Numeral
  deriving DecidableEq, Repr

namespace SignedNumeral

/-- The signed numeral at the start of a text and the text after it. -/
def take? (cs : List Char) : Option (SignedNumeral × List Char) :=
  let (negative, rest) := Numeral.takeSign cs
  (Numeral.takeUnsigned? rest).map fun (numeral, rest) => (⟨negative, numeral⟩, rest)

/-- The signed numeral without a power of ten at the start of a text. -/
def takePlain? (cs : List Char) : Option (SignedNumeral × List Char) :=
  let (negative, rest) := Numeral.takeSign cs
  (Numeral.takePlain? rest).map fun (numeral, rest) => (⟨negative, numeral⟩, rest)

/-- The number nearest to what a signed numeral writes. -/
def toBinary64 (signed : SignedNumeral) : Binary64 :=
  signed.numeral.toBinary64 signed.negative

end SignedNumeral

end StyleObjects
