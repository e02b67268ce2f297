import StyleObjects.Json.Printer
import StyleObjects.Json.Reader
import StyleObjects.Proofs.Number.RoundTrip
import StyleObjects.Proofs.Number.Whole

/-!
# Numbers and words of JSON text

The text of a number, an integer or a word is a run of leaf characters, which is read back as what it
is the text of.
-/

namespace StyleObjects

open Text

/-! ## The text of a numeral -/

namespace Numeral

/-- May stand in the text of a plain numeral with a sign. -/
def isTextChar (c : Char) : Bool :=
  c.isDigit || c == '.' || c == 'e' || c == '+' || c == '-'

/-- The text of a numeral after the sign of a negative number. -/
def signedText (negative : Bool) (numeral : Numeral) : List Char :=
  (if negative then ['-'] else []) ++ numeral.text

variable {numeral : Numeral}

theorem IsPlain.all_isTextChar (plain : numeral.IsPlain) (negative : Bool) :
    (numeral.signedText negative).all isTextChar = true := by
  have digits : ∀ {digits : List Char}, digits.all Char.isDigit = true →
      digits.all isTextChar = true := fun ascii =>
    List.all_eq_true.mpr fun c member => by
      simp [isTextChar, List.all_eq_true.mp ascii c member]
  simp only [signedText, text, List.all_append, Bool.and_eq_true]
  refine ⟨by cases negative <;> rfl, digits plain.whole, ?_, ?_⟩
  · split
    · rfl
    · simp [digits plain.fraction, isTextChar]
  · split
    · rfl
    · cases numeral.powerNegative <;> simp [digits plain.power, isTextChar]

/-- The text of a plain numeral starts with a digit. -/
theorem IsPlain.exists_cons (plain : numeral.IsPlain) :
    ∃ first rest, numeral.text = first :: rest ∧ first.isDigit = true := by
  rcases List.exists_cons_of_ne_nil plain.filled with ⟨first, rest, whole⟩
  have ascii := plain.whole
  rw [whole, List.all_cons, Bool.and_eq_true] at ascii
  exact ⟨first, _, by rw [text, whole, List.cons_append], ascii.1⟩

theorem IsPlain.takeSign_signedText (plain : numeral.IsPlain) (negative : Bool) :
    takeSign (numeral.signedText negative) = (negative, numeral.text) := by
  cases negative with
  | true => rfl
  | false =>
      rcases plain.exists_cons with ⟨first, rest, same, digit⟩
      simp only [signedText, Bool.false_eq_true, if_false, List.nil_append, same]
      unfold takeSign
      split
      · rename_i start
        cases start
        cases digit
      · rename_i start
        cases start
        cases digit
      · rfl

/-- The numeral of a natural number. -/
def ofNat (value : Nat) : Numeral := ⟨Nat.toDigits 10 value, [], false, []⟩

theorem text_ofNat (value : Nat) : (ofNat value).text = Nat.toDigits 10 value := by
  simp [text, ofNat]

theorem isPlain_ofNat (value : Nat) : (ofNat value).IsPlain where
  whole := all_isDigit_toDigits value
  filled := Nat.toDigits_ne_nil
  lead zero := by
    by_cases none : value = 0
    · subst none
      rfl
    · exact absurd zero (head?_toDigits none)
  fraction := rfl
  power := rfl
  unsigned _ := rfl

/-- The text of an integer is that of a numeral with a sign. -/
theorem toList_toString (value : Int) :
    (toString value).toList = (ofNat value.natAbs).signedText (value < 0) := by
  rw [Int.toString_eq_repr, Int.repr_eq_if, signedText, text_ofNat]
  split
  · rename_i natural
    rw [if_neg (by simpa using natural), Nat.toList_repr, List.nil_append]
    congr
    omega
  · rename_i negative
    rw [if_pos (by simpa using negative), String.toList_append, Nat.toList_repr]
    congr
    omega

end Numeral

/-! ## Real numbers -/

namespace Number

/-- The text of a plain numeral with a sign is read back as the numeral. -/
theorem readReal?_signedText {numeral : Numeral} (plain : numeral.IsPlain) (negative : Bool) :
    readReal? (String.ofList (numeral.signedText negative)) =
      some (numeral.toBinary64 negative) := by
  have sign : Numeral.WritesSign negative (if negative then ['-'] else []) := by
    cases negative with
    | false => exact .absent
    | true => exact .minus
  exact readReal?_of_writes sign plain.writes

end Number

/-! ## Leaves -/

namespace Json.Token

theorem isLeafChar_of_isTextChar {c : Char} (written : Numeral.isTextChar c = true) :
    isLeafChar c = true := by
  simp only [Numeral.isTextChar, Bool.or_eq_true, beq_iff_eq] at written
  rcases written with (((digit | rfl) | rfl) | rfl) | rfl
  · simp [isLeafChar, Char.isAlphanum, digit]
  all_goals decide

/-- The characters of a plain numeral spell none of the words. -/
theorem readLeaf?_of_all {cs : List Char} (written : cs.all Numeral.isTextChar = true) :
    readLeaf? cs =
      if cs.any fun c => c == '.' || c == 'e' || c == 'E' then
        (Number.readReal? (String.ofList cs)).map .real
      else
        let (negative, digits) := Numeral.takeSign cs
        if digits.isEmpty || !digits.all Char.isDigit then none
        else
          let magnitude : Int := digitsValue digits
          some (.integer (if negative then -magnitude else magnitude)) := by
  have other : ∀ word : String, word.toList.all Numeral.isTextChar = false →
      String.ofList cs ≠ word := by
    intro word strange same
    rw [← same, String.toList_ofList, written] at strange
    cases strange
  simp only [readLeaf?]
  rw [if_neg (other "null" rfl), if_neg (other "true" rfl), if_neg (other "false" rfl),
    if_neg (other "NaN" rfl), if_neg (other "Infinity" rfl), if_neg (other "-Infinity" rfl)]

/-- The text of a plain numeral with a sign is read as a real number if there is a point or a power
of ten. -/
theorem readLeaf?_signedText {numeral : Numeral} (plain : numeral.IsPlain) (real : numeral.IsReal)
    (negative : Bool) :
    readLeaf? (numeral.signedText negative) = some (.real (numeral.toBinary64 negative)) := by
  rw [readLeaf?_of_all (plain.all_isTextChar negative), if_pos, Number.readReal?_signedText plain]
  · rfl
  · rcases real with pointed | powered
    · simp [Numeral.signedText, Numeral.text, pointed]
    · simp [Numeral.signedText, Numeral.text, powered]

/-- The text of an integer is read as the integer. -/
theorem readLeaf?_integer (value : Int) :
    readLeaf? (toString value).toList = some (.integer value) := by
  have plain := Numeral.isPlain_ofNat value.natAbs
  have ascii := all_isDigit_toDigits value.natAbs
  have pointless : ∀ c ∈ (Numeral.ofNat value.natAbs).signedText (value < 0),
      ¬(c == '.' || c == 'e' || c == 'E') = true := by
    intro c member mark
    simp only [Bool.or_eq_true, beq_iff_eq] at mark
    simp only [Numeral.signedText, Numeral.text_ofNat, List.mem_append] at member
    rcases member with sign | inside
    · split at sign
      · rw [List.mem_singleton.mp sign] at mark
        exact absurd mark (by decide)
      · cases sign
    · have digit := List.all_eq_true.mp ascii c inside
      rcases mark with (rfl | rfl) | rfl <;> cases digit
  rw [Numeral.toList_toString, readLeaf?_of_all (plain.all_isTextChar _),
    if_neg (by simpa using pointless), plain.takeSign_signedText, Numeral.text_ofNat]
  have filled : (Nat.toDigits 10 value.natAbs).isEmpty = false :=
    List.isEmpty_eq_false_iff.mpr Nat.toDigits_ne_nil
  simp only [filled, ascii, Bool.not_true, Bool.or_self, Bool.false_eq_true, if_false,
    digitsValue_toDigits, decide_eq_true_eq]
  congr 2
  split <;> omega

/-- The text of a number in normal form is read as the number. -/
theorem readLeaf?_real {value : Binary64} (normal : value.IsNormal) :
    readLeaf? (value.textWith "Infinity" "NaN").toList = some (.real value) := by
  cases value with
  | finite negative significand exponent =>
      rcases Binary64.exists_numeral_of_isNormal normal with ⟨numeral, plain, real, same, read⟩
      rw [Binary64.textWith, same, ← read]
      exact readLeaf?_signedText plain real negative
  | infinite negative => cases negative <;> rfl
  | undefined => rfl

end Json.Token

end StyleObjects
