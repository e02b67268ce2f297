import StyleObjects.Proofs.Number.Numerals
import StyleObjects.Proofs.Number.Scanning
import StyleObjects.Proofs.Style.Rem
import StyleObjects.Proofs.Style.Units

/-!
# Values that a conversion changes

A conversion takes the unit of every length off a text and adds nothing but numbers of pixels.  So a
value with a length has fewer of the letter `r` after it, and neither the value is the same nor what
a property with one scalar makes of it.
-/

namespace StyleObjects

open Numeral (isNumeralChar)

/-! ## The texts of numbers -/

theorem Numeral.isNumeralChar_of_isDigit {c : Char} (digit : c.isDigit = true) :
    isNumeralChar c = true := by
  rw [isNumeralChar, Text.isDecimalDigit_of_isDigit digit, Bool.true_or]

theorem Numeral.all_isNumeralChar_toDigits (value : Nat) :
    (Nat.toDigits 10 value).all isNumeralChar = true := by
  rw [List.all_eq_true]
  intro c member
  exact isNumeralChar_of_isDigit (List.all_eq_true.mp (Text.all_isDigit_toDigits value) c member)

namespace Binary64

theorem all_isNumeralChar_significantDigits (decimal : Decimal) :
    (significantDigits decimal).all isNumeralChar = true := by
  rw [List.all_eq_true]
  intro c member
  have digits := List.all_eq_true.mp (Numeral.all_isNumeralChar_toDigits decimal.digits)
  apply digits
  rw [significantDigits, List.mem_reverse] at member
  exact List.mem_reverse.mp ((List.dropWhile_suffix _).subset member)

theorem all_isNumeralChar_replicate (count : Nat) :
    (List.replicate count '0').all isNumeralChar = true := by
  rw [List.all_eq_true]
  intro c member
  rw [List.eq_of_mem_replicate member]
  decide

theorem all_isNumeralChar_positional {digits : List Char} (given : digits.all isNumeralChar = true)
    (magnitude : Int) : (positional digits magnitude).all isNumeralChar = true := by
  have zero : isNumeralChar '0' = true := by decide
  have point : isNumeralChar '.' = true := by decide
  unfold positional
  split
  · simp only [List.cons_append, List.all_cons, List.all_append, all_isNumeralChar_replicate, given,
      zero, point, Bool.and_self]
  · have padded (count : Nat) :
        (digits ++ List.replicate count '0').all isNumeralChar = true := by
      rw [List.all_append, given, all_isNumeralChar_replicate, Bool.and_self]
    have part {cs : List Char} (inside : cs.Sublist (digits ++ List.replicate
        (magnitude.toNat + 1 - digits.length) '0')) : cs.all isNumeralChar = true :=
      List.all_eq_true.mpr fun c member =>
        List.all_eq_true.mp (padded _) c (inside.subset member)
    dsimp only
    rw [List.all_append, List.all_cons, part (List.take_sublist _ _), point, Bool.true_and,
      Bool.true_and]
    split
    · simp only [List.all_cons, zero, List.all_nil, Bool.and_self]
    · exact part (List.drop_sublist _ _)

theorem all_isNumeralChar_scientific {digits : List Char} (given : digits.all isNumeralChar = true)
    (magnitude : Int) : (scientific digits magnitude).all isNumeralChar = true := by
  have marks : ['0', '.', 'e', '-', '+'].all isNumeralChar = true := by decide
  simp only [List.all_cons, Bool.and_eq_true] at marks
  rcases marks with ⟨zero, point, mark, minus, plus, -⟩
  have power := Numeral.all_isNumeralChar_toDigits magnitude.natAbs
  unfold scientific
  dsimp only
  rw [List.all_append, List.all_cons, List.all_cons, mark, Bool.and_eq_true, Bool.true_and,
    Bool.and_eq_true]
  refine ⟨?_, ?_, ?_⟩
  · split
    · simp only [List.all_cons, Bool.and_eq_true] at given ⊢
      exact ⟨given.1, point, given.2⟩
    · exact given
  · split
    · exact minus
    · exact plus
  · split
    · rw [List.all_cons, zero, power, Bool.and_self]
    · exact power

theorem all_isNumeralChar_finiteText (negative : Bool) (significand : Nat) (exponent : Int) :
    (finiteText negative significand exponent).toList.all isNumeralChar = true := by
  have digits := all_isNumeralChar_significantDigits (shortest significand exponent)
  have unsigned : (if significand = 0 then ['0', '.', '0'] else
      digitsText significand exponent).all isNumeralChar = true := by
    split
    · decide
    · unfold digitsText
      dsimp only
      split
      · exact all_isNumeralChar_positional digits _
      · exact all_isNumeralChar_scientific digits _
  rw [finiteText, String.toList_ofList]
  split
  · rw [List.all_cons, unsigned]
    decide
  · exact unsigned

end Binary64

/-! ## What a conversion makes of a text -/

namespace Rem

theorem all_isNumeralChar_toString (value : Int) :
    (toString value).toList.all isNumeralChar = true := by
  rw [Int.toString_eq_repr, Int.repr_eq_if]
  split
  · rw [Nat.toList_repr]
    exact Numeral.all_isNumeralChar_toDigits _
  · rw [String.toList_append, Nat.toList_repr, List.all_append,
      Numeral.all_isNumeralChar_toDigits, Bool.and_true]
    decide

theorem all_isNumeralChar_numberText {number : Binary64} {text : List Char}
    (written : numberText number = .ok text) : text.all isNumeralChar = true := by
  cases number with
  | undefined => cases written
  | infinite negative => cases written
  | finite negative significand exponent =>
      unfold numberText at written
      dsimp only at written
      split at written
      · cases written
        exact all_isNumeralChar_toString _
      · cases written
        exact Binary64.all_isNumeralChar_finiteText negative significand exponent

/-- A number of pixels is the text of a number with its unit. -/
theorem exists_of_pixels {size : RemSize} {number : Numeral} {text : List Char}
    (written : pixels size number = .ok text) :
    ∃ digits, digits.all isNumeralChar = true ∧ text = digits ++ ['p', 'x'] := by
  cases size with
  | error fault => cases written
  | ok size =>
      simp only [pixels, bind, Except.bind] at written
      split at written
      · cases written
      · rename_i digits found
        cases written
        exact ⟨digits, all_isNumeralChar_numberText found, rfl⟩

/-- What a conversion makes of a text: of a length its number of pixels, and every other character
stays. -/
inductive Converts (size : RemSize) : Bool → List Char → List Char → Prop where
  | nil (joined : Bool) : Converts size joined [] []
  | length {joined : Bool} {c : Char} {cs rest inPixels text : List Char} {number : Numeral}
      (found : (if joined then none else take? (c :: cs)) = some (number, rest))
      (written : pixels size number = .ok inPixels) (others : Converts size true rest text) :
      Converts size joined (c :: cs) (inPixels ++ text)
  | other {joined : Bool} {c : Char} {cs text : List Char}
      (found : (if joined then none else take? (c :: cs)) = none)
      (others : Converts size (joins c) cs text) : Converts size joined (c :: cs) (c :: text)

theorem converts_iff {size : RemSize} {joined : Bool} {cs text : List Char} :
    Converts size joined cs text ↔ convert size joined cs = .ok text := by
  constructor
  · intro converts
    induction converts with
    | nil joined => rw [convert]
    | length found written others ih =>
        rw [convert_length found, written, ih]
        rfl
    | other found others ih =>
        rw [convert_other found, ih]
        rfl
  · intro done
    fun_induction lengths joined cs generalizing text with
    | case1 joined =>
        rw [convert] at done
        cases done
        exact .nil joined
    | case2 joined c cs number rest found ih =>
        rw [convert_length found] at done
        cases written : pixels size number with
        | error fault => simp [written, bind, Except.bind] at done
        | ok inPixels =>
            cases others : convert size true rest with
            | error fault => simp [written, others, bind, Except.bind] at done
            | ok text =>
                simp only [written, others, bind, Except.bind, pure, Except.pure,
                  Except.ok.injEq] at done
                rw [← done]
                exact .length found written (ih others)
    | case3 joined c cs found ih =>
        rw [convert_other found] at done
        cases others : convert size (joins c) cs with
        | error fault => simp [others, bind, Except.bind] at done
        | ok text =>
            simp only [others, bind, Except.bind, pure, Except.pure, Except.ok.injEq] at done
            rw [← done]
            exact .other found (ih others)

section Counts

variable {c : Char} {size : RemSize} {number : Numeral}

theorem count_of_all_isNumeralChar (other : isNumeralChar c = false) {cs : List Char}
    (spelled : cs.all isNumeralChar = true) : cs.count c = 0 := by
  rw [List.count_eq_zero]
  intro member
  rw [List.all_eq_true.mp spelled c member] at other
  cases other

/-- A length has the characters of its unit and of its number, and no other. -/
theorem count_of_take? (other : isNumeralChar c = false) {cs rest : List Char}
    (taken : take? cs = some (number, rest)) :
    cs.count c = rest.count c + ['r', 'e', 'm'].count c := by
  obtain ⟨spelled, all, rfl⟩ := Numeral.spells_of_takeUnsigned? (take?_eq_some_iff.mp taken).1
  have unit : 'r' :: 'e' :: 'm' :: rest = ['r', 'e', 'm'] ++ rest := rfl
  rw [List.count_append, count_of_all_isNumeralChar other all, unit, List.count_append]
  omega

variable (other : isNumeralChar c = false) (unit : c ∉ ['p', 'x'])

include other unit

theorem count_pixels {text : List Char} (written : pixels size number = .ok text) :
    text.count c = 0 := by
  obtain ⟨digits, all, rfl⟩ := exists_of_pixels written
  rw [List.count_append, count_of_all_isNumeralChar other all, List.count_eq_zero.mpr unit]

/-- A conversion takes the characters of the unit off a text for every length, and adds none. -/
theorem count_of_converts {joined : Bool} {cs text : List Char}
    (converts : Converts size joined cs text) :
    text.count c + (lengths joined cs).length * ['r', 'e', 'm'].count c = cs.count c := by
  induction converts with
  | nil joined => simp [lengths]
  | length found written others ih =>
      have taken := (Option.ite_none_left_eq_some.mp found).2
      rw [lengths_length found, List.count_append, count_pixels other unit written,
        count_of_take? other taken, ← ih, List.length_cons, Nat.add_mul]
      omega
  | other found others ih =>
      generalize ['r', 'e', 'm'].count c = perLength at ih ⊢
      rw [lengths_other found, List.count_cons, List.count_cons, ← ih]
      omega

/-- A conversion takes the characters of the unit off a value for every length, and adds none. -/
theorem count_toPixels {value inPixels : String}
    (converted : toPixels size value = .ok inPixels) :
    inPixels.toList.count c + (lengths false value.toList).length * ['r', 'e', 'm'].count c =
      value.toList.count c := by
  rw [toPixels] at converted
  cases done : convert size false value.toList with
  | error fault => simp [done, Except.map] at converted
  | ok cs =>
      simp only [done, Except.map, Except.ok.injEq] at converted
      rw [← converted, String.toList_ofList]
      exact count_of_converts other unit (converts_iff.mpr done)

/-- A text that a conversion leaves as it is has no lengths. -/
theorem lengths_eq_nil_of_toPixels (given : 0 < ['r', 'e', 'm'].count c) {value : String}
    (kept : toPixels size value = .ok value) : lengths false value.toList = [] := by
  have counted := count_toPixels other unit kept
  rw [Nat.add_eq_left, Nat.mul_eq_zero] at counted
  exact List.length_eq_zero_iff.mp (counted.resolve_right (by omega))

end Counts

end Rem

/-! ## What a property makes of it -/

namespace Scalar

variable {property value other : String} {scalar : Scalar}

theorem ofValue?_cases (found : ofValue? property value = some scalar) :
    scalar = .text value ∨ scalar = read value := by
  unfold ofValue? at found
  split at found
  · cases found
    exact .inl rfl
  · split at found
    · unfold readLength? at found
      split at found
      · cases found
        exact .inr rfl
      · split at found
        · cases found
        · cases found
          exact .inl rfl
    · cases found
      exact .inr rfl

theorem ofValue?_text_or_number (found : ofValue? property value = some scalar) :
    scalar = .text value ∨ 'r' ∉ value.toList ∧ ∃ number, scalar = ofNumber number := by
  rcases ofValue?_cases found with same | rfl
  · exact .inl same
  · refine (read_cases value).imp_right fun ⟨number, plain⟩ => ⟨fun member => ?_, number⟩
    exact absurd (plain 'r' member) (by decide)

/-- A text with more of `r` than another one is not the same scalar. -/
theorem ofValue?_ne_of_count (fewer : other.toList.count 'r' < value.toList.count 'r')
    (found : ofValue? property other = some scalar) : ofValue? property value ≠ some scalar := by
  intro same
  -- A text with an `r` is no number, so it would have to be the other text.
  rcases ofValue?_text_or_number same with rfl | ⟨absent, -⟩
  · rcases ofValue?_text_or_number found with equal | ⟨-, number, numeric⟩
    · rw [Scalar.text.injEq] at equal
      rw [equal] at fewer
      omega
    · exact ofNumber_ne_text number value numeric.symm
  · rw [List.count_eq_zero.mpr absent] at fewer
    omega

end Scalar

open Text (stripped)

variable {property value inPixels : String} {styles : Styles}

/-- A property without a rule of its own sets its key to the scalar of its value, if it takes it. -/
theorem translateDeclarations_of_scalar
    (unmarked : Translation.keyframesName? ⟨property, value⟩ = none)
    (plain : property ∉ Translation.ruledProperties ++ ["animation", "animation-name"]) :
    translateDeclarations [⟨property, value⟩] =
      match Scalar.ofValue? property (stripped value) with
      | some scalar => .ok (.ofList [(styleKey property, .scalar scalar)])
      | none => .error (.inexpressible property (stripped value)) := by
  simp only [List.mem_append, List.mem_cons, List.not_mem_nil, or_false, not_or] at plain
  rw [translateDeclarations_singleton unmarked plain.2,
    Translation.expand?_of_not_mem_ruledProperties plain.1, Single.plain?]
  cases Scalar.ofValue? property (stripped value) <;> rfl

theorem translateDeclarations_eq_ok_iff_of_scalar
    (unmarked : Translation.keyframesName? ⟨property, value⟩ = none)
    (plain : property ∉ Translation.ruledProperties ++ ["animation", "animation-name"]) :
    translateDeclarations [⟨property, value⟩] = .ok styles ↔
      ∃ scalar, Scalar.ofValue? property (stripped value) = some scalar ∧
        styles = .ofList [(styleKey property, .scalar scalar)] := by
  rw [translateDeclarations_of_scalar unmarked plain]
  cases Scalar.ofValue? property (stripped value) with
  | none => simp
  | some scalar => simp [eq_comm]

/-- A property without a rule of its own makes the same of a value before and after its lengths are
written in pixels if and only if it has none. -/
theorem translateDeclarations_toPixels_iff {size : RemSize}
    (unmarked : Translation.keyframesName? ⟨property, value⟩ = none)
    (plain : property ∉ Translation.ruledProperties ++ ["animation", "animation-name"])
    (converted : Rem.toPixels size value = .ok inPixels)
    (translated : translateDeclarations [⟨property, inPixels⟩] = .ok styles) :
    translateDeclarations [⟨property, value⟩] = .ok styles ↔
      Rem.lengths false value.toList = [] := by
  constructor
  · intro unconverted
    rcases (translateDeclarations_eq_ok_iff_of_scalar unmarked plain).mp unconverted with
      ⟨scalar, given, rfl⟩
    have silent : Translation.keyframesName? ⟨property, inPixels⟩ = none := unmarked
    rcases (translateDeclarations_eq_ok_iff_of_scalar silent plain).mp translated with
      ⟨other, found, same⟩
    cases congrArg Table.entries same
    have counted := Rem.count_toPixels (c := 'r') (by decide) (by decide) converted
    have unit : ['r', 'e', 'm'].count 'r' = 1 := by decide
    rw [unit, Nat.mul_one] at counted
    rw [← List.length_eq_zero_iff]
    by_contra present
    refine Scalar.ofValue?_ne_of_count ?_ found given
    rw [stripped, stripped, String.toList_ofList, String.toList_ofList,
      Text.count_trim (by decide), Text.count_trim (by decide)]
    omega
  · intro bare
    rw [Rem.toPixels_of_lengths_eq_nil size bare] at converted
    cases converted
    exact translated

end StyleObjects
