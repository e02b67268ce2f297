import StyleObjects.Proofs.Number.Scanning
import StyleObjects.Style.Rem

/-!
# Lengths that have a number of pixels

A value is converted piece by piece: its lengths become pixels, and every other character stays.
Converting a value fails if and only if a length in it has no finite number of pixels.
-/

namespace StyleObjects

namespace Rem

/-- The lengths of a text, in order; `joined` tells whether the character before the text keeps a
length from starting. -/
def lengths (joined : Bool) (cs : List Char) : List Numeral :=
  match cs with
  | [] => []
  | c :: cs =>
    match _found : if joined then none else take? (c :: cs) with
    | some (number, rest) => number :: lengths true rest
    | none => lengths (joins c) cs
termination_by cs.length
decreasing_by
  · split at _found
    · cases _found
    · have := length_of_take? _found
      simpa using this
  · simp

/-- A length is a numeral with its unit, which no word character follows. -/
theorem take?_eq_some_iff {cs rest : List Char} {number : Numeral} :
    take? cs = some (number, rest) ↔
      Numeral.takeUnsigned? cs = some (number, 'r' :: 'e' :: 'm' :: rest) ∧
        rest.head?.any Text.isWord = false := by
  unfold take?
  split
  · rename_i other after found
    rw [Option.ite_none_left_eq_some, found, Bool.not_eq_true, Option.some.injEq, Option.some.injEq,
      Prod.mk.injEq, Prod.mk.injEq]
    constructor
    · rintro ⟨boundary, rfl, rfl⟩
      exact ⟨⟨rfl, rfl⟩, boundary⟩
    · rintro ⟨⟨rfl, same⟩, boundary⟩
      cases same
      exact ⟨boundary, rfl, rfl⟩
  · rename_i other
    simp only [reduceCtorEq, false_iff, not_and]
    intro found
    exact absurd found (other number rest)

/-- A number has a text if and only if it is finite. -/
theorem numberText_succeeds_iff {number : Binary64} :
    (∃ text, numberText number = .ok text) ↔ number.isFinite = true := by
  cases number with
  | finite negative significand exponent =>
      simp only [numberText, Binary64.isFinite, iff_true]
      cases (Binary64.finite negative significand exponent).toInt? with
      | some value => exact ⟨_, rfl⟩
      | none => exact ⟨_, rfl⟩
  | infinite negative => simp [numberText, Binary64.isFinite]
  | undefined => simp [numberText, Binary64.isFinite]

theorem pixels_succeeds_iff {size : Binary64} {number : Numeral} :
    (∃ text, pixels (.ok size) number = .ok text) ↔
      ((number.toBinary64 false).mul size).isFinite = true := by
  rw [← numberText_succeeds_iff]
  simp only [pixels, bind, Except.bind]
  cases numberText ((number.toBinary64 false).mul size) with
  | error fault => simp
  | ok text => simp [pure, Except.pure]

/-- A length at the start of a text is converted, and then the rest of the text. -/
theorem convert_length {size : RemSize} {joined : Bool} {c : Char} {cs rest : List Char}
    {number : Numeral} (found : (if joined then none else take? (c :: cs)) = some (number, rest)) :
    convert size joined (c :: cs) = do
      let length ← pixels size number
      return length ++ (← convert size true rest) := by
  rw [convert]
  split
  · rename_i other after again
    rw [found, Option.some.injEq, Prod.mk.injEq] at again
    rw [again.1, again.2]
  · rename_i none
    rw [found] at none
    cases none

/-- A character where no length starts stays. -/
theorem convert_other {size : RemSize} {joined : Bool} {c : Char} {cs : List Char}
    (other : (if joined then none else take? (c :: cs)) = none) :
    convert size joined (c :: cs) = do return c :: (← convert size (joins c) cs) := by
  rw [convert]
  split
  · rename_i again
    rw [other] at again
    cases again
  · rfl

/-- The lengths of a text are the one at its start and those of the rest. -/
theorem lengths_length {joined : Bool} {c : Char} {cs rest : List Char} {number : Numeral}
    (found : (if joined then none else take? (c :: cs)) = some (number, rest)) :
    lengths joined (c :: cs) = number :: lengths true rest := by
  rw [lengths]
  split
  · rename_i other after again
    rw [found, Option.some.injEq, Prod.mk.injEq] at again
    rw [again.1, again.2]
  · rename_i none
    rw [found] at none
    cases none

theorem lengths_other {joined : Bool} {c : Char} {cs : List Char}
    (other : (if joined then none else take? (c :: cs)) = none) :
    lengths joined (c :: cs) = lengths (joins c) cs := by
  rw [lengths]
  split
  · rename_i again
    rw [other] at again
    cases again
  · rfl

/-- A text is converted if and only if all of its lengths have finite numbers of pixels. -/
theorem convert_succeeds_iff {size : Binary64} {joined : Bool} {cs : List Char} :
    (∃ text, convert (.ok size) joined cs = .ok text) ↔
      ∀ number ∈ lengths joined cs, ((number.toBinary64 false).mul size).isFinite = true := by
  fun_induction lengths joined cs with
  | case1 joined => simp [convert]
  | case2 joined c cs number rest found ih =>
      rw [List.forall_mem_cons, ← pixels_succeeds_iff, ← ih, convert_length found]
      cases pixels (.ok size) number <;> cases convert (.ok size) true rest <;>
        simp [bind, Except.bind, pure, Except.pure]
  | case3 joined c cs found ih =>
      rw [← ih, convert_other found]
      cases convert (.ok size) (joins c) cs <;> simp [bind, Except.bind, pure, Except.pure]

/-- A value is converted if and only if all of its lengths have finite numbers of pixels. -/
theorem toPixels_succeeds_iff {size : Binary64} {value : String} :
    (∃ text, toPixels (.ok size) value = .ok text) ↔
      ∀ number ∈ lengths false value.toList,
        ((number.toBinary64 false).mul size).isFinite = true := by
  rw [← convert_succeeds_iff, toPixels]
  cases convert (.ok size) false value.toList <;> simp [Except.map]

/-- A text without lengths is left as it is. -/
theorem convert_of_lengths_eq_nil (size : RemSize) {joined : Bool} {cs : List Char}
    (bare : lengths joined cs = []) : convert size joined cs = .ok cs := by
  fun_induction lengths joined cs with
  | case1 joined => simp [convert]
  | case2 joined c cs number rest found ih => cases bare
  | case3 joined c cs found ih =>
      rw [convert_other found, ih bare]
      rfl

/-- A value without lengths is left as it is. -/
theorem toPixels_of_lengths_eq_nil (size : RemSize) {value : String}
    (bare : lengths false value.toList = []) : toPixels size value = .ok value := by
  rw [toPixels, convert_of_lengths_eq_nil size bare, Except.map, String.ofList_toList]

/-! ## Characters that belong to no length -/

section Apart

open Numeral (isNumeralChar)

variable {c : Char} (other : isNumeralChar c = false) (apart : Text.isWord c = false)

include other in
/-- No length starts at a character that stands in no numeral. -/
theorem take?_of_not_isNumeralChar (cs : List Char) : take? (c :: cs) = none := by
  have stop : (c :: cs).head?.any isNumeralChar = false := other
  have none : Numeral.takeUnsigned? (c :: cs) = none := Numeral.takeUnsigned?_append [] stop
  rw [take?, none]

include other apart

/-- The length at the start of a text is the same before a character that belongs to none. -/
theorem take?_append (cs after : List Char) :
    take? (cs ++ c :: after) = (take? cs).map fun (number, rest) => (number, rest ++ c :: after) := by
  have unit : c ≠ 'r' ∧ c ≠ 'e' ∧ c ≠ 'm' := by
    refine ⟨?_, ?_, ?_⟩ <;> rintro rfl <;> exact absurd apart (by decide)
  have stop : (c :: after).head?.any isNumeralChar = false := other
  rw [take?, take?, Numeral.takeUnsigned?_append cs stop]
  cases Numeral.takeUnsigned? cs with
  | none => rfl
  | some taken =>
      rcases taken with ⟨number, rest⟩
      rw [Option.map_some]
      rcases rest with _ | ⟨r, _ | ⟨e, _ | ⟨m, rest⟩⟩⟩
      · simp [unit]
      · simp [unit]
      · simp [unit]
      · have word : (rest ++ c :: after).head?.any Text.isWord = rest.head?.any Text.isWord := by
          cases rest with
          | nil => simp [apart]
          | cons d rest => rfl
        by_cases spelled : r = 'r' ∧ e = 'e' ∧ m = 'm'
        · rcases spelled with ⟨rfl, rfl, rfl⟩
          simp only [List.cons_append, word]
          split <;> rfl
        · simp only [List.cons_append]
          split
          · rename_i same
            simp_all
          · split
            · simp_all
            · rfl

/-- A text is converted on either side of a character that belongs to no length. -/
theorem convert_append_cons (size : RemSize) (joined : Bool) (cs after : List Char) :
    convert size joined (cs ++ c :: after) = do
      let before ← convert size joined cs
      return before ++ c :: (← convert size (joins c) after) := by
  have starts {more : List Char} {joined : Bool} {taken : Option (Numeral × List Char)}
      (found : (if joined then none else take? more) = taken) :
      (if joined then none else take? (more ++ c :: after)) =
        taken.map fun (number, rest) => (number, rest ++ c :: after) := by
    rw [take?_append other apart, ← found]
    cases joined <;> rfl
  fun_induction lengths joined cs with
  | case1 joined =>
      have none := take?_of_not_isNumeralChar other after
      rw [List.nil_append, convert_other (by rw [none, ite_self]), convert]
      rfl
  | case2 joined d cs number rest found ih =>
      have again := starts found
      rw [List.cons_append] at again ⊢
      rw [convert_length found, convert_length again, ih]
      simp
  | case3 joined d cs found ih =>
      have again := starts found
      rw [List.cons_append] at again ⊢
      rw [convert_other found, convert_other again, ih]
      simp

end Apart

end Rem

end StyleObjects
