import StyleObjects.Number.Numeral
import StyleObjects.Text.Blank

/-!
# Numerals at the start of a text

A numeral is spelled with digits, signs, points and marks of powers, and it is taken off a text up
to the first other character.  So the same numeral is taken whatever follows the text, unless more
of a numeral does.
-/

namespace StyleObjects

open Text

/-! ## Characters -/

/-- A digit is an ASCII one, or has one of the ten code points from a zero on. -/
theorem Text.toNat_of_isDecimalDigit {c : Char} (digit : isDecimalDigit c = true) :
    (48 ≤ c.toNat ∧ c.toNat ≤ 57) ∨
      ∃ start ∈ digitZeros, start ≤ c.toNat ∧ c.toNat < start + 10 := by
  simp only [isDecimalDigit, digitValue?] at digit
  split at digit
  · split at digit
    · exact .inl ‹_›
    · cases digit
  · rw [Option.isSome_map, List.find?_isSome] at digit
    rcases digit with ⟨start, member, inside⟩
    rw [Bool.and_eq_true, decide_eq_true_eq, decide_eq_true_eq] at inside
    exact .inr ⟨start, member, inside⟩

theorem Text.isBlank_of_isDecimalDigit {c : Char} (digit : isDecimalDigit c = true) :
    isBlank c = false := by
  have ascii : ∀ value < 10, isBlank (Char.ofNat (48 + value)) = false := by decide
  have others : ∀ start ∈ digitZeros, ∀ value < 10,
      isBlank (Char.ofNat (start + value)) = false := by
    decide +kernel
  have counted : ∃ start value, c.toNat = start + value ∧
      isBlank (Char.ofNat (start + value)) = false := by
    rcases toNat_of_isDecimalDigit digit with range | ⟨start, member, range⟩
    · exact ⟨48, c.toNat - 48, by omega, ascii _ (by omega)⟩
    · exact ⟨start, c.toNat - start, by omega, others start member _ (by omega)⟩
  rcases counted with ⟨start, value, code, visible⟩
  rwa [← code, Char.ofNat_toNat] at visible

namespace Numeral

/-- May stand in a numeral. -/
def isNumeralChar (c : Char) : Bool :=
  isDecimalDigit c || ['+', '-', '.', 'e', 'E'].contains c

theorem isBlank_of_isNumeralChar {c : Char} (spells : isNumeralChar c = true) :
    isBlank c = false := by
  rcases Bool.or_eq_true_iff.mp spells with digit | mark
  · exact isBlank_of_isDecimalDigit digit
  · have checked : ['+', '-', '.', 'e', 'E'].all (!isBlank ·) = true := by decide
    simpa using List.all_eq_true.mp checked c (List.contains_iff_mem.mp mark)

/-! ## What is taken -/

/-- A text begins with characters of numerals, and goes on with another text. -/
def Spells (cs rest : List Char) : Prop :=
  ∃ spelled, spelled.all isNumeralChar = true ∧ cs = spelled ++ rest

namespace Spells

variable {cs rest : List Char}

theorem refl (cs : List Char) : Spells cs cs :=
  ⟨[], rfl, rfl⟩

theorem cons {c : Char} (first : isNumeralChar c = true) (others : Spells cs rest) :
    Spells (c :: cs) rest := by
  rcases others with ⟨spelled, all, rfl⟩
  exact ⟨c :: spelled, by rw [List.all_cons, first, all]; rfl, rfl⟩

theorem trans {last : List Char} (first : Spells cs rest) (second : Spells rest last) :
    Spells cs last := by
  rcases first with ⟨spelled, all, rfl⟩
  rcases second with ⟨others, more, rfl⟩
  exact ⟨spelled ++ others, by rw [List.all_append, all, more]; rfl,
    (List.append_assoc ..).symm⟩

/-- A character that stands in no numeral stands in the rest. -/
theorem mem_rest (spells : Spells cs rest) {c : Char} (member : c ∈ cs)
    (other : isNumeralChar c = false) : c ∈ rest := by
  rcases spells with ⟨spelled, all, rfl⟩
  refine (List.mem_append.mp member).resolve_left fun inside => ?_
  rw [List.all_eq_true.mp all c inside] at other
  cases other

end Spells

theorem spells_takeSign (cs : List Char) : Spells cs (takeSign cs).2 := by
  unfold takeSign
  split
  · exact .cons (by decide) (.refl _)
  · exact .cons (by decide) (.refl _)
  · exact .refl _

theorem spells_takeDigits (cs : List Char) : Spells cs (takeDigits cs).2 := by
  refine ⟨cs.takeWhile isDecimalDigit, ?_, (List.takeWhile_append_dropWhile).symm⟩
  rw [List.all_eq_true]
  intro c member
  rw [isNumeralChar, List.all_eq_true.mp List.all_takeWhile c member, Bool.true_or]

theorem spells_of_takeMantissa? {cs rest : List Char} {parts : List Char × List Char}
    (taken : takeMantissa? cs = some (parts, rest)) : Spells cs rest := by
  have whole := spells_takeDigits cs
  simp only [takeMantissa?] at taken
  split at taken
  · rename_i after pointed
    split at taken
    · split at taken <;> cases taken
      exact whole
    · cases taken
      rw [pointed] at whole
      exact whole.trans (.cons (by decide) (spells_takeDigits after))
  · split at taken <;> cases taken
    exact whole

theorem spells_takePower (cs : List Char) : Spells cs (takePower cs).2 := by
  unfold takePower
  split
  · rename_i e rest
    dsimp only
    split
    · rename_i mark
      split
      · exact .refl _
      · have first : isNumeralChar e = true := by
          rcases mark with rfl | rfl <;> decide
        exact .cons first ((spells_takeSign rest).trans (spells_takeDigits _))
    · exact .refl _
  · exact .refl _

theorem spells_of_takeUnsigned? {cs rest : List Char} {numeral : Numeral}
    (taken : takeUnsigned? cs = some (numeral, rest)) : Spells cs rest := by
  rcases Option.map_eq_some_iff.mp taken with ⟨⟨parts, after⟩, mantissa, same⟩
  rw [Prod.mk.injEq] at same
  rw [← same.2]
  exact (spells_of_takeMantissa? mantissa).trans (spells_takePower after)

end Numeral

open Numeral (Spells isNumeralChar)

theorem SignedNumeral.spells_of_take? {cs rest : List Char} {signed : SignedNumeral}
    (taken : take? cs = some (signed, rest)) : Spells cs rest := by
  rcases Option.map_eq_some_iff.mp taken with ⟨⟨numeral, after⟩, unsigned, same⟩
  rw [Prod.mk.injEq] at same
  rw [← same.2]
  exact (Numeral.spells_takeSign cs).trans (Numeral.spells_of_takeUnsigned? unsigned)

/-! ## What follows a numeral -/

namespace Numeral

variable {after : List Char}

theorem takeSign_append (cs : List Char) (stop : after.head?.any isNumeralChar = false) :
    takeSign (cs ++ after) = ((takeSign cs).1, (takeSign cs).2 ++ after) := by
  cases cs with
  | nil =>
      rw [List.nil_append]
      unfold takeSign
      split <;> first | rfl | exact absurd stop (by simp [isNumeralChar])
  | cons c cs =>
      rw [List.cons_append]
      unfold takeSign
      split <;> simp_all

theorem takeDigits_append_of_stop (cs : List Char) (stop : after.head?.any isNumeralChar = false) :
    takeDigits (cs ++ after) = ((takeDigits cs).1, (takeDigits cs).2 ++ after) := by
  induction cs with
  | nil =>
      cases after with
      | nil => rfl
      | cons c after =>
          have other : isDecimalDigit c = false := by
            simp only [List.head?_cons, Option.any_some, isNumeralChar,
              Bool.or_eq_false_iff] at stop
            exact stop.1
          simp [takeDigits, other]
  | cons c cs ih =>
      simp only [takeDigits, Prod.mk.injEq, List.cons_append] at ih ⊢
      cases digit : isDecimalDigit c with
      | true => simp [digit, ih]
      | false => simp [digit]

theorem takeMantissa?_append (cs : List Char) (stop : after.head?.any isNumeralChar = false) :
    takeMantissa? (cs ++ after) =
      (takeMantissa? cs).map fun (parts, rest) => (parts, rest ++ after) := by
  simp only [takeMantissa?, takeDigits_append_of_stop cs stop]
  generalize takeDigits cs = digits
  rcases digits with ⟨whole, rest⟩
  cases rest with
  | nil =>
      -- The text is digits only, and what follows it has no point for them.
      cases after with
      | nil => cases whole <;> rfl
      | cons c after =>
          have other : c ≠ '.' := by
            rintro rfl
            cases stop
          cases whole <;> simp [other]
  | cons c rest =>
      by_cases point : c = '.'
      · subst point
        simp only [List.cons_append, takeDigits_append_of_stop rest stop]
        cases (takeDigits rest).1 <;> cases whole <;> simp
      · cases whole <;> simp [point]

theorem takePower_append (cs : List Char) (stop : after.head?.any isNumeralChar = false) :
    takePower (cs ++ after) = ((takePower cs).1, (takePower cs).2 ++ after) := by
  cases cs with
  | nil =>
      cases after with
      | nil => rfl
      | cons e after =>
          have other : ¬(e = 'e' ∨ e = 'E') := by
            rintro (rfl | rfl) <;> cases stop
          rw [List.nil_append, takePower, if_neg other]
          rfl
  | cons e cs =>
      simp only [List.cons_append, takePower, takeSign_append cs stop,
        takeDigits_append_of_stop _ stop]
      split
      · split <;> rfl
      · rfl

theorem takeUnsigned?_append (cs : List Char) (stop : after.head?.any isNumeralChar = false) :
    takeUnsigned? (cs ++ after) =
      (takeUnsigned? cs).map fun (number, rest) => (number, rest ++ after) := by
  rw [takeUnsigned?, takeUnsigned?, takeMantissa?_append cs stop]
  cases takeMantissa? cs with
  | none => rfl
  | some taken =>
      simp only [Option.map_some, takePower_append taken.2 stop]

end Numeral

theorem SignedNumeral.take?_append (cs : List Char) {after : List Char}
    (stop : after.head?.any isNumeralChar = false) :
    take? (cs ++ after) = (take? cs).map fun (signed, rest) => (signed, rest ++ after) := by
  simp only [take?, Numeral.takeSign_append cs stop, Numeral.takeUnsigned?_append _ stop,
    Option.map_map]
  rfl

/-- A text from which a numeral is taken starts with one of its characters. -/
theorem SignedNumeral.head?_of_take? {cs rest : List Char} {signed : SignedNumeral}
    (taken : take? cs = some (signed, rest)) : cs.head?.any isNumeralChar = true := by
  cases stop : cs.head?.any isNumeralChar with
  | true => rfl
  | false =>
      have sign : Numeral.takeSign cs = (false, cs) := Numeral.takeSign_append [] stop
      have mantissa : Numeral.takeMantissa? cs = none := Numeral.takeMantissa?_append [] stop
      simp [take?, sign, Numeral.takeUnsigned?, mantissa] at taken

end StyleObjects
