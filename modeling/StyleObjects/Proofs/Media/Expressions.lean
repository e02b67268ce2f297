import StyleObjects.Proofs.Media.Joints

/-!
# Canonical expressions of media queries

A canonical expression is a text in parentheses that has no parenthesis, comma or `and` inside.  It
is read as it is written: the name ends at the colon or at the parenthesis, and the bound at the
start of the name is the one it was written with.
-/

namespace StyleObjects

open Text
open Stylesheet (isLowerName isLowerNameChar)

/-! ## Names -/

/-- The characters of canonical names are visible, and no marks of the grammar. -/
theorem MediaQuery.isNameChar_of_isLowerNameChar {c : Char} (h : isLowerNameChar c = true) :
    isNameChar c = true ∧ isBlank c = false ∧ c ∉ ['(', ')', ','] := by
  have checked : ∀ c : Char, c.toNat < 128 → isLowerNameChar c = true →
      isNameChar c = true ∧ isBlank c = false ∧ c ∉ ['(', ')', ','] := by
    apply Stylesheet.of_ascii
    decide +kernel
  exact checked c (Stylesheet.ascii_of_isLowerNameChar h) h

theorem MediaQuery.startsName_of_starts {c : Char} (starting : (c.isLower || c == '_') = true) :
    startsName c = true := by
  have folded := (Stylesheet.lowerChar_of_isLowerNameChar
    (Stylesheet.isLowerNameChar_of_starts starting)).1
  rwa [startsName, folded]

theorem MediaQuery.all_isNameChar {cs : List Char} (lower : cs.all isLowerNameChar = true) :
    cs.all isNameChar = true :=
  List.all_eq_true.mpr fun c member =>
    (isNameChar_of_isLowerNameChar (List.all_eq_true.mp lower c member)).1

/-- Nothing is trimmed of a text from one parenthesis to another. -/
theorem Text.trim_of_parentheses {cs : List Char} (first : cs.head? = some '(')
    (last : cs.getLast? = some ')') : trim cs = cs := by
  have opening : isBlank '(' = false := by decide
  have closing : isBlank ')' = false := by decide
  exact Stylesheet.trim_of_visible (by simp [first, opening]) (by simp [last, closing])

namespace MediaExpression

variable {expression : MediaExpression}

/-! ## Expressions -/

/-- The name of a canonical expression is in lower case, and starts as a name does. -/
theorem exists_of_isCanonical (canonical : expression.isCanonical = true) :
    ∃ c word, expression.name.toList = c :: word ∧
      (MediaQuery.startsName c || c == '-') = true ∧ (c :: word).all isLowerNameChar = true := by
  simp only [isCanonical, Bool.and_eq_true] at canonical
  rcases Stylesheet.exists_of_isLowerName canonical.1.1 with ⟨c, word, spelled, starting, inside⟩
  refine ⟨c, word, spelled, ?_⟩
  rw [← Bool.or_assoc, Bool.or_eq_true, beq_iff_eq] at starting
  rcases starting with named | rfl
  · simp [MediaQuery.startsName_of_starts named, Stylesheet.isLowerNameChar_of_starts named, inside]
  · simp [isLowerNameChar, inside]

theorem isValue_of_isCanonical (canonical : expression.isCanonical = true) {value : String}
    (given : expression.value = some value) : isValue value.toList = true := by
  simp only [isCanonical, Bool.and_eq_true, given, Option.all_some] at canonical
  exact canonical.2

/-- What is written after the name of an expression. -/
def valueText (expression : MediaExpression) : List Char :=
  expression.value.elim [] (':' :: ' ' :: ·.toList)

/-- What stands between the parentheses of an expression. -/
def inner (expression : MediaExpression) : List Char :=
  expression.name.toList ++ expression.valueText

theorem toList_text (canonical : expression.isCanonical = true) :
    expression.text.toList = '(' :: expression.inner ++ [')'] := by
  unfold text inner valueText
  cases given : expression.value with
  | none => simp
  | some value =>
      have spelled := isValue_of_isCanonical canonical given
      have filled : value.isEmpty = false := by
        rw [String.isEmpty_eq_false_iff]
        rintro rfl
        simp [isValue] at spelled
      simp [filled]

/-- A canonical expression has no parentheses inside, and no commas. -/
theorem notMem_inner (canonical : expression.isCanonical = true) {c : Char}
    (mark : c ∈ ['(', ')', ',']) : c ∉ expression.inner := by
  rcases exists_of_isCanonical canonical with ⟨first, word, spelled, -, lower⟩
  intro member
  rcases List.mem_append.mp member with named | valued
  · rw [spelled] at named
    exact (MediaQuery.isNameChar_of_isLowerNameChar (List.all_eq_true.mp lower c named)).2.2 mark
  · cases given : expression.value with
    | none => simp [valueText, given] at valued
    | some value =>
        have spelled := isValue_of_isCanonical canonical given
        simp only [isValue, Bool.and_eq_true] at spelled
        rcases spelled with ⟨⟨-, plain⟩, -⟩
        have other := List.all_eq_true.mp plain c
        rw [valueText, given, Option.elim_some] at valued
        rcases List.mem_cons.mp valued with rfl | valued
        · revert mark
          decide
        · rcases List.mem_cons.mp valued with rfl | valued
          · revert mark
            decide
          · simpa [mark] using other valued

/-- No word of a canonical expression is `and`. -/
theorem hasAnd_inner (canonical : expression.isCanonical = true) :
    hasAnd ('(' :: expression.inner) = false := by
  rcases exists_of_isCanonical canonical with ⟨first, word, spelled, -, lower⟩
  have visible (more : List Char) (others : ∀ c ∈ more, isBlank c = false) :
      hasAnd ('(' :: (expression.name.toList ++ more)) = false := by
    rw [hasAnd_of_visible]
    · simp [isAnd]
    · intro c member
      rcases List.mem_cons.mp member with rfl | member
      · decide
      · rcases List.mem_append.mp member with named | added
        · have inside := List.all_eq_true.mp lower c (spelled ▸ named)
          exact (MediaQuery.isNameChar_of_isLowerNameChar inside).2.1
        · exact others c added
  unfold inner valueText
  cases given : expression.value with
  | none => exact visible [] (by simp)
  | some value =>
      have spelled := isValue_of_isCanonical canonical given
      simp only [isValue, Bool.and_eq_true, Bool.not_eq_true'] at spelled
      have colon : isBlank ':' = false := by decide
      have named := visible [':'] (by simpa using colon)
      have words := hasAnd_append_cons ('(' :: (expression.name.toList ++ [':'])) value.toList
        (show isBlank ' ' = true by decide)
      rw [named, spelled.2] at words
      simpa using words

theorem isEnclosed_text (canonical : expression.isCanonical = true) :
    MediaQuery.IsEnclosed expression.text.toList := by
  refine ⟨expression.inner, toList_text canonical, ?_, hasAnd_inner canonical⟩
  simpa using notMem_inner canonical (c := ')') (by decide)

theorem takeBound_name (canonical : expression.isCanonical = true) :
    MediaQuery.takeBound expression.name.toList =
      (expression.bound, expression.feature.toList) := by
  simp only [isCanonical, Bool.and_eq_true] at canonical
  have bounded := canonical.1.2
  unfold name
  cases given : expression.bound with
  | none =>
    simp only [given, Option.isSome_none, Bool.false_or, isUnbounded] at bounded
    unfold MediaQuery.takeBound
    split
    · simp_all
    · simp_all
    · rfl
  | some bound => cases bound <;> simp [MediaBound.name, MediaQuery.takeBound]

/-- The value of an expression is read up to the parenthesis, without the space before it. -/
theorem takeValue?_value (canonical : expression.isCanonical = true) :
    MediaQuery.takeValue? (expression.valueText ++ [')']) =
      some (expression.value.map String.toList) := by
  unfold valueText
  cases given : expression.value with
  | none => rfl
  | some value =>
      have spelled := isValue_of_isCanonical canonical given
      simp only [isValue, Bool.and_eq_true] at spelled
      rcases spelled with ⟨⟨⟨first, last⟩, -⟩, -⟩
      have inside : (' ' :: value.toList).all (· != ')') = true := by
        have other := notMem_inner canonical (show ')' ∈ ['(', ')', ','] by decide)
        simp only [inner, valueText, given, Option.elim_some, List.mem_append, List.mem_cons,
          not_or] at other
        simpa using fun c member (same : c = ')') => other.2.2.2 (same ▸ member)
      have taken : (' ' :: value.toList ++ [')']).takeWhile (· != ')') = ' ' :: value.toList :=
        Lists.takeWhile_append_of_stop inside rfl
      have trimmed : trim (' ' :: value.toList) = value.toList := by
        simpa using Stylesheet.trim_surrounded (show [' '].all isBlank = true by decide)
          first last (show [].all isBlank = true from rfl)
      have filled : value.toList.isEmpty = false := by
        cases text : value.toList with
        | nil => simp [text] at first
        | cons => rfl
      have colon : isBlank ':' = false := by decide
      simp only [List.cons_append] at taken
      simp [MediaQuery.takeValue?, MediaQuery.valueOf?, skipBlanks, colon, taken, trimmed, filled]

/-- An expression is read as it is written. -/
theorem readExpression?_text (canonical : expression.isCanonical = true) :
    MediaQuery.readExpression? expression.text.toList = some expression := by
  rcases exists_of_isCanonical canonical with ⟨first, word, spelled, starting, named⟩
  have trimmed : trim ('(' :: expression.inner ++ [')']) = '(' :: expression.inner ++ [')'] :=
    trim_of_parentheses rfl (List.getLast?_concat ..)
  have names := MediaQuery.all_isNameChar (spelled ▸ named)
  have stops : (expression.valueText ++ [')']).head?.any MediaQuery.isNameChar = false := by
    unfold valueText
    cases expression.value <;> rfl
  have taken := Lists.takeWhile_append_of_stop names stops
  have dropped := Lists.dropWhile_append_of_stop names stops
  rw [← List.append_assoc, ← inner] at taken dropped
  have starts : (expression.inner ++ [')']).head? = some first := by simp [inner, spelled]
  have visible : skipBlanks (expression.inner ++ [')']) = expression.inner ++ [')'] := by
    apply Stylesheet.skipBlanks_of_visible
    have inside := List.all_eq_true.mp named first List.mem_cons_self
    simp [starts, (MediaQuery.isNameChar_of_isLowerNameChar inside).2.1]
  rw [MediaQuery.readExpression?, toList_text canonical, trimmed]
  have lowered : lower expression.name.toList = expression.name.toList :=
    Stylesheet.lower_of_isLowerNameChar (spelled ▸ named)
  simp [visible, starts, starting, taken, dropped, takeValue?_value canonical, lowered,
    takeBound_name canonical]

end MediaExpression

end StyleObjects
