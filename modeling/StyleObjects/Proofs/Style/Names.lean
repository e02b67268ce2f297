import StyleObjects.Proofs.Media.Lists
import StyleObjects.Proofs.Stylesheet.Canonical
import StyleObjects.Style.Key

/-!
# Names of properties and their keys

The name of a property is made of words in lower case, with hyphens between them and one more before
the name of a vendor's property.  Its key has a capital wherever the name has a hyphen and a letter
after it, so the name can be read back from the key, and no two names have the same key.
-/

namespace StyleObjects

namespace Text

/-! ## Capitals -/

theorem capital_of_isLower {c : Char} (letter : c.isLower = true) :
    (titleChar c = [c.toUpper] ∧ c.toUpper.isUpper = true ∧ c.toUpper.toLower = c) ∧
      c.isUpper = false ∧ c ≠ '-' ∧ c.toUpper ≠ '-' := by
  have checked : ∀ c : Char, c.toNat < 128 → c.isLower = true →
      (titleChar c = [c.toUpper] ∧ c.toUpper.isUpper = true ∧ c.toUpper.toLower = c) ∧
        c.isUpper = false ∧ c ≠ '-' ∧ c.toUpper ≠ '-' := by
    apply Stylesheet.of_ascii
    decide +kernel
  have alphanumeric : c.isAlphanum = true := by
    simp [Char.isAlphanum, Stylesheet.isAlpha_of_isLower letter]
  exact checked c (Stylesheet.ascii_of_isAlphanum alphanumeric) letter

/-- A word of ASCII letters in lower case. -/
def isLowerWord (word : List Char) : Bool :=
  !word.isEmpty && word.all Char.isLower

variable {word : List Char}

theorem all_isLower_of_isLowerWord (known : isLowerWord word = true) :
    word.all Char.isLower = true :=
  (Bool.and_eq_true_iff.mp known).2

theorem hyphen_not_mem_of_isLowerWord (known : isLowerWord word = true) : '-' ∉ word :=
  fun member =>
    have letter := List.all_eq_true.mp (all_isLower_of_isLowerWord known) _ member
    (capital_of_isLower letter).2.2.1 rfl

/-- Only the first letter of a word changes when the word is capitalised. -/
theorem exists_capitalize_eq (known : isLowerWord word = true) :
    ∃ c rest, word = c :: rest ∧ c.isLower = true ∧ rest.all Char.isLower = true ∧
      capitalize word = c.toUpper :: rest := by
  cases word with
  | nil => cases known
  | cons c rest =>
      have lower := all_isLower_of_isLowerWord known
      rw [List.all_cons, Bool.and_eq_true] at lower
      have names : rest.all Stylesheet.isLowerNameChar = true :=
        List.all_eq_true.mpr fun c member =>
          Stylesheet.isLowerNameChar_of_starts (by simp [List.all_eq_true.mp lower.2 c member])
      refine ⟨c, rest, rfl, lower.1, lower.2, ?_⟩
      rw [capitalize, (capital_of_isLower lower.1).1.1,
        Stylesheet.lowerAfter_of_isLowerNameChar names]
      rfl

theorem hyphen_not_mem_capitalize (known : isLowerWord word = true) : '-' ∉ capitalize word := by
  have absent := hyphen_not_mem_of_isLowerWord known
  rcases exists_capitalize_eq known with ⟨c, rest, rfl, letter, -, same⟩
  rw [List.mem_cons, not_or] at absent
  rw [same, List.mem_cons, not_or]
  exact ⟨(capital_of_isLower letter).2.2.2.symm, absent.2⟩

/-! ## Capitals read back -/

/-- A text with a hyphen and the letter in lower case for every capital. -/
def hyphenate (cs : List Char) : List Char :=
  cs.flatMap fun c => if c.isUpper then ['-', c.toLower] else [c]

theorem hyphenate_append (cs rest : List Char) :
    hyphenate (cs ++ rest) = hyphenate cs ++ hyphenate rest :=
  List.flatMap_append

theorem hyphenate_of_lower {cs : List Char} (lower : cs.all Char.isLower = true) :
    hyphenate cs = cs := by
  induction cs with
  | nil => rfl
  | cons c cs ih =>
      rw [List.all_cons, Bool.and_eq_true] at lower
      have small := (capital_of_isLower lower.1).2.1
      rw [hyphenate, List.flatMap_cons, ← hyphenate, ih lower.2, small]
      rfl

/-- The capital of a word gives back the hyphen before the word. -/
theorem hyphenate_capitalize (known : isLowerWord word = true) :
    hyphenate (capitalize word) = '-' :: word := by
  rcases exists_capitalize_eq known with ⟨c, rest, rfl, letter, lower, same⟩
  rcases capital_of_isLower letter with ⟨⟨-, capital, back⟩, -⟩
  rw [same, hyphenate, List.flatMap_cons, ← hyphenate, hyphenate_of_lower lower, capital, back]
  rfl

theorem hyphenate_flatMap_capitalize {words : List (List Char)}
    (known : words.all isLowerWord = true) :
    hyphenate (words.flatMap capitalize) = words.flatMap ('-' :: ·) := by
  rw [hyphenate, List.flatMap_assoc]
  exact List.flatMap_congr fun word listed =>
    hyphenate_capitalize (List.all_eq_true.mp known word listed)

end Text

open Text

/-! ## Names -/

/-- The name of a property: its words, and whether it is a vendor's. -/
structure PropertyName where
  vendor : Bool
  first : List Char
  others : List (List Char)
  lower : (first :: others).all isLowerWord = true

namespace PropertyName

/-- The characters of a name: its words with single hyphens between them, and one before the name of
a vendor's property. -/
def chars (name : PropertyName) : List Char :=
  (if name.vendor then ['-'] else []) ++ ['-'].intercalate (name.first :: name.others)

/-- The text of a name. -/
def text (name : PropertyName) : String :=
  String.ofList name.chars

variable (name : PropertyName)

theorem isLowerWord_first : isLowerWord name.first = true :=
  List.all_eq_true.mp name.lower _ List.mem_cons_self

theorem all_isLowerWord_others : name.others.all isLowerWord = true := by
  have lower := name.lower
  rw [List.all_cons, Bool.and_eq_true] at lower
  exact lower.2

theorem chars_eq : name.chars =
    (if name.vendor then '-' :: name.first else name.first) ++ name.others.flatMap ('-' :: ·) := by
  have joined (first : List Char) (others : List (List Char)) :
      ['-'].intercalate (first :: others) = first ++ others.flatMap ('-' :: ·) := by
    induction others generalizing first with
    | nil => simp
    | cons next others ih => simp [List.intercalate_cons_cons, ih]
  rw [chars, joined]
  cases name.vendor <;> rfl

/-- A name is cut into its words; the piece before the hyphen of a vendor is empty. -/
theorem filter_splitAt_chars :
    (splitAt '-' name.chars).filter (!·.isEmpty) = name.first :: name.others := by
  have known := List.all_eq_true.mp name.lower
  have cut : splitAt '-' (['-'].intercalate (name.first :: name.others)) =
      name.first :: name.others := by
    rw [splitAt_eq_splitOnP]
    exact List.splitOn_intercalate '-'
      (fun word listed => hyphen_not_mem_of_isLowerWord (known word listed)) (by simp)
  have words : (name.first :: name.others).filter (!·.isEmpty) = name.first :: name.others :=
    List.filter_eq_self.mpr fun word listed => (Bool.and_eq_true_iff.mp (known word listed)).1
  have hyphen (cs : List Char) : splitAt '-' ('-' :: cs) = [] :: splitAt '-' cs := rfl
  unfold chars
  cases name.vendor with
  | false => simpa [cut] using words
  | true => simpa [hyphen, cut] using words

/-- The key of a name has all words capitalised, but the first one only in the name of a vendor's
property. -/
theorem camelCase_chars : camelCase name.chars =
    (if name.vendor then capitalize name.first else name.first) ++
      name.others.flatMap capitalize := by
  rcases exists_capitalize_eq name.isLowerWord_first with ⟨c, rest, start, letter, -, -⟩
  have other := (capital_of_isLower letter).2.2.1
  have custom : name.chars.take 2 ≠ ['-', '-'] := by
    rw [chars_eq, start]
    cases name.vendor <;> simp [other]
  have vendor : name.chars.head? = some '-' ↔ name.vendor = true := by
    rw [chars_eq, start]
    cases name.vendor <;> simp [other]
  simp only [camelCase, custom, ↓reduceIte, filter_splitAt_chars, vendor]

/-- A name is read back from its key. -/
theorem hyphenate_camelCase : hyphenate (camelCase name.chars) = name.chars := by
  rw [camelCase_chars, chars_eq, hyphenate_append,
    hyphenate_flatMap_capitalize name.all_isLowerWord_others]
  congr 1
  cases name.vendor with
  | false => exact hyphenate_of_lower (all_isLower_of_isLowerWord name.isLowerWord_first)
  | true => exact hyphenate_capitalize name.isLowerWord_first

theorem hyphen_not_mem_camelCase : '-' ∉ camelCase name.chars := by
  have others := List.all_eq_true.mp name.all_isLowerWord_others
  rw [camelCase_chars, List.mem_append, List.mem_flatMap]
  rintro (member | ⟨word, listed, member⟩)
  · revert member
    cases name.vendor with
    | false => exact hyphen_not_mem_of_isLowerWord name.isLowerWord_first
    | true => exact hyphen_not_mem_capitalize name.isLowerWord_first
  · exact hyphen_not_mem_capitalize (others word listed) member

/-- No key of a name has a hyphen, and two names have the same key only if they are equal. -/
theorem styleKey_text_inj (name other : PropertyName) :
    '-' ∉ (styleKey name.text).toList ∧
      (styleKey name.text = styleKey other.text ↔ name.text = other.text) := by
  have spelled (name : PropertyName) : (styleKey name.text).toList = camelCase name.chars := by
    rw [styleKey, text, String.toList_ofList, String.toList_ofList]
  refine ⟨spelled name ▸ name.hyphen_not_mem_camelCase, fun same => ?_, congrArg styleKey⟩
  have keys : camelCase name.chars = camelCase other.chars := by
    rw [← spelled, ← spelled, same]
  rw [text, text, ← hyphenate_camelCase name, keys, hyphenate_camelCase]

example : ["-moz-tab-size", "moz-tab-size"].map styleKey = ["MozTabSize", "mozTabSize"] := by
  decide +kernel

end PropertyName

end StyleObjects
