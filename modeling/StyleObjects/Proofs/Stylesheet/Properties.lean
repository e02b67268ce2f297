import StyleObjects.Proofs.Stylesheet.Canonical

/-!
# Names of properties

The name of a declaration is that of a custom property, which starts with two dashes, or is in lower
case.  Lowering makes no capital letter of ASCII and no other ASCII character but small letters, so
no name has a space, and a name with a capital is that of a custom property.
-/

namespace StyleObjects

namespace Text

/-! ## Lower case -/

theorem toNat_ofNat {code : Nat} (valid : code.isValidChar) : (Char.ofNat code).toNat = code := by
  rw [Char.ofNat, dif_pos valid]
  rfl

/-- The images of a run are the codes of characters, which are small letters or lie beyond ASCII. -/
theorem lowerRuns_images : ∀ run ∈ lowerRuns,
    (run.image + (run.last - run.first) < 0xD800 ∨ 0xDFFF < run.image) ∧
      run.image + (run.last - run.first) < 0x110000 ∧
      (128 ≤ run.image ∨ 97 ≤ run.image ∧ run.image + (run.last - run.first) ≤ 122) := by
  decide +kernel

theorem isLower_ofNat : ∀ code, 97 ≤ code ∧ code ≤ 122 → (Char.ofNat code).isLower = true := by
  have letters : ∀ code < 123, 97 ≤ code → (Char.ofNat code).isLower = true := by decide
  intro code bounds
  exact letters code (by omega) bounds.1

/-- A character of the lower case of another one is a small letter, lies beyond ASCII, or is that
character itself and no capital letter. -/
theorem cases_of_mem_lowerChar {c image : Char} (member : image ∈ lowerChar c) :
    image.isLower = true ∨ 128 ≤ image.toNat ∨ (image = c ∧ image.isUpper = false) := by
  by_cases ascii : c.toNat < 128
  · have each : ∀ c : Char, c.toNat < 128 →
        c.toLower.isLower = true ∨ (c.toLower = c ∧ c.isUpper = false) := by
      apply Stylesheet.of_ascii
      decide +kernel
    simp only [lowerChar, if_pos ascii, List.mem_singleton] at member
    subst member
    rcases each c ascii with small | ⟨same, small⟩
    · exact .inl small
    · exact .inr (.inr ⟨same, same.symm ▸ small⟩)
  · simp only [lowerChar, if_neg ascii] at member
    split at member
    · rename_i codes found
      simp only [lowerSequences, List.lookup_cons, List.lookup_nil] at found
      split at found
      · cases found
        simp only [List.map_cons, List.map_nil, List.mem_cons, List.not_mem_nil, or_false] at member
        rcases member with rfl | rfl
        · exact .inl (by decide)
        · exact .inr (.inl (by decide))
      · cases found
    · rw [List.mem_singleton] at member
      subst member
      cases found : lowerRuns.findSome? (·.imageOf? c.toNat) with
      | none =>
          rw [Option.getD_none, Char.ofNat_toNat]
          exact .inr (.inl (Nat.le_of_not_lt ascii))
      | some code =>
          rcases List.exists_of_findSome?_eq_some found with ⟨run, listed, moved⟩
          rw [CaseRun.imageOf?, Option.ite_none_right_eq_some, Option.some.injEq] at moved
          rcases lowerRuns_images run listed with ⟨valid, inside, beyond | letter⟩
          · right
            left
            have valid : code.isValidChar := by
              simp only [Nat.isValidChar]
              omega
            rw [Option.getD_some, toNat_ofNat valid]
            omega
          · rw [Option.getD_some]
            exact .inl (isLower_ofNat code (by omega))

/-- An ASCII character of a text in lower case is a small letter, or a character of the text that is
no capital letter. -/
theorem cases_of_mem_lower {cs : List Char} {image : Char} (member : image ∈ lower cs) :
    image.isLower = true ∨ 128 ≤ image.toNat ∨ (image ∈ cs ∧ image.isUpper = false) := by
  unfold lower at member
  generalize [] = before at member
  induction cs generalizing before with
  | nil => simp [lowerAfter] at member
  | cons c cs ih =>
      rw [lowerAfter, List.mem_append] at member
      rcases member with first | later
      · split at first
        · have sigma : image = 'ς' ∨ image = 'σ' := by
            split at first
            · exact .inl (List.mem_singleton.mp first)
            · exact .inr (List.mem_singleton.mp first)
          rcases sigma with rfl | rfl <;> exact .inr (.inl (by decide))
        · rcases cases_of_mem_lowerChar first with letter | beyond | ⟨rfl, small⟩
          · exact .inl letter
          · exact .inr (.inl beyond)
          · exact .inr (.inr ⟨List.mem_cons_self, small⟩)
      · rcases ih (c :: before) later with letter | beyond | ⟨within, small⟩
        · exact .inl letter
        · exact .inr (.inl beyond)
        · exact .inr (.inr ⟨List.mem_cons_of_mem c within, small⟩)

theorem isUpper_of_mem_lower {cs : List Char} {c : Char} (member : c ∈ lower cs) :
    c.isUpper = false := by
  -- A capital letter is an ASCII character, and none of these is a small letter too.
  by_contra capital
  rw [Bool.not_eq_false] at capital
  have alpha : c.isAlpha = true := Bool.or_eq_true_iff.mpr (.inl capital)
  have word : c.isAlphanum = true := by simp [Char.isAlphanum, alpha]
  have ascii := Stylesheet.ascii_of_isAlphanum word
  rcases cases_of_mem_lower member with letter | beyond | ⟨-, small⟩
  · have apart : ∀ c : Char, c.toNat < 128 → c.isLower = true → c.isUpper = false := by
      apply Stylesheet.of_ascii
      decide +kernel
    rw [apart c ascii letter] at capital
    cases capital
  · exact absurd ascii (Nat.not_lt.mpr beyond)
  · rw [small] at capital
    cases capital

end Text

/-! ## Characters of names -/

namespace Token

open Text

theorem isNameChar_of_isAlpha {c : Char} (letter : c.isAlpha = true) : isNameChar c = true := by
  have word : c.isAlphanum = true := by simp [Char.isAlphanum, letter]
  simp [isNameChar, isWord, Stylesheet.ascii_of_isAlphanum word, word]

theorem all_isNameChar_takeDashes (limit : Nat) (cs : List Char) :
    (takeDashes limit cs).1.all isNameChar = true := by
  fun_induction takeDashes limit cs with
  | case1 limit cs dashes rest taken ih =>
      rw [taken] at ih
      exact ih
  | case2 => rfl

theorem all_isNameChar_of_takeName? {starts : Char → Bool}
    (named : ∀ c, starts c = true → isNameChar c = true) {cs name rest : List Char}
    (taken : takeName? starts cs = some (name, rest)) : name.all isNameChar = true := by
  cases cs with
  | nil => simp [takeName?] at taken
  | cons c cs =>
      simp only [takeName?, Option.ite_none_right_eq_some, Option.some.injEq, Prod.mk.injEq,
        Bool.or_eq_true] at taken
      rcases taken with ⟨starting, rfl, -⟩
      have first : isNameChar c = true := starting.elim isNameChar_of_isAlpha (named c)
      simp [first, List.all_takeWhile]

theorem all_isNameChar_of_takeProperty? {cs name rest : List Char}
    (taken : takeProperty? cs = some (name, rest)) : name.all isNameChar = true := by
  simp only [takeProperty?] at taken
  rcases Option.bind_eq_some_iff.mp taken with ⟨⟨word, after⟩, named, found⟩
  dsimp only at found
  split at found
  · rw [Option.ite_none_right_eq_some] at found
    cases found.2
    rw [List.all_append, all_isNameChar_takeDashes, Bool.true_and]
    refine all_isNameChar_of_takeName? (fun c first => ?_) named
    rw [beq_iff_eq.mp first]
    decide +kernel
  · cases found

end Token

/-! ## Names of declarations -/

/-- The shape of the name of a property: it has no space, and it starts with two dashes or has no
capital letter of ASCII. -/
structure IsDeclaredName (property : String) : Prop where
  unbroken : ' ' ∉ property.toList
  cased : property.toList.take 2 = ['-', '-'] ∨ ∀ c ∈ property.toList, c.isUpper = false

theorem Stylesheet.isDeclaredName_declarationOf {name : List Char}
    (named : name.all Token.isNameChar = true) (value : List Char) :
    IsDeclaredName (declarationOf name value).property := by
  have unbroken : ' ' ∉ name := by
    intro member
    have space := List.all_eq_true.mp named ' ' member
    exact absurd space (by decide +kernel)
  unfold declarationOf
  by_cases custom : name.take 2 = ['-', '-']
  · rw [if_pos custom]
    refine ⟨?_, .inl ?_⟩ <;> rwa [String.toList_ofList]
  · rw [if_neg custom]
    constructor
    · rw [String.toList_ofList]
      intro member
      rcases Text.cases_of_mem_lower member with letter | beyond | ⟨within, -⟩
      · exact absurd letter (by decide)
      · exact absurd beyond (by decide)
      · exact unbroken within
    · right
      intro c member
      rw [String.toList_ofList] at member
      exact Text.isUpper_of_mem_lower member

end StyleObjects
