import StyleObjects.Proofs.Stylesheet.Lexing
import StyleObjects.Proofs.Stylesheet.Written

/-!
# Canonical texts

The words of a canonical tree survive what reading does to them: names stay as they are in lower
case, collapsed texts as they are without the blanks around them, and a list of selectors comes
apart at its commas.
-/

namespace StyleObjects.Stylesheet

open Text

/-! ## Characters -/

theorem ascii_of_isAlphanum {c : Char} (h : c.isAlphanum = true) : c.toNat < 128 := by
  unfold Char.isAlphanum Char.isAlpha Char.isUpper Char.isLower Char.isDigit at h
  simp only [Bool.or_eq_true, Bool.and_eq_true, decide_eq_true_eq, ge_iff_le,
    UInt32.le_iff_toNat_le] at h
  change c.val.toNat < 128
  have upper : 'Z'.val.toNat = 90 := rfl
  have lower : 'z'.val.toNat = 122 := rfl
  have digit : '9'.val.toNat = 57 := rfl
  omega

theorem isAlpha_of_isLower {c : Char} (letter : c.isLower = true) : c.isAlpha = true :=
  Bool.or_eq_true_iff.2 (.inr letter)

theorem ascii_of_isLowerNameChar {c : Char} (h : isLowerNameChar c = true) : c.toNat < 128 := by
  simp only [isLowerNameChar, Bool.or_eq_true, beq_iff_eq] at h
  rcases h with ((lower | digit) | rfl) | rfl
  · exact ascii_of_isAlphanum (by simp [Char.isAlphanum, isAlpha_of_isLower lower])
  · exact ascii_of_isAlphanum (by simp [Char.isAlphanum, digit])
  · decide
  · decide

theorem ascii_of_isSelectorChar {c : Char} (h : isSelectorChar c = true) : c.toNat < 128 := by
  simp only [isSelectorChar, Bool.or_eq_true] at h
  rcases h with letter | other
  · exact ascii_of_isAlphanum letter
  · simp only [List.contains_cons, List.contains_nil, Bool.or_eq_true, beq_iff_eq,
      Bool.false_eq_true, or_false] at other
    rcases other with rfl | rfl | rfl | rfl | rfl | rfl | rfl | rfl | rfl | rfl <;> decide

/-- A decidable property of ASCII characters can be checked on their codes. -/
theorem of_ascii {p : Char → Prop} (codes : ∀ code < 128, p (Char.ofNat code)) (c : Char)
    (ascii : c.toNat < 128) : p c :=
  Char.ofNat_toNat c ▸ codes c.toNat ascii

theorem isBlank_of_isAlpha {c : Char} (letter : c.isAlpha = true) : isBlank c = false := by
  have checked : ∀ c : Char, c.toNat < 128 → c.isAlpha = true → isBlank c = false := by
    apply of_ascii
    decide +kernel
  exact checked c (ascii_of_isAlphanum (by simp [Char.isAlphanum, letter])) letter

/-- What the characters of canonical names and of canonical selectors mean elsewhere. -/
theorem meaning_of_ascii {c : Char} (ascii : c.toNat < 128) :
    (isLowerNameChar c = true →
      (Token.isNameChar c = true ∧ Token.isSpace c = false ∧ c ≠ '@' ∧ c ≠ '/') ∧
        foldChar c = c ∧ lowerChar c = [c] ∧ c ≠ 'Σ') ∧
      (isSelectorChar c = true →
        (Token.isPlain c = true ∧ c ≠ '@' ∧ c ≠ '/') ∧
          Selector.bracketDepth 0 c = 0 ∧ Selector.separates 0 c = false) := by
  revert c
  apply of_ascii
  decide +kernel

/-- A character of a canonical name goes on with a name, and is neither space nor a sign. -/
theorem isNameChar_of_isLowerNameChar {c : Char} (h : isLowerNameChar c = true) :
    Token.isNameChar c = true ∧ Token.isSpace c = false ∧ c ≠ '@' ∧ c ≠ '/' :=
  ((meaning_of_ascii (ascii_of_isLowerNameChar h)).1 h).1

/-- A character of a canonical name stands for itself in lower case. -/
theorem lowerChar_of_isLowerNameChar {c : Char} (h : isLowerNameChar c = true) :
    foldChar c = c ∧ lowerChar c = [c] ∧ c ≠ 'Σ' :=
  ((meaning_of_ascii (ascii_of_isLowerNameChar h)).1 h).2

/-- A character of a canonical selector has no meaning outside of selectors. -/
theorem isPlain_of_isSelectorChar {c : Char} (h : isSelectorChar c = true) :
    Token.isPlain c = true ∧ c ≠ '@' ∧ c ≠ '/' :=
  ((meaning_of_ascii (ascii_of_isSelectorChar h)).2 h).1

/-- A character of a canonical selector neither opens brackets nor ends the selector. -/
theorem bracketDepth_of_isSelectorChar {c : Char} (h : isSelectorChar c = true) :
    Selector.bracketDepth 0 c = 0 ∧ Selector.separates 0 c = false :=
  ((meaning_of_ascii (ascii_of_isSelectorChar h)).2 h).2

theorem isBlank_of_isSpace {c : Char} (h : Token.isSpace c = true) : isBlank c = true := by
  simp only [Token.isSpace, Bool.or_eq_true, beq_iff_eq] at h
  rcases h with (((rfl | rfl) | rfl) | rfl) | rfl <;> decide

theorem isPlain_of_isSpace {c : Char} (h : Token.isSpace c = true) : Token.isPlain c = true := by
  simp only [Token.isSpace, Bool.or_eq_true, beq_iff_eq] at h
  rcases h with (((rfl | rfl) | rfl) | rfl) | rfl <;> decide

theorem isSpace_eq_false {c : Char} (visible : isBlank c = false) : Token.isSpace c = false := by
  rw [← Bool.not_eq_true] at visible ⊢
  exact fun space => visible (isBlank_of_isSpace space)

theorem isNameChar_of_isSpace {c : Char} (h : Token.isSpace c = true) :
    Token.isNameChar c = false := by
  simp only [Token.isSpace, Bool.or_eq_true, beq_iff_eq] at h
  rcases h with (((rfl | rfl) | rfl) | rfl) | rfl <;> decide

theorem isNameChar_of_isMark {c : Char} (h : Token.isMark c = true) :
    Token.isNameChar c = false := by
  simp only [Token.isMark, Bool.or_eq_true, beq_iff_eq] at h
  rcases h with (rfl | rfl) | rfl <;> decide

theorem isPlain_of_not_isValueMark {c : Char} (h : isValueMark c = false) :
    Token.isPlain c = true := by
  simp only [isValueMark, List.contains_cons, List.contains_nil, Bool.or_false,
    Bool.or_eq_false_iff, beq_eq_false_iff_ne] at h
  simp [Token.isPlain, Token.isMark, h]

namespace Gap

theorem all_isBlank (gap : Gap) : gap.1.all isBlank = true :=
  List.all_eq_true.2 fun c member => isBlank_of_isSpace (List.all_eq_true.1 gap.2 c member)

theorem all_isPlain (gap : Gap) : gap.1.all Token.isPlain = true :=
  List.all_eq_true.2 fun c member => isPlain_of_isSpace (List.all_eq_true.1 gap.2 c member)

/-- A gap and a mark end a name. -/
theorem stops_name (gap : Gap) {mark : Char} (isEnd : Token.isMark mark = true)
    (rest : List Char) : (gap.1 ++ mark :: rest).head?.any Token.isNameChar = false := by
  cases found : gap.1 with
  | nil => simpa using isNameChar_of_isMark isEnd
  | cons c cs => simpa using isNameChar_of_isSpace (List.all_eq_true.1 gap.2 c (by simp [found]))

end Gap

/-! ## Names -/

theorem lowerAfter_of_isLowerNameChar {cs : List Char} (canonical : cs.all isLowerNameChar = true)
    (before : List Char) : lowerAfter before cs = cs := by
  induction cs generalizing before with
  | nil => rfl
  | cons c cs ih =>
      simp only [List.all_cons, Bool.and_eq_true] at canonical
      rcases lowerChar_of_isLowerNameChar canonical.1 with ⟨-, same, sigma⟩
      simp [lowerAfter, sigma, same, ih canonical.2]

theorem lower_of_isLowerNameChar {cs : List Char} (canonical : cs.all isLowerNameChar = true) :
    lower cs = cs :=
  lowerAfter_of_isLowerNameChar canonical []

/-- The parts of a lower-case name. -/
theorem exists_of_isLowerName {starts : Char → Bool} {cs : List Char}
    (named : isLowerName starts cs = true) :
    ∃ c word, cs = c :: word ∧ (c.isLower || starts c) = true ∧
      word.all isLowerNameChar = true := by
  cases cs with
  | nil => simp [isLowerName] at named
  | cons c word =>
      simp only [isLowerName, Bool.and_eq_true] at named
      exact ⟨c, word, rfl, named⟩

/-- The dashes of a property and its name. -/
theorem exists_of_isPropertyName {cs : List Char} (named : isPropertyName cs = true) :
    ∃ count c word, count ≤ 2 ∧ cs = List.replicate count '-' ++ c :: word ∧
      (c.isLower || c == '_') = true ∧ word.all isLowerNameChar = true := by
  unfold isPropertyName at named
  split at named
  all_goals obtain ⟨c, word, rfl, starting, inside⟩ := exists_of_isLowerName named
  · exact ⟨2, c, word, by omega, rfl, starting, inside⟩
  · exact ⟨1, c, word, by omega, rfl, starting, inside⟩
  · exact ⟨0, c, word, by omega, rfl, starting, inside⟩

/-- The dash of an at-rule's name and the rest of it. -/
theorem exists_of_isAtRuleName {cs : List Char} (named : isAtRuleName cs = true) :
    ∃ count c word, count ≤ 1 ∧ cs = List.replicate count '-' ++ c :: word ∧
      c.isLower = true ∧ word.all isLowerNameChar = true := by
  simp only [isAtRuleName, Bool.and_eq_true] at named
  rcases exists_of_isLowerName named.1.1 with ⟨c, word, same, starting, inside⟩
  rw [Bool.or_false] at starting
  split at same
  · rename_i dash
    rcases List.head?_eq_some_iff.1 dash with ⟨rest, rfl⟩
    exact ⟨1, c, word, by omega, congrArg ('-' :: ·) same, starting, inside⟩
  · exact ⟨0, c, word, by omega, same, starting, inside⟩

theorem isLowerNameChar_of_starts {c : Char} (starting : (c.isLower || c == '_') = true) :
    isLowerNameChar c = true := by
  simp only [Bool.or_eq_true, beq_iff_eq] at starting
  rcases starting with letter | rfl
  · simp [isLowerNameChar, letter]
  · decide

theorem all_isLowerNameChar_dashed {c : Char} {word : List Char} (count : Nat)
    (starting : (c.isLower || c == '_') = true) (inside : word.all isLowerNameChar = true) :
    (List.replicate count '-' ++ c :: word).all isLowerNameChar = true := by
  have dash : isLowerNameChar '-' = true := by decide
  simp [dash, isLowerNameChar_of_starts starting, inside]

theorem all_isLowerNameChar_of_isPropertyName {cs : List Char} (named : isPropertyName cs = true) :
    cs.all isLowerNameChar = true := by
  rcases exists_of_isPropertyName named with ⟨count, c, word, -, rfl, starting, inside⟩
  exact all_isLowerNameChar_dashed count starting inside

theorem all_isLowerNameChar_of_isAtRuleName {cs : List Char} (named : isAtRuleName cs = true) :
    cs.all isLowerNameChar = true := by
  rcases exists_of_isAtRuleName named with ⟨count, c, word, -, rfl, letter, inside⟩
  exact all_isLowerNameChar_dashed count (by simp [letter]) inside

/-- A canonical property starts with a character of a name. -/
theorem head_of_isPropertyName {cs : List Char} (named : isPropertyName cs = true) :
    ∃ c rest, cs = c :: rest ∧ isLowerNameChar c = true := by
  have lower := all_isLowerNameChar_of_isPropertyName named
  cases cs with
  | nil => simp [isPropertyName, isLowerName] at named
  | cons c rest =>
      simp only [List.all_cons, Bool.and_eq_true] at lower
      exact ⟨c, rest, rfl, lower.1⟩

theorem all_isNameChar_of_isLowerNameChar {cs : List Char} (lower : cs.all isLowerNameChar = true) :
    cs.all Token.isNameChar = true :=
  List.all_eq_true.2 fun c member =>
    (isNameChar_of_isLowerNameChar (List.all_eq_true.1 lower c member)).1

/-- A canonical property in front of a colon and a value. -/
theorem takeProperty?_of_isPropertyName {name value : List Char}
    (named : isPropertyName name = true) (ends : Token.reachesEnd value = true) :
    Token.takeProperty? (name ++ ':' :: value) = some (name, ':' :: value) := by
  rcases exists_of_isPropertyName named with ⟨count, c, word, few, rfl, starting, inside⟩
  apply Token.takeProperty?_append few _ (all_isNameChar_of_isLowerNameChar inside) ends
  simp only [Bool.or_eq_true] at starting ⊢
  exact starting.imp_left isAlpha_of_isLower

/-- The name of a canonical at-rule after its sign. -/
theorem takeAtKeyword?_of_isAtRuleName {name rest : List Char} (named : isAtRuleName name = true)
    (stop : rest.head?.any Token.isNameChar = false) :
    Token.takeAtKeyword? ('@' :: (name ++ rest)) = some (name, rest) := by
  rcases exists_of_isAtRuleName named with ⟨count, c, word, few, rfl, letter, inside⟩
  exact Token.takeAtKeyword?_append few (isAlpha_of_isLower letter)
    (all_isNameChar_of_isLowerNameChar inside) stop

theorem isAlpha_of_toLower {c : Char} (letter : c.toLower.isLower = true) : c.isAlpha = true := by
  by_cases upper : c.isUpper = true
  · exact Bool.or_eq_true_iff.2 (.inl upper)
  · have same : c.toLower = c := dif_neg fun within => upper (decide_eq_true within)
    exact isAlpha_of_isLower (same ▸ letter)

theorem isNameChar_of_foldChar {c : Char} (letter : (foldChar c).isLower = true) :
    Token.isNameChar c = true := by
  unfold foldChar at letter
  split at letter
  · rename_i variant
    rcases variant with rfl | rfl <;> decide +kernel
  · split at letter
    · rename_i variant
      subst variant
      decide +kernel
    · split at letter
      · rename_i variant
        subst variant
        decide +kernel
      · have word : c.isAlphanum = true := by simp [Char.isAlphanum, isAlpha_of_toLower letter]
        simp [Token.isNameChar, isWord, ascii_of_isAlphanum word, word]

/-- A keyword in lower case starts a canonical name only if the name is written so. -/
theorem exists_of_dropKeyword? {word name rest after : List Char}
    (letters : word.all Char.isLower = true) (lower : name.all isLowerNameChar = true)
    (stop : rest.head?.any Token.isNameChar = false)
    (dropped : dropKeyword? word (name ++ rest) = some after) :
    ∃ ending, name = word ++ ending ∧ after = ending ++ rest := by
  induction word generalizing name with
  | nil =>
      simp only [dropKeyword?, Option.some.injEq] at dropped
      exact ⟨name, rfl, dropped.symm⟩
  | cons w word ih =>
      simp only [List.all_cons, Bool.and_eq_true] at letters
      cases name with
      | nil =>
          cases rest with
          | nil => simp [dropKeyword?] at dropped
          | cons c rest =>
              simp only [List.nil_append, dropKeyword?, Option.ite_none_right_eq_some] at dropped
              have inside := isNameChar_of_foldChar (dropped.1.symm ▸ letters.1)
              simp [inside] at stop
      | cons c name =>
          simp only [List.all_cons, Bool.and_eq_true] at lower
          simp only [List.cons_append, dropKeyword?, Option.ite_none_right_eq_some,
            (lowerChar_of_isLowerNameChar lower.1).1] at dropped
          rcases dropped with ⟨rfl, dropped⟩
          rcases ih letters.2 lower.2 dropped with ⟨ending, rfl, same⟩
          exact ⟨ending, rfl, same⟩

/-- The keyword `@media` starts no canonical at-rule. -/
theorem takeMediaKeyword?_of_isAtRuleName {name rest : List Char}
    (named : isAtRuleName name = true) (stop : rest.head?.any Token.isNameChar = false) :
    Token.takeMediaKeyword? ('@' :: (name ++ rest)) = none := by
  have lower := all_isLowerNameChar_of_isAtRuleName named
  rw [Token.takeMediaKeyword?, Option.bind_eq_none_iff]
  intro after dropped
  rcases exists_of_dropKeyword? (by decide) lower stop dropped with ⟨ending, rfl, rfl⟩
  rw [if_pos]
  cases ending with
  | nil => simp [isAtRuleName] at named
  | cons c ending =>
      have dash : c ≠ '-' := by
        intro equal
        subst equal
        simp [isAtRuleName] at named
      have inside : isLowerNameChar c = true := by simp_all
      have word := (isNameChar_of_isLowerNameChar inside).1
      simpa [Token.isNameChar, dash] using word

/-! ## Texts between blanks -/

theorem skipBlanks_append {before cs : List Char} (blank : before.all isBlank = true) :
    skipBlanks (before ++ cs) = skipBlanks cs :=
  List.dropWhile_append_of_pos (by simpa using blank)

theorem skipBlanks_of_visible {cs : List Char} (visible : cs.head?.any (!isBlank ·) = true) :
    skipBlanks cs = cs := by
  cases cs with
  | nil => rfl
  | cons c cs => simp_all [skipBlanks]

/-- A text that starts and ends with visible characters is what trimming leaves of it. -/
theorem trim_surrounded {before cs after : List Char} (left : before.all isBlank = true)
    (first : cs.head?.any (!isBlank ·) = true) (last : cs.getLast?.any (!isBlank ·) = true)
    (right : after.all isBlank = true) : trim (before ++ cs ++ after) = cs := by
  have start : (cs ++ after).head?.any (!isBlank ·) = true := by
    cases cs with
    | nil => simp at first
    | cons c cs => exact first
  have stop : cs.reverse.head?.any (!isBlank ·) = true := by rwa [List.head?_reverse]
  have blank : after.reverse.all isBlank = true := by rwa [List.all_reverse]
  have trailing : skipBlanks (after.reverse ++ cs.reverse) = skipBlanks cs.reverse :=
    skipBlanks_append blank
  rw [skipBlanks_of_visible stop] at trailing
  rw [trim, List.append_assoc, skipBlanks_append left, skipBlanks_of_visible start]
  simp only [dropTrailingBlanks, List.reverse_append]
  rw [← skipBlanks, trailing, List.reverse_reverse]

theorem trim_of_visible {cs : List Char} (first : cs.head?.any (!isBlank ·) = true)
    (last : cs.getLast?.any (!isBlank ·) = true) : trim cs = cs := by
  have nothing : ([] : List Char).all isBlank = true := rfl
  simpa using trim_surrounded nothing first last nothing

theorem all_isBlank_collapse {cs : List Char} (blank : cs.all isBlank = true) :
    (collapse cs).all isBlank = true := by
  induction cs with
  | nil => rfl
  | cons c cs ih =>
      simp only [List.all_cons, Bool.and_eq_true] at blank
      have space : isBlank ' ' = true := by decide
      rw [collapse, if_pos blank.1]
      split
      · exact ih blank.2
      · simp [space, ih blank.2]

theorem collapse_blanks_append {before cs : List Char} (blank : before.all isBlank = true)
    (visible : cs.head?.any isBlank = false) :
    collapse (before ++ cs) = collapse before ++ collapse cs := by
  induction before with
  | nil => rfl
  | cons c before ih =>
      simp only [List.all_cons, Bool.and_eq_true] at blank
      rw [List.cons_append, collapse, collapse, if_pos blank.1, if_pos blank.1, ih blank.2]
      cases before with
      | nil => simp [visible, collapse]
      | cons d before =>
          have next : isBlank d = true := by simp_all
          simp [next]

theorem collapse_append_of_isCollapsedAfter {cs after : List Char} {afterSpace : Bool}
    (collapsed : isCollapsedAfter afterSpace cs = true) :
    collapse (cs ++ after) = cs ++ collapse after := by
  induction cs generalizing afterSpace with
  | nil => rfl
  | cons c cs ih =>
      rw [isCollapsedAfter] at collapsed
      split at collapsed
      · rename_i space
        subst space
        simp only [Bool.and_eq_true] at collapsed
        have next : (cs ++ after).head?.any isBlank = false := by
          cases cs with
          | nil => simp [isCollapsedAfter] at collapsed
          | cons d cs =>
              have visible := collapsed.2
              rw [isCollapsedAfter] at visible
              split at visible <;> simp_all
        have blank : isBlank ' ' = true := by decide
        rw [List.cons_append, collapse, if_pos blank, next, ih collapsed.2]
        simp
      · simp only [Bool.and_eq_true, Bool.not_eq_true'] at collapsed
        rw [List.cons_append, collapse, collapsed.1, ih collapsed.2]
        simp

theorem head?_of_isCollapsedAfter {cs : List Char} (collapsed : isCollapsedAfter true cs = true) :
    cs.head?.any (!isBlank ·) = true := by
  cases cs with
  | nil => simp [isCollapsedAfter] at collapsed
  | cons c cs =>
      rw [isCollapsedAfter] at collapsed
      split at collapsed <;> simp_all

theorem getLast?_of_isCollapsedAfter {cs : List Char} {afterSpace : Bool} (filled : cs ≠ [])
    (collapsed : isCollapsedAfter afterSpace cs = true) :
    cs.getLast?.any (!isBlank ·) = true := by
  induction cs generalizing afterSpace with
  | nil => exact absurd rfl filled
  | cons c cs ih =>
      rw [isCollapsedAfter] at collapsed
      cases cs with
      | nil => split at collapsed <;> simp_all [isCollapsedAfter]
      | cons d cs =>
          rw [List.getLast?_cons_cons]
          split at collapsed
          all_goals
            simp only [Bool.and_eq_true] at collapsed
            exact ih (List.cons_ne_nil d cs) collapsed.2

/-- A collapsed text is what normalizing leaves of it, whatever blanks stand around it. -/
theorem normalize_surrounded {before cs after : List Char} (left : before.all isBlank = true)
    (filled : cs ≠ []) (collapsed : isCollapsed cs = true) (right : after.all isBlank = true) :
    normalize (before ++ cs ++ after) = cs := by
  have words : isCollapsedAfter true cs = true := by
    simpa [isCollapsed, filled] using collapsed
  have first := head?_of_isCollapsedAfter words
  have visible : (cs ++ after).head?.any isBlank = false := by
    cases cs with
    | nil => exact absurd rfl filled
    | cons c cs => simpa using first
  rw [Text.normalize, List.append_assoc, collapse_blanks_append left visible,
    collapse_append_of_isCollapsedAfter words, ← List.append_assoc]
  exact trim_surrounded (all_isBlank_collapse left) first
    (getLast?_of_isCollapsedAfter filled words) (all_isBlank_collapse right)

/-! ## Preludes -/

/-- A canonical prelude and the blanks after it have no mark, start visibly, and are the prelude
again when normalized. -/
theorem prelude_append_gap {cs : List Char} (canonical : isPrelude cs = true) (filled : cs ≠ [])
    (gap : Gap) :
    (cs ++ gap.1).all (!Token.isMark ·) = true ∧
      (∀ rest, (cs ++ gap.1 ++ rest).head?.any Token.isSpace = false) ∧
      normalize (cs ++ gap.1) = cs := by
  simp only [isPrelude, Bool.and_eq_true] at canonical
  rcases canonical with ⟨collapsed, inside⟩
  refine ⟨?_, ?_, ?_⟩
  · have unmarked : cs.all (!Token.isMark ·) = true :=
      List.all_eq_true.2 fun c member => by
        have here := List.all_eq_true.1 inside c member
        simp only [Bool.and_eq_true] at here
        exact here.1
    rw [List.all_append, unmarked, Token.all_not_isMark_of_plain gap.all_isPlain]
    rfl
  · intro rest
    have words : isCollapsedAfter true cs = true := by simpa [isCollapsed, filled] using collapsed
    have first := head?_of_isCollapsedAfter words
    rcases List.exists_cons_of_ne_nil filled with ⟨c, text, rfl⟩
    have visible : isBlank c = false := by simpa using first
    simpa using isSpace_eq_false visible
  · have none : ([] : List Char).all isBlank = true := rfl
    exact normalize_surrounded none filled collapsed gap.all_isBlank

/-! ## Lists of selectors -/

/-- Characters that leave a scan of a list of selectors outside of brackets, and cut nothing. -/
def IsUncut (cs : List Char) : Prop :=
  ∀ c ∈ cs, Selector.bracketDepth 0 c = 0 ∧ Selector.separates 0 c = false

theorem splitScanning_of_isUncut {cs : List Char} (uncut : IsUncut cs) :
    splitScanning Selector.bracketDepth Selector.separates 0 cs = [cs] := by
  induction cs with
  | nil => rfl
  | cons c cs ih =>
      rcases uncut c (by simp) with ⟨depth, stays⟩
      simp [splitScanning, depth, stays, ih fun d member => uncut d (by simp [member]), extendFirst]

theorem splitScanning_append_comma {cs : List Char} (uncut : IsUncut cs) (rest : List Char) :
    splitScanning Selector.bracketDepth Selector.separates 0 (cs ++ ',' :: rest) =
      cs :: splitScanning Selector.bracketDepth Selector.separates 0 rest := by
  induction cs with
  | nil => simp [splitScanning, Selector.separates, Selector.bracketDepth]
  | cons c cs ih =>
      rcases uncut c (by simp) with ⟨depth, stays⟩
      simp [splitScanning, depth, stays, ih fun d member => uncut d (by simp [member]), extendFirst]

theorem isUncut_of_isSelector {cs : List Char} (selector : isSelector cs = true) : IsUncut cs := by
  intro c member
  simp only [isSelector, Bool.and_eq_true] at selector
  exact bracketDepth_of_isSelectorChar (List.all_eq_true.1 selector.2 c member)

theorem isUncut_gap (gap : Gap) : IsUncut gap.1 := by
  intro c member
  have space := List.all_eq_true.1 gap.2 c member
  simp only [Token.isSpace, Bool.or_eq_true, beq_iff_eq] at space
  rcases space with (((rfl | rfl) | rfl) | rfl) | rfl <;> decide

theorem IsUncut.append {cs rest : List Char} (left : IsUncut cs) (right : IsUncut rest) :
    IsUncut (cs ++ rest) := by
  intro c member
  rcases List.mem_append.1 member with member | member
  · exact left c member
  · exact right c member

theorem normalize_selector {cs : List Char} (selector : isSelector cs = true)
    (before after : Gap) : normalize (before.1 ++ cs ++ after.1) = cs := by
  simp only [isSelector, Bool.and_eq_true, Bool.not_eq_true', List.isEmpty_eq_false_iff] at selector
  exact normalize_surrounded before.all_isBlank selector.1.1 selector.1.2 after.all_isBlank

/-- A list of canonical selectors comes apart into them. -/
theorem splitList_selectors (layout : Layout) {selectors : List String} (filled : selectors ≠ [])
    (canonical : selectors.all (fun selector => isSelector selector.toList) = true)
    (before after : Gap) :
    Selector.splitList (before.1 ++ layout.selectors selectors ++ after.1) =
      selectors.map String.toList := by
  induction selectors generalizing before with
  | nil => exact absurd rfl filled
  | cons selector others ih =>
      simp only [List.all_cons, Bool.and_eq_true] at canonical
      have uncut := isUncut_of_isSelector canonical.1
      have first := normalize_selector canonical.1 before
      have visible : selector.toList ≠ [] := by
        intro empty
        simp [empty, isSelector] at canonical
      cases others with
      | nil =>
          have whole := splitScanning_of_isUncut
            (((isUncut_gap before).append uncut).append (isUncut_gap after))
          simp only [Selector.splitList, Layout.selectors, whole, List.map_cons, List.map_nil,
            first]
          simp [visible]
      | cons other others =>
          have rest := ih (List.cons_ne_nil other others) canonical.2 layout.afterComma
          have cut := splitScanning_append_comma ((isUncut_gap before).append uncut)
            (layout.afterComma.1 ++ layout.selectors (other :: others) ++ after.1)
          have here := first ⟨[], rfl⟩
          rw [List.append_nil] at here
          simp only [Selector.splitList, Layout.selectors, List.append_assoc,
            List.cons_append] at cut rest ⊢
          rw [cut, List.map_cons, here, List.filter_cons_of_pos (by simpa using visible), rest]
          rfl

/-- What holds of spaces, commas and the characters of selectors holds of the characters of a
list of selectors. -/
theorem all_selectors {p : Char → Bool} (spaces : ∀ c, Token.isSpace c = true → p c = true)
    (comma : p ',' = true) (characters : ∀ c, isSelectorChar c = true → p c = true)
    (layout : Layout) {selectors : List String}
    (canonical : selectors.all (fun selector => isSelector selector.toList) = true) :
    (layout.selectors selectors).all p = true := by
  have gap : layout.afterComma.1.all p = true :=
    List.all_eq_true.2 fun c member => spaces c (List.all_eq_true.1 layout.afterComma.2 c member)
  induction selectors with
  | nil => rfl
  | cons selector others ih =>
      simp only [List.all_cons, Bool.and_eq_true] at canonical
      have parts := canonical.1
      simp only [isSelector, Bool.and_eq_true] at parts
      have first : selector.toList.all p = true :=
        List.all_eq_true.2 fun c member => characters c (List.all_eq_true.1 parts.2 c member)
      cases others with
      | nil => exact first
      | cons other others =>
          simp only [Layout.selectors, List.all_append, List.all_cons, first, comma, gap,
            ih canonical.2, Bool.and_self]

/-- A list of canonical selectors runs on plainly. -/
theorem all_isPlain_selectors (layout : Layout) {selectors : List String}
    (canonical : selectors.all (fun selector => isSelector selector.toList) = true) :
    (layout.selectors selectors).all Token.isPlain = true :=
  all_selectors (fun _ => isPlain_of_isSpace) (by decide)
    (fun _ h => (isPlain_of_isSelectorChar h).1) layout canonical

/-- A list of canonical selectors starts with a visible character that is no sign. -/
theorem head_of_selectors (layout : Layout) {selectors : List String} (filled : selectors ≠ [])
    (canonical : selectors.all (fun selector => isSelector selector.toList) = true) :
    ∃ c text, layout.selectors selectors = c :: text ∧ isBlank c = false ∧ c ≠ '@' := by
  rcases List.exists_cons_of_ne_nil filled with ⟨selector, others, rfl⟩
  simp only [List.all_cons, Bool.and_eq_true, isSelector, Bool.not_eq_true',
    List.isEmpty_eq_false_iff] at canonical
  rcases canonical with ⟨⟨⟨visible, collapsed⟩, characters⟩, -⟩
  rcases List.exists_cons_of_ne_nil visible with ⟨c, text, same⟩
  have first : isBlank c = false := by
    rw [same] at collapsed
    simpa using head?_of_isCollapsedAfter collapsed
  have sign := (isPlain_of_isSelectorChar (List.all_eq_true.1 characters c (by simp [same]))).2.1
  cases others with
  | nil => exact ⟨c, text, same, first, sign⟩
  | cons other others =>
      refine ⟨c, text ++ ',' :: (layout.afterComma.1 ++ layout.selectors (other :: others)), ?_,
        first, sign⟩
      simp [Layout.selectors, same]

theorem selectorsOf_selectors (layout : Layout) {selectors : List String} (filled : selectors ≠ [])
    (canonical : selectors.all (fun selector => isSelector selector.toList) = true)
    (after : Gap) : selectorsOf (layout.selectors selectors ++ after.1) = selectors := by
  have split := splitList_selectors layout filled canonical ⟨[], rfl⟩ after
  rw [List.nil_append] at split
  simp [selectorsOf, split]

end StyleObjects.Stylesheet
