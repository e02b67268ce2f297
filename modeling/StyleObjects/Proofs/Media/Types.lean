import Mathlib.Data.List.DropRight
import StyleObjects.Proofs.Media.Joints
import StyleObjects.Proofs.Media.Lists
import StyleObjects.Proofs.Stylesheet.Queries

/-!
# Words for types of media

A query that starts with a word, and is no qualifier, has the longest name for its type that leaves
nothing or an `and`.  That name is the word, with two exceptions.  An `and` needs no space before it,
so a word that ends in `and` is cut there if a parenthesis follows.  And a name goes on with the few
characters beyond ASCII that stand for letters where letter case plays no part.
-/

namespace StyleObjects

open Text

/-! ## Characters -/

namespace MediaQuery

/-- An ASCII letter or digit, an underscore or a hyphen. -/
def isTypeChar (c : Char) : Bool :=
  c.isAlphanum || c == '_' || c == '-'

/-- A word of ASCII characters that can name a type, in any letter case. -/
def isTypeWord : List Char → Bool
  | [] => false
  | c :: word => (c.isAlpha || c == '_') && word.all isTypeChar

/-- The characters beyond ASCII that stand for letters where letter case plays no part. -/
def letterVariants : List Char := ['ı', 'İ', 'ſ', '\u212a']

/-- The word ends in `and`, and has something before it. -/
def EndsInAnd (word : List Char) : Prop :=
  ∃ stem joins, stem ≠ [] ∧ isAnd joins = true ∧ word = stem ++ joins

theorem ascii_of_isTypeChar {c : Char} (typed : isTypeChar c = true) : c.toNat < 128 := by
  simp only [isTypeChar, Bool.or_eq_true, beq_iff_eq] at typed
  rcases typed with (letter | rfl) | rfl
  · exact Stylesheet.ascii_of_isAlphanum letter
  · decide
  · decide

/-- What the characters of types mean elsewhere. -/
theorem meaning_of_isTypeChar {c : Char} (typed : isTypeChar c = true) :
    isNameChar c = true ∧ isBlank c = false ∧ foldChar c = c.toLower ∧
      lowerChar c = [c.toLower] ∧ c ≠ 'Σ' := by
  have checked : ∀ c : Char, c.toNat < 128 → isTypeChar c = true →
      isNameChar c = true ∧ isBlank c = false ∧ foldChar c = c.toLower ∧
        lowerChar c = [c.toLower] ∧ c ≠ 'Σ' := by
    apply Stylesheet.of_ascii
    decide +kernel
  exact checked c (ascii_of_isTypeChar typed) typed

theorem isTypeChar_of_starts {c : Char} (starting : (c.isAlpha || c == '_') = true) :
    isTypeChar c = true := by
  rcases Bool.or_eq_true_iff.mp starting with letter | mark
  · simp [isTypeChar, Char.isAlphanum, letter]
  · simp [isTypeChar, mark]

/-- Any other character is only taken for itself. -/
theorem foldChar_of_not_mem_letterVariants {c : Char} (plain : c ∉ letterVariants) :
    foldChar c = c.toLower := by
  simp only [letterVariants, List.mem_cons, List.not_mem_nil, or_false, not_or] at plain
  simp [foldChar, plain]

/-- A name goes on with a character of types, or with one beyond ASCII that stands for a letter. -/
theorem isTypeChar_or_mem_of_isNameChar {c : Char} (named : isNameChar c = true) :
    isTypeChar c = true ∨ c ∈ letterVariants := by
  by_cases variant : c ∈ letterVariants
  · exact .inr variant
  · have folded := foldChar_of_not_mem_letterVariants variant
    simp only [isNameChar, startsName, folded, Bool.or_eq_true] at named
    left
    rcases named with ((letter | mark) | digit) | mark
    · simp [isTypeChar, Char.isAlphanum, Stylesheet.isAlpha_of_toLower letter]
    · simp [isTypeChar, mark]
    · simp [isTypeChar, Char.isAlphanum, digit]
    · simp [isTypeChar, mark]

theorem foldChar_of_mem_letterVariants {c : Char} (variant : c ∈ letterVariants) :
    foldChar c ≠ 'a' ∧ isBlank c = false := by
  have checked : letterVariants.all (fun c => foldChar c != 'a' && !isBlank c) = true := by decide
  simpa using List.all_eq_true.mp checked c variant

/-! ## Words -/

variable {word rest : List Char}

theorem all_isTypeChar_of_isTypeWord (typed : isTypeWord word = true) :
    word.all isTypeChar = true := by
  cases word with
  | nil => cases typed
  | cons c word =>
      simp only [isTypeWord, Bool.and_eq_true] at typed
      rw [List.all_cons, isTypeChar_of_starts typed.1, typed.2]
      rfl

theorem all_isNameChar_of_isTypeWord (typed : isTypeWord word = true) :
    word.all isNameChar = true :=
  List.all_eq_true.mpr fun c member =>
    (meaning_of_isTypeChar (List.all_eq_true.mp (all_isTypeChar_of_isTypeWord typed) c member)).1

theorem visible_of_isTypeWord (typed : isTypeWord word = true) {c : Char} (member : c ∈ word) :
    isBlank c = false :=
  (meaning_of_isTypeChar
    (List.all_eq_true.mp (all_isTypeChar_of_isTypeWord typed) c member)).2.1

/-- Nothing in front of a word, and nothing of it, is trimmed. -/
theorem trim_append (typed : isTypeWord word = true) (rest : List Char) :
    trim (word ++ rest) = word ++ dropTrailingBlanks rest := by
  have first : (word ++ rest).head?.any (!isBlank ·) = true := by
    cases word with
    | nil => cases typed
    | cons c word => simp [visible_of_isTypeWord typed List.mem_cons_self]
  have last : word.reverse.dropWhile isBlank = word.reverse := by
    cases reversed : word.reverse with
    | nil => rfl
    | cons c others =>
        have member : c ∈ word := List.mem_reverse.mp (reversed ▸ List.mem_cons_self)
        simp [visible_of_isTypeWord typed member]
  rw [trim, Stylesheet.skipBlanks_of_visible first, dropTrailingBlanks, dropTrailingBlanks,
    List.reverse_append, List.dropWhile_append, last]
  split
  · rename_i blank
    simp [List.isEmpty_iff.mp blank]
  · simp

theorem lower_of_all_isTypeChar {cs : List Char} (typed : cs.all isTypeChar = true) :
    lower cs = cs.map Char.toLower := by
  unfold lower
  generalize [] = before
  induction cs generalizing before with
  | nil => rfl
  | cons c cs ih =>
      rw [List.all_cons, Bool.and_eq_true] at typed
      rcases meaning_of_isTypeChar typed.1 with ⟨-, -, -, lowered, sigma⟩
      rw [lowerAfter, if_neg sigma, lowered, ih typed.2]
      rfl

/-- No text gets shorter in lower case. -/
theorem length_le_lower (cs : List Char) : cs.length ≤ (lower cs).length := by
  have filled (c : Char) : 0 < (lowerChar c).length := by
    have images : ∀ image ∈ lowerSequences.map Prod.snd, 0 < image.length := by decide
    unfold lowerChar
    dsimp only
    split
    · exact Nat.one_pos
    · split
      · rename_i image found
        rcases List.lookup_eq_some_iff.mp found with ⟨before, after, listed, -⟩
        rw [List.length_map]
        exact images image (by simp [listed])
      · exact Nat.one_pos
  unfold lower
  generalize [] = before
  induction cs generalizing before with
  | nil => exact Nat.le_refl _
  | cons c cs ih =>
      have others := ih (c :: before)
      rw [lowerAfter, List.length_append, List.length_cons]
      split
      · split <;> rw [List.length_singleton] <;> omega
      · have := filled c
        omega

/-! ## Tails -/

/-- The first visible character of a text is the same without the blanks at its end. -/
theorem head?_skipBlanks_dropTrailingBlanks (cs : List Char) :
    (skipBlanks (dropTrailingBlanks cs)).head? = (skipBlanks cs).head? := by
  rcases exists_dropTrailingBlanks cs with ⟨blanks, blank, split⟩
  have nothing : blanks.dropWhile isBlank = [] :=
    List.dropWhile_eq_nil_iff.mpr (List.all_eq_true.mp blank)
  conv_rhs => rw [split, skipBlanks, List.dropWhile_append, nothing]
  rw [skipBlanks]
  cases (dropTrailingBlanks cs).dropWhile isBlank <;> rfl

/-- A text starts with the same visible character without the blanks at its end. -/
theorem any_head?_dropTrailingBlanks {p : Char → Bool} (cs : List Char)
    (visible : ∀ c, p c = true → isBlank c = false) :
    (dropTrailingBlanks cs).head?.any p = cs.head?.any p := by
  rcases exists_dropTrailingBlanks cs with ⟨blanks, blank, split⟩
  conv_rhs => rw [split]
  cases dropTrailingBlanks cs with
  | cons c others => rfl
  | nil =>
      cases blanks with
      | nil => rfl
      | cons c others =>
          have here := List.all_eq_true.mp blank c List.mem_cons_self
          have outside : p c = false := by
            rw [Bool.eq_false_iff]
            intro inside
            rw [visible c inside] at here
            cases here
          simp [outside]

/-- A tail is nothing, or starts with an `and`. -/
theorem foldChar_of_takeTail? {cs : List Char} {tail : Option (List Char)}
    (taken : takeTail? cs = some tail) {c : Char} (first : (skipBlanks cs).head? = some c) :
    foldChar c = 'a' := by
  rcases List.head?_eq_some_iff.mp first with ⟨others, visible⟩
  have filled : cs.isEmpty = false := by
    cases cs with
    | nil => cases visible
    | cons => rfl
  rw [takeTail?, if_neg (by simp [filled]), takeAnd?, visible, dropKeyword?] at taken
  by_contra other
  rw [if_neg other] at taken
  cases taken

/-- The tail behind a visible character starts after the `and` that this character begins. -/
theorem exists_of_takeTail? {cs : List Char} {tail : Option (List Char)}
    (taken : takeTail? cs = some tail) {c : Char} (first : cs.head? = some c)
    (visible : isBlank c = false) :
    ∃ joins after, isAnd joins = true ∧ cs = joins ++ after ∧ tail = some (skipBlanks after) := by
  rcases List.head?_eq_some_iff.mp first with ⟨others, rfl⟩
  have unskipped : skipBlanks (c :: others) = c :: others :=
    Stylesheet.skipBlanks_of_visible (by simp [visible])
  rw [takeTail?, if_neg (by simp), takeAnd?, unskipped, Option.map_map,
    Option.map_eq_some_iff] at taken
  rcases taken with ⟨after, dropped, rfl⟩
  rcases exists_isAnd_of_dropKeyword? dropped with ⟨joins, split, isAnd⟩
  exact ⟨joins, after, isAnd, split, rfl⟩

/-- The longest name that leaves a tail is taken. -/
theorem exists_of_takeType? {length : Nat} {cs type : List Char} {tail : Option (List Char)}
    (taken : takeType? length cs = some (type, tail)) :
    ∃ count, 0 < count ∧ count ≤ length ∧ type = cs.take count ∧
      takeTail? (cs.drop count) = some tail := by
  fun_induction takeType? length cs with
  | case1 => cases taken
  | case2 length cs left found =>
      cases taken
      exact ⟨length + 1, Nat.succ_pos _, Nat.le_refl _, rfl, found⟩
  | case3 length cs none ih =>
      rcases ih taken with ⟨count, positive, bounded, found⟩
      exact ⟨count, positive, Nat.le_succ_of_le bounded, found⟩

/-- Expressions start with a parenthesis. -/
theorem head?_of_readExpression? {c : Char} {cs : List Char} {expression : MediaExpression}
    (read : readExpression? (c :: cs) = some expression) (visible : isBlank c = false) : c = '(' := by
  have first : (trim (c :: cs)).head? = some c := by
    have starts : skipBlanks (c :: cs) = c :: cs :=
      Stylesheet.skipBlanks_of_visible (by simp [visible])
    rcases trim_isPrefix (c :: cs) with ⟨trailing, same⟩
    rw [starts] at same
    cases trimmed : trim (c :: cs) with
    | nil => exact absurd trimmed (trim_ne_nil List.mem_cons_self visible)
    | cons d others =>
        rw [trimmed, List.cons_append, List.cons.injEq] at same
        rw [List.head?_cons, same.1]
  unfold readExpression? at read
  split at read
  · rename_i opened
    rw [opened] at first
    exact (Option.some.inj first).symm
  · cases read

/-- The expressions behind a type start with a parenthesis, whatever blanks come before it. -/
theorem head?_of_expressions? {inverse : Bool} {type tail : List Char}
    {pieces : List (List Char)} {expressions : List MediaExpression}
    (parted : (Outline.mk inverse type none (some tail)).expressions? = some pieces)
    (read : pieces.mapM readExpression? = some expressions) :
    (skipBlanks tail).head? = some '(' := by
  simp only [Outline.expressions?, Option.toList_none, List.nil_append,
    Option.ite_none_left_eq_some, Option.some.injEq, List.isEmpty_iff] at parted
  rcases parted with ⟨filled, rfl⟩
  rcases trim_isPrefix tail with ⟨trailing, same⟩
  cases trimmed : trim tail with
  | nil => exact absurd trimmed filled
  | cons c others =>
      have visible : isBlank c = false := isBlank_of_head?_trim (by rw [trimmed]; rfl)
      -- No joint stands at the start, so the first piece begins with the first character.
      have uncut : takeJoint? false (c :: others) = none := by
        rw [takeJoint?, Option.bind_eq_none_iff]
        intro after _
        simp [visible]
      rw [trimmed, splitTail_of_uncut uncut] at read
      rw [← same, trimmed, List.cons_append, List.head?_cons]
      cases cut : splitTail (c == ')') others with
      | nil =>
          rw [cut, extendFirst, List.mapM_cons] at read
          rcases Option.bind_eq_some_iff.mp read with ⟨expression, first, -⟩
          rw [head?_of_readExpression? first visible]
      | cons piece pieces =>
          rw [cut, extendFirst, List.mapM_cons] at read
          rcases Option.bind_eq_some_iff.mp read with ⟨expression, first, -⟩
          rw [head?_of_readExpression? first visible]

/-! ## Qualifiers -/

/-- A word that is no qualifier is not taken for one, and neither is a word that starts with one. -/
theorem dropQualifier?_eq_none {qualifier : List Char} (typed : isTypeWord word = true)
    (apart : rest.head?.any isTypeChar = false)
    (plain : qualifier.all (fun c => !List.contains ['i', 's', 'k'] c && c.isLower) = true)
    (other : word.map Char.toLower ≠ qualifier) :
    dropQualifier? qualifier (word ++ rest) = none := by
  rw [dropQualifier?, Option.bind_eq_none_iff]
  intro after dropped
  rw [if_neg]
  rcases exists_append_of_dropKeyword? dropped with ⟨spelled, split, folded⟩
  have letters : ∀ c ∈ spelled, foldChar c = c.toLower ∧ c.isAlpha = true := by
    intro c member
    have inside := List.all_eq_true.mp plain (foldChar c) (folded ▸ List.mem_map_of_mem member)
    rw [Bool.and_eq_true, Bool.not_eq_true', ← Bool.not_eq_true, List.contains_iff_mem] at inside
    have same := (foldChar_cases c).resolve_right inside.1
    rw [same] at inside
    exact ⟨same, Stylesheet.isAlpha_of_toLower inside.2⟩
  have differs : spelled ≠ word := by
    rintro rfl
    exact other ((List.map_congr_left fun c member => (letters c member).1).symm.trans folded)
  rcases List.append_eq_append_iff.mp split with ⟨tail, longer, left⟩ | ⟨tail, shorter, left⟩
  · cases tail with
    | nil => exact absurd (by simpa using longer) differs
    | cons c tail =>
        -- The text behind the word would go on with a letter of the qualifier.
        have letter := (letters c (by simp [longer])).2
        simp [left, isTypeChar, Char.isAlphanum, letter] at apart
  · cases tail with
    | nil => exact absurd (by simpa using shorter.symm) differs
    | cons c tail =>
        have visible := visible_of_isTypeWord typed (by simp [shorter] : c ∈ word)
        simp [left, visible]

/-- A query that starts with a word other than a qualifier is taken apart into a type and a tail. -/
theorem outline?_eq_some {outline : Outline} (typed : isTypeWord word = true)
    (other : word.map Char.toLower ∉ [['o', 'n', 'l', 'y'], ['n', 'o', 't']])
    (apart : rest.head?.any isTypeChar = false) (found : outline? (word ++ rest) = some outline) :
    ∃ type tail, takeTyped? (word ++ rest) = some (type, tail) ∧
      outline = ⟨false, type, none, tail⟩ := by
  simp only [List.mem_cons, List.not_mem_nil, or_false, not_or] at other
  have only := dropQualifier?_eq_none typed apart (by decide) other.1
  have negated := dropQualifier?_eq_none typed apart (by decide) other.2
  have untyped : takeUntyped? (word ++ rest) = none := by
    cases word with
    | nil => cases typed
    | cons c word =>
        have visible : c ≠ '(' := by
          rintro rfl
          cases typed
        simp [takeUntyped?, visible]
  cases taken : takeTyped? (word ++ rest) with
  | none =>
      simp [outline?, takeQualified?, takeUnqualified?, only, negated, untyped, taken] at found
  | some parts =>
      simp only [outline?, takeQualified?, takeUnqualified?, only, negated, taken, Option.bind_none,
        Option.map_none, Option.orElse_none, Option.map_some, Option.orElse_some,
        Option.some.injEq] at found
      exact ⟨parts.1, parts.2, rfl, found.symm⟩

/-! ## Types -/

/-- The type at the start of a text is the longest part of its name that leaves a tail. -/
theorem exists_of_takeTyped? {cs type : List Char} {tail : Option (List Char)}
    (taken : takeTyped? cs = some (type, tail)) :
    ∃ count, 0 < count ∧ count ≤ (cs.takeWhile isNameChar).length ∧ type = cs.take count ∧
      takeTail? (cs.drop count) = some tail := by
  rw [takeTyped?, Option.ite_none_right_eq_some] at taken
  exact exists_of_takeType? taken.2

/-- Only the whole word is the word in lower case. -/
theorem lower_take_eq_iff (typed : isTypeWord word = true) {count : Nat}
    (bounded : count ≤ (word ++ rest).length) :
    lower ((word ++ rest).take count) = lower word ↔ count = word.length := by
  have letters := all_isTypeChar_of_isTypeWord typed
  have whole : (lower word).length = word.length := by
    rw [lower_of_all_isTypeChar letters, List.length_map]
  constructor
  · intro same
    have lengths := (congrArg List.length same).trans whole
    rcases Nat.lt_or_ge count word.length with shorter | longer
    · have part : (word.take count).all isTypeChar = true :=
        List.all_eq_true.mpr fun c member =>
          List.all_eq_true.mp letters c (List.mem_of_mem_take member)
      rw [List.take_append_of_le_length (Nat.le_of_lt shorter), lower_of_all_isTypeChar part,
        List.length_map, List.length_take] at lengths
      omega
    · have lowered := length_le_lower ((word ++ rest).take count)
      rw [List.length_take, Nat.min_eq_left bounded] at lowered
      omega
  · rintro rfl
    rw [List.take_left]

/-- An `and` in front of a parenthesis ends where the characters of a type end. -/
theorem eq_of_isAnd_append {ending joins after : List Char} (typed : ending.all isTypeChar = true)
    (apart : rest.head?.any isTypeChar = false) (isAnd : isAnd joins = true)
    (split : ending ++ rest = joins ++ after) (opens : (skipBlanks after).head? = some '(') :
    joins = ending ∧ after = rest := by
  rcases List.append_eq_append_iff.mp split with ⟨more, longer, left⟩ | ⟨more, shorter, left⟩
  · cases more with
    | nil => exact ⟨by simpa using longer, by simpa using left.symm⟩
    | cons c more =>
        have letter := isAlpha_of_isAnd isAnd (by simp [longer] : c ∈ joins)
        simp [left, isTypeChar, Char.isAlphanum, letter] at apart
  · cases more with
    | nil => exact ⟨by simpa using shorter.symm, by simpa using left⟩
    | cons c more =>
        have inside : isTypeChar c = true := List.all_eq_true.mp typed c (by simp [shorter])
        have visible := (meaning_of_isTypeChar inside).2.1
        rw [left, Stylesheet.skipBlanks_of_visible (by simp [visible])] at opens
        cases opens
        cases inside

/-- A tail that starts inside a word starts with an `and` at the end of the word. -/
theorem endsInAnd_of_takeTail? (typed : isTypeWord word = true)
    (apart : rest.head?.any isTypeChar = false) {count : Nat} {tail : Option (List Char)}
    (positive : 0 < count) (shorter : count < word.length)
    (taken : takeTail? ((word ++ rest).drop count) = some tail)
    (opens : ∀ text, tail = some text → (skipBlanks text).head? = some '(') :
    EndsInAnd word ∧ (skipBlanks rest).head? = some '(' := by
  rw [List.drop_append_of_le_length (Nat.le_of_lt shorter)] at taken
  have parts := List.take_append_drop count word
  have length := List.length_drop (i := count) (l := word)
  cases ending : word.drop count with
  | nil =>
      rw [ending, List.length_nil] at length
      omega
  | cons c others =>
      have within : ∀ d ∈ c :: others, d ∈ word := fun d member =>
        List.mem_of_mem_drop (ending ▸ member)
      have inside : (c :: others).all isTypeChar = true :=
        List.all_eq_true.mpr fun d member =>
          List.all_eq_true.mp (all_isTypeChar_of_isTypeWord typed) d (within d member)
      have visible := visible_of_isTypeWord typed (within c List.mem_cons_self)
      rw [ending] at taken parts
      rcases exists_of_takeTail? taken rfl visible with ⟨joins, after, isAnd, split, rfl⟩
      have parenthesis := opens _ rfl
      rw [skipBlanks, skipBlanks, List.dropWhile_idempotent, ← skipBlanks] at parenthesis
      rcases eq_of_isAnd_append inside apart isAnd split parenthesis with ⟨rfl, rfl⟩
      have filled : word.take count ≠ [] := by
        rw [Ne, List.take_eq_nil_iff, not_or]
        exact ⟨by omega, by rintro rfl; cases typed⟩
      exact ⟨⟨_, _, filled, isAnd, parts.symm⟩, parenthesis⟩

theorem any_isNameChar_eq_false (apart : rest.head?.any isTypeChar = false)
    (ends : rest.head?.any letterVariants.contains = false) :
    rest.head?.any isNameChar = false := by
  cases first : rest.head? with
  | none => rfl
  | some c =>
      rw [first, Option.any_some] at apart ends
      rw [Option.any_some, Bool.eq_false_iff]
      intro named
      rcases isTypeChar_or_mem_of_isNameChar named with inside | variant
      · rw [inside] at apart
        cases apart
      · rw [List.contains_iff_mem.mpr variant] at ends
        cases ends

/-- The type is the whole word if and only if no name goes on behind it, and no `and` at its end is
taken for that of a tail. -/
theorem length_eq_iff (typed : isTypeWord word = true) (apart : rest.head?.any isTypeChar = false)
    {count : Nat} {tail : Option (List Char)} (positive : 0 < count)
    (bounded : count ≤ ((word ++ rest).takeWhile isNameChar).length)
    (taken : takeTail? ((word ++ rest).drop count) = some tail)
    (opens : ∀ text, tail = some text → (skipBlanks text).head? = some '(') :
    count = word.length ↔
      ¬(EndsInAnd word ∧ (skipBlanks rest).head? = some '(') ∧
        rest.head?.any letterVariants.contains = false := by
  constructor
  · rintro rfl
    rw [List.drop_left] at taken
    refine ⟨fun ⟨_, parenthesis⟩ => ?_, ?_⟩
    · exact absurd (foldChar_of_takeTail? taken parenthesis) (by decide)
    · rw [Bool.eq_false_iff]
      intro goesOn
      rcases (Option.any_eq_true _ _).mp goesOn with ⟨c, first, variant⟩
      have fold := foldChar_of_mem_letterVariants (List.contains_iff_mem.mp variant)
      apply fold.1
      apply foldChar_of_takeTail? taken
      rw [Stylesheet.skipBlanks_of_visible (by simp [first, fold.2]), first]
  · rintro ⟨uncut, ends⟩
    have stop := any_isNameChar_eq_false apart ends
    rw [Lists.takeWhile_append_of_stop (all_isNameChar_of_isTypeWord typed) stop] at bounded
    refine (Nat.lt_or_eq_of_le bounded).resolve_left fun shorter => uncut ?_
    exact endsInAnd_of_takeTail? typed apart positive shorter taken opens

/-- A query that starts with a word has the word for its type if and only if no name goes on behind
the word, and no `and` at its end stands in front of a parenthesis. -/
theorem type_eq_iff_of_readQuery? {query : MediaQuery} (typed : isTypeWord word = true)
    (other : word.map Char.toLower ∉ [['o', 'n', 'l', 'y'], ['n', 'o', 't']])
    (apart : rest.head?.any isTypeChar = false) (read : readQuery? (word ++ rest) = some query) :
    query.type = String.ofList (lower word) ↔
      ¬(EndsInAnd word ∧ (skipBlanks rest).head? = some '(') ∧
        rest.head?.any letterVariants.contains = false := by
  -- The blanks at the end of the text play no part.
  have visible : ∀ c, isTypeChar c = true → isBlank c = false := fun c typed =>
    (meaning_of_isTypeChar typed).2.1
  have seen : ∀ c, letterVariants.contains c = true → isBlank c = false := fun c variant =>
    (foldChar_of_mem_letterVariants (List.contains_iff_mem.mp variant)).2
  rw [← any_head?_dropTrailingBlanks rest visible] at apart
  rw [← any_head?_dropTrailingBlanks rest seen, ← head?_skipBlanks_dropTrailingBlanks]
  rw [readQuery?, trim_append typed] at read
  rcases Option.bind_eq_some_iff.mp read with ⟨outline, outlined, read⟩
  rcases Option.bind_eq_some_iff.mp read with ⟨pieces, parted, read⟩
  rcases Option.bind_eq_some_iff.mp read with ⟨expressions, listed, same⟩
  rcases outline?_eq_some typed other apart outlined with ⟨type, tail, taken, rfl⟩
  rcases exists_of_takeTyped? taken with ⟨count, positive, bounded, rfl, left⟩
  cases same
  rw [← length_eq_iff typed apart positive bounded left, String.ofList_inj,
    lower_take_eq_iff typed]
  · exact bounded.trans (List.takeWhile_prefix _).length_le
  · rintro text rfl
    exact head?_of_expressions? parted listed

/-- The type of a query that starts with a word is the word in lower case, unless the word ends in
`and` in front of a parenthesis, or a character that stands for a letter comes behind it. -/
theorem type_eq_lowered_iff {word text : String} {queries : List MediaQuery}
    (typed : isTypeWord word.toList = true) (other : lowered word ∉ ["only", "not"])
    (single : ',' ∉ text.toList) (apart : text.toList.head?.any isTypeChar = false)
    (parsed : parse? (word ++ text) = some queries) :
    ∃ query, queries = [query] ∧
      (query.type = lowered word ↔
        ¬(EndsInAnd word.toList ∧ (skipBlanks text.toList).head? = some '(') ∧
          text.toList.head?.any letterVariants.contains = false) := by
  have letters := all_isTypeChar_of_isTypeWord typed
  have named : ',' ∉ word.toList := fun member =>
    absurd (List.all_eq_true.mp letters ',' member) (by decide)
  have whole : splitAt ',' (word ++ text).toList = [word.toList ++ text.toList] := by
    rw [String.toList_append, splitAt_eq_splitOnP, List.splitOnP_eq_singleton]
    intro c member
    rw [beq_eq_false_iff_ne]
    rintro rfl
    exact (List.mem_append.mp member).elim named single
  have unqualified : word.toList.map Char.toLower ∉ [['o', 'n', 'l', 'y'], ['n', 'o', 't']] := by
    rw [← lower_of_all_isTypeChar letters]
    intro member
    exact other (List.mem_map_of_mem (f := String.ofList) member)
  rw [parse?_eq_some_iff, whole, List.forall₂_cons_left_iff] at parsed
  rcases parsed with ⟨query, others, read, nothing, rfl⟩
  rw [List.forall₂_nil_left_iff] at nothing
  subst nothing
  exact ⟨query, rfl, type_eq_iff_of_readQuery? typed unqualified apart read⟩

/-- A word that ends in `and`, in front of an expression that nothing joins to it, is cut. -/
theorem type_ne_lowered_of_joiningWord :
    isTypeWord "sand".toList = true ∧ lowered "sand" ∉ ["only", "not"] ∧
      ',' ∉ " (width: 1px)".toList ∧ " (width: 1px)".toList.head?.any isTypeChar = false ∧
      parse? ("sand" ++ " (width: 1px)") = some [⟨false, "s", [⟨none, "width", some "1px"⟩]⟩] ∧
      "s" ≠ lowered "sand" := by
  decide +kernel

/-- A word with `and` at its end and in its midst, in front of an expression that is joined to it. -/
theorem type_eq_lowered_iff_of_joinedWord :
    let query : MediaQuery := ⟨false, "brand-sand", [⟨none, "color", none⟩]⟩
    isTypeWord "Brand-SAND".toList = true ∧ EndsInAnd "Brand-SAND".toList ∧
      parse? ("Brand-SAND" ++ "\tAND (color)") = some [query] ∧
      query.type = lowered "Brand-SAND" := by
  intro query
  have parsed : parse? ("Brand-SAND" ++ "\tAND (color)") = some [query] := by decide +kernel
  have typed : isTypeWord "Brand-SAND".toList = true := by decide
  have ends : EndsInAnd "Brand-SAND".toList :=
    ⟨"Brand-S".toList, "AND".toList, by decide, by decide, by decide⟩
  rcases type_eq_lowered_iff typed (by decide +kernel) (by decide) (by decide) parsed with
    ⟨read, same, whole⟩
  cases same
  exact ⟨typed, ends, parsed, whole.mpr ⟨fun opens => absurd opens.2 (by decide), by decide⟩⟩

end MediaQuery

end StyleObjects
