import StyleObjects.Media.Parser
import StyleObjects.Proofs.Media.Written
import StyleObjects.Proofs.Stylesheet.Canonical

/-!
# The joints between expressions

The expressions of a query come apart where `and` stands as a word, or between two parentheses.  So
a text that has no such word, and that ends at a closing parenthesis, is not cut inside.
-/

namespace StyleObjects

open Text

/-! ## Words -/

theorem Text.foldChar_cases (c : Char) :
    foldChar c = c.toLower ∨ foldChar c ∈ ['i', 's', 'k'] := by
  unfold foldChar
  grind

theorem Text.isAlpha_of_isAnd {word : List Char} (joins : isAnd word = true) {c : Char}
    (member : c ∈ word) : c.isAlpha = true := by
  have letter : c.toLower ∈ ['a', 'n', 'd'] := beq_iff_eq.mp joins ▸ List.mem_map_of_mem member
  apply Stylesheet.isAlpha_of_toLower
  simp only [List.mem_cons, List.not_mem_nil, or_false] at letter
  rcases letter with same | same | same <;> rw [same] <;> decide

/-- A keyword that is dropped stood at the start of the text. -/
theorem Text.exists_append_of_dropKeyword? {word cs rest : List Char}
    (dropped : dropKeyword? word cs = some rest) :
    ∃ spelled, cs = spelled ++ rest ∧ spelled.map foldChar = word := by
  fun_induction dropKeyword? word cs with
  | case1 cs => exact ⟨[], by simp_all⟩
  | case2 => cases dropped
  | case3 word c cs ih =>
      rcases ih dropped with ⟨spelled, rfl, rfl⟩
      exact ⟨c :: spelled, rfl, rfl⟩
  | case4 => cases dropped

theorem Text.exists_isAnd_of_dropKeyword? {cs rest : List Char}
    (dropped : dropKeyword? ['a', 'n', 'd'] cs = some rest) :
    ∃ word, cs = word ++ rest ∧ isAnd word = true := by
  rcases exists_append_of_dropKeyword? dropped with ⟨word, rfl, folded⟩
  refine ⟨word, rfl, ?_⟩
  have letter : ∀ c ∈ word, foldChar c = c.toLower := by
    intro c member
    have inside : foldChar c ∈ ['a', 'n', 'd'] := folded ▸ List.mem_map_of_mem member
    refine (foldChar_cases c).resolve_right fun other => ?_
    simp only [List.mem_cons, List.not_mem_nil, or_false] at inside other
    rcases inside with same | same | same <;> simp [same] at other
  rw [isAnd, ← List.map_congr_left letter, folded]
  rfl

theorem Text.hasAnd_append_cons (before after : List Char) {c : Char} (blank : isBlank c = true) :
    hasAnd (before ++ c :: after) = (hasAnd before || hasAnd after) := by
  rw [hasAnd, List.splitOnP_append_cons _ _ blank, List.any_append]
  rfl

theorem Text.hasAnd_of_visible {word : List Char} (visible : ∀ c ∈ word, isBlank c = false) :
    hasAnd word = isAnd word := by
  simp [hasAnd, List.splitOnP_eq_singleton visible]

/-- An `and` between blanks is a word. -/
theorem Text.hasAnd_of_between {before gap word after : List Char} {right : Char}
    (apart : gap ≠ []) (opens : gap.all isBlank = true) (joins : isAnd word = true)
    (closes : isBlank right = true) :
    hasAnd (before ++ (gap ++ word ++ right :: after)) = true := by
  rcases List.eq_nil_or_concat gap with rfl | ⟨blanks, left, rfl⟩
  · exact absurd rfl apart
  · have blank : isBlank left = true := List.all_eq_true.mp opens left (by simp)
    have lined : before ++ (blanks.concat left ++ word ++ right :: after) =
        (before ++ blanks) ++ left :: (word ++ right :: after) := by simp
    have alone := hasAnd_of_visible fun c member =>
      Stylesheet.isBlank_of_isAlpha (isAlpha_of_isAnd joins member)
    rw [lined, hasAnd_append_cons _ _ blank, hasAnd_append_cons _ _ closes, alone, joins]
    simp

namespace MediaQuery

/-! ## Texts without joints -/

/-- Where no parenthesis comes before, a joint is an `and` between blanks. -/
theorem exists_of_takeJoint? {cs rest : List Char} (joint : takeJoint? false cs = some rest) :
    ∃ gap word right after, cs = gap ++ word ++ right :: after ∧ gap ≠ [] ∧
      gap.all isBlank = true ∧ isAnd word = true ∧ isBlank right = true := by
  rcases Option.bind_eq_some_iff.mp joint with ⟨behind, dropped, taken⟩
  rcases exists_isAnd_of_dropKeyword? dropped with ⟨word, spelled, joins⟩
  simp only [Bool.false_and, Bool.false_eq_true, ↓reduceIte, Option.ite_none_right_eq_some,
    Bool.and_eq_true, Option.any_eq_true] at taken
  rcases taken with ⟨⟨⟨left, starts, opens⟩, right, follows, closes⟩, -⟩
  rcases List.head?_eq_some_iff.mp starts with ⟨others, rfl⟩
  rcases List.head?_eq_some_iff.mp follows with ⟨after, rfl⟩
  refine ⟨(left :: others).takeWhile isBlank, word, right, after, ?_, ?_, ?_, joins, closes⟩
  · rw [List.append_assoc, ← spelled, skipBlanks, List.takeWhile_append_dropWhile]
  · simp [opens]
  · exact List.all_takeWhile

/-- In a text without `and`, no joint stands before the next parenthesis. -/
theorem takeJoint?_eq_none {before after : List Char} (wordless : hasAnd (before ++ after) = false)
    (inside : ')' ∉ after) (more : List Char) : takeJoint? false (after ++ ')' :: more) = none := by
  rcases joint : takeJoint? false (after ++ ')' :: more) with _ | rest
  · rfl
  · rcases exists_of_takeJoint? joint with ⟨gap, word, right, follow, split, apart, opens, joins,
      closes⟩
    have unmarked : ')' ∉ gap ++ word ++ [right] := by
      simp only [List.mem_append, List.mem_singleton, not_or]
      refine ⟨⟨fun member => ?_, fun member => ?_⟩, fun same => ?_⟩
      · exact absurd (List.all_eq_true.mp opens _ member) (by decide)
      · exact absurd (isAlpha_of_isAnd joins member) (by decide)
      · exact absurd (same ▸ closes) (by decide)
    -- No character of the joint is a parenthesis, so all of it lies before the next one.
    have short : gap ++ word ++ [right] <+: after := by
      rw [List.append_cons (gap ++ word)] at split
      rcases List.append_eq_append_iff.mp split with ⟨tail, longer, close⟩ | ⟨tail, shorter, -⟩
      · cases tail with
        | nil => simp [longer]
        | cons c tail =>
            cases close
            exact absurd (by simp [longer]) unmarked
      · exact ⟨tail, shorter.symm⟩
    rcases short with ⟨rest, rfl⟩
    rw [List.append_assoc _ [right]] at wordless
    exact absurd (hasAnd_of_between apart opens joins closes) (Bool.eq_false_iff.mp wordless)

theorem splitTail_of_uncut {closed : Bool} {c : Char} {cs : List Char}
    (uncut : takeJoint? closed (c :: cs) = none) :
    splitTail closed (c :: cs) = extendFirst c (splitTail (c == ')') cs) := by
  rw [splitTail.eq_def]
  dsimp only
  split
  · rename_i found
    rw [uncut] at found
    cases found
  · rfl

theorem splitTail_of_joint {closed : Bool} {c : Char} {cs rest : List Char}
    (joint : takeJoint? closed (c :: cs) = some rest) :
    splitTail closed (c :: cs) = [] :: splitTail false rest := by
  rw [splitTail.eq_def]
  dsimp only
  split
  · rename_i found
    rw [joint, Option.some.injEq] at found
    rw [found]
  · rename_i found
    rw [joint] at found
    cases found

/-- The text up to a closing parenthesis stays in one piece if it has no `and`. -/
theorem splitTail_append {before cs : List Char} (wordless : hasAnd (before ++ cs) = false)
    (inside : ')' ∉ cs) (more : List Char) :
    splitTail false (cs ++ ')' :: more) =
      (cs ++ [')']).foldr extendFirst (splitTail true more) := by
  have uncut := takeJoint?_eq_none wordless inside more
  induction cs generalizing before with
  | nil => exact splitTail_of_uncut uncut
  | cons c cs ih =>
      rw [List.mem_cons, not_or] at inside
      rw [List.append_cons] at wordless
      have next := ih wordless inside.2 (takeJoint?_eq_none wordless inside.2 more)
      have unclosed : (c == ')') = false := by simpa using Ne.symm inside.1
      rw [List.cons_append] at uncut
      rw [List.cons_append, splitTail_of_uncut uncut, unclosed, next]
      rfl

theorem foldr_extendFirst (cs piece : List Char) (pieces : List (List Char)) :
    cs.foldr extendFirst (piece :: pieces) = (cs ++ piece) :: pieces := by
  induction cs with
  | nil => rfl
  | cons c cs ih =>
      rw [List.foldr_cons, ih]
      rfl

/-! ## Texts in parentheses -/

/-- A text from one parenthesis to the next, without an `and`. -/
def IsEnclosed (text : List Char) : Prop :=
  ∃ cs, text = '(' :: cs ++ [')'] ∧ ')' ∉ '(' :: cs ∧ hasAnd ('(' :: cs) = false

/-- What is written before an expression that follows another. -/
def joint : List Char := [' ', 'a', 'n', 'd', ' ']

theorem splitTail_joint (closed : Bool) (more : List Char) :
    splitTail closed (joint ++ '(' :: more) = [] :: splitTail false ('(' :: more) :=
  splitTail_of_joint rfl

/-- Enclosed texts come apart where `and` joins them. -/
theorem splitTail_enclosed {text : List Char} {texts : List (List Char)}
    (enclosed : ∀ piece ∈ text :: texts, IsEnclosed piece) :
    splitTail false (text ++ texts.flatMap (joint ++ ·)) = text :: texts := by
  induction texts generalizing text with
  | nil =>
      rcases enclosed text List.mem_cons_self with ⟨cs, rfl, inside, wordless⟩
      have whole := splitTail_append (List.nil_append ('(' :: cs) ▸ wordless) inside []
      have rest : splitTail true [] = [[]] := by rw [splitTail.eq_def]
      rw [rest, foldr_extendFirst, List.append_nil] at whole
      simpa using whole
  | cons next texts ih =>
      rw [List.forall_mem_cons] at enclosed
      rcases enclosed.1 with ⟨cs, rfl, inside, wordless⟩
      rcases enclosed.2 next List.mem_cons_self with ⟨first, rfl, -⟩
      have others := ih enclosed.2
      rw [List.flatMap_cons]
      generalize texts.flatMap (joint ++ ·) = more at others ⊢
      have whole := splitTail_append (List.nil_append ('(' :: cs) ▸ wordless) inside
        (joint ++ '(' :: (first ++ ')' :: more))
      simp only [List.cons_append, List.append_assoc, List.nil_append] at others
      rw [splitTail_joint, others, foldr_extendFirst, List.append_nil] at whole
      simpa using whole

end MediaQuery

end StyleObjects
