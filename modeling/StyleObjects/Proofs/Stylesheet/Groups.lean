import StyleObjects.Proofs.Stylesheet.Declared

/-!
# Semicolons in parentheses

A value is taken up to the first semicolon outside of a group.  A group may have groups in it, but
these have none, so parentheses that stand three deep are no group, and neither is what they stand
in.  A semicolon is sheltered from ending the value if it stands in a group of at most two levels,
and only then.
-/

namespace StyleObjects

/-! ## Balanced parentheses -/

/-- The parentheses of a text are balanced, and no more than so many are open at once. -/
inductive IsNested : Nat → List Char → Prop where
  | nil (depth : Nat) : IsNested depth []
  | char {depth : Nat} {c : Char} {cs : List Char} (opens : c ≠ '(') (closes : c ≠ ')')
      (others : IsNested depth cs) : IsNested depth (c :: cs)
  | group {depth : Nat} {inner cs : List Char} (inside : IsNested depth inner)
      (others : IsNested (depth + 1) cs) : IsNested (depth + 1) ('(' :: (inner ++ ')' :: cs))

namespace IsNested

variable {depth : Nat} {cs inner : List Char}

theorem count_eq (nested : IsNested depth cs) : cs.count '(' = cs.count ')' := by
  induction nested with
  | nil => rfl
  | char opens closes others ih => rw [List.count_cons_of_ne opens, List.count_cons_of_ne closes, ih]
  | group inside others inner rest =>
      simp only [List.count_cons, List.count_append, inner, rest]
      simp
      omega

/-- Nowhere in a balanced text have more parentheses been closed than opened. -/
theorem count_le {before after : List Char} (nested : IsNested depth (before ++ after)) :
    before.count ')' ≤ before.count '(' := by
  generalize whole : before ++ after = cs at nested
  induction nested generalizing before after with
  | nil =>
      rw [(List.append_eq_nil_iff.mp whole).1]
      rfl
  | char opens closes others ih =>
      rcases List.append_eq_cons_iff.mp whole with ⟨rfl, -⟩ | ⟨front, rfl, rest⟩
      · exact Nat.le_refl _
      · rw [List.count_cons_of_ne opens, List.count_cons_of_ne closes]
        exact ih rest.symm
  | @group depth inner cs inside others first second =>
      rcases List.append_eq_cons_iff.mp whole with ⟨rfl, -⟩ | ⟨front, rfl, rest⟩
      · exact Nat.le_refl _
      · have balanced := inside.count_eq
        rcases List.append_eq_append_iff.mp rest with ⟨more, same, tail⟩ | ⟨more, same, tail⟩
        · -- The part goes beyond the group, or ends right before its parenthesis.
          rcases List.cons_eq_append_iff.mp tail with ⟨rfl, -⟩ | ⟨behind, rfl, others⟩
          · simp [same, balanced]
          · have := second others.symm
            simp [same, balanced]
            omega
        · have := first same.symm
          simp
          omega

/-- A group closes what is opened in it, so what is opened in it is not closed behind it. -/
theorem not_overlaps {outer part more : List Char} {level : Nat} (nested : IsNested depth inner)
    (split : '(' :: (inner ++ [')']) = outer ++ '(' :: part) : ¬IsNested level (part ++ more) := by
  intro other
  have whole : IsNested (depth + 1) (outer ++ '(' :: part) := split ▸ .group nested (.nil _)
  have balanced := whole.count_eq
  have before := whole.count_le
  have within := other.count_le
  simp at balanced
  omega

end IsNested

/-! ## What is taken as a group -/

namespace Token

theorem isBracket_eq_false_iff {c : Char} (unbraced : isBrace c = false) :
    isBracket c = false ↔ c ≠ '(' ∧ c ≠ ')' := by
  simp only [isBrace, Bool.or_eq_false_iff, beq_eq_false_iff_ne] at unbraced
  simp [isBracket, unbraced]

/-- A text without braces is balanced at depth zero if it has no brackets. -/
theorem all_not_isBracket_iff {cs : List Char} (unbraced : cs.all (!isBrace ·) = true) :
    cs.all (!isBracket ·) = true ↔ IsNested 0 cs := by
  induction cs with
  | nil => simpa using IsNested.nil 0
  | cons c cs ih =>
      simp only [List.all_cons, Bool.and_eq_true, Bool.not_eq_true'] at unbraced ⊢
      rw [isBracket_eq_false_iff unbraced.1, ih unbraced.2]
      constructor
      · rintro ⟨⟨opens, closes⟩, others⟩
        exact .char opens closes others
      · intro nested
        cases nested with
        | char opens closes others => exact ⟨⟨opens, closes⟩, others⟩

/-- What is taken as an inner group ends with the first parenthesis that closes one. -/
theorem takeInnerGroup?_eq_some_iff {cs text rest : List Char}
    (unbraced : cs.all (!isBrace ·) = true) :
    takeInnerGroup? cs = some (text, rest) ↔
      ∃ inner, text = inner ++ [')'] ∧ cs = inner ++ ')' :: rest ∧ IsNested 0 inner := by
  constructor
  · intro taken
    have whole := List.takeWhile_append_dropWhile (p := (!isBracket ·)) (l := cs)
    unfold takeInnerGroup? at taken
    split at taken
    · rename_i found
      cases taken
      rw [found] at whole
      rw [← whole, List.all_append, Bool.and_eq_true] at unbraced
      exact ⟨_, rfl, whole.symm, (all_not_isBracket_iff unbraced.1).mp List.all_takeWhile⟩
    · cases taken
  · rintro ⟨inner, rfl, rfl, nested⟩
    rw [List.all_append, Bool.and_eq_true] at unbraced
    have inside := (all_not_isBracket_iff unbraced.1).mpr nested
    have stop : (')' :: rest).head?.any (!isBracket ·) = false := rfl
    simp only [takeInnerGroup?, Lists.takeWhile_append_of_stop inside stop,
      Lists.dropWhile_append_of_stop inside stop]

/-- What is taken as a group is balanced, and no more than one level is open in it at once. -/
theorem exists_of_takeGroup? {cs text rest : List Char} (unquoted : cs.all isUnquoted = true)
    (unbraced : cs.all (!isBrace ·) = true) (taken : takeGroup? cs = some (text, rest)) :
    ∃ inner, text = inner ++ [')'] ∧ cs = inner ++ ')' :: rest ∧ IsNested 1 inner := by
  fun_induction takeGroup? cs generalizing text with
  | case1 => cases taken
  | case2 cs =>
      cases taken
      exact ⟨[], rfl, rfl, .nil 1⟩
  | case3 => cases taken
  | case4 cs inner after found unclosed stops ih =>
      simp only [List.all_cons, Bool.and_eq_true] at unquoted unbraced
      rcases (takeInnerGroup?_eq_some_iff unbraced.2).mp found with ⟨body, rfl, rfl, inside⟩
      simp only [List.all_append, List.all_cons, Bool.and_eq_true] at unquoted unbraced
      rcases Option.map_eq_some_iff.mp taken with ⟨⟨more, left⟩, later, same⟩
      cases same
      rcases ih unquoted.2.2.2 unbraced.2.2.2 later with ⟨others, rfl, rfl, nested⟩
      exact ⟨'(' :: (body ++ ')' :: others), by simp, by simp, .group inside nested⟩
  | case5 => cases taken
  | case6 c cs _ _ _ quote | case7 c cs _ _ _ quote =>
      simp [isUnquoted] at unquoted
      simp [unquoted] at quote
  | case8 c cs unclosed _ ungrouped _ ih =>
      simp only [List.all_cons, Bool.and_eq_true] at unquoted unbraced
      rcases Option.map_eq_some_iff.mp taken with ⟨⟨more, left⟩, later, same⟩
      cases same
      rcases ih unquoted.2 unbraced.2 later with ⟨others, rfl, rfl, nested⟩
      exact ⟨c :: others, rfl, rfl, .char ungrouped unclosed nested⟩

/-- A balanced text with no more than one level is taken as a group, up to the parenthesis that closes
it. -/
theorem takeGroup?_append {inner rest : List Char} (nested : IsNested 1 inner)
    (unquoted : (inner ++ ')' :: rest).all isUnquoted = true)
    (unbraced : (inner ++ ')' :: rest).all (!isBrace ·) = true) :
    takeGroup? (inner ++ ')' :: rest) = some (inner ++ [')'], rest) := by
  generalize level : 1 = depth at nested
  induction nested with
  | nil => simp [takeGroup?]
  | char opens closes others ih =>
      simp only [List.cons_append, List.all_cons, Bool.and_eq_true, Bool.not_eq_true']
        at unquoted unbraced
      rw [List.cons_append, takeGroup?_cons unquoted.1 unbraced.1 opens closes,
        ih unquoted.2 unbraced.2 level]
      rfl
  | @group depth body cs inside others _ ih =>
      cases level
      have whole : '(' :: (body ++ ')' :: cs) ++ ')' :: rest =
          '(' :: (body ++ ')' :: (cs ++ ')' :: rest)) := by simp
      rw [whole] at unquoted unbraced ⊢
      simp only [List.all_cons, Bool.and_eq_true] at unquoted unbraced
      have found := (takeInnerGroup?_eq_some_iff unbraced.2).mpr ⟨body, rfl, rfl, inside⟩
      simp only [List.all_append, List.all_cons, Bool.and_eq_true] at unquoted unbraced
      rw [takeGroup?_parenthesis, found, Option.bind_some]
      dsimp only
      rw [ih (by simpa using unquoted.2.2.2) (by simpa using unbraced.2.2.2) rfl]
      simp

/-- What is taken as a group has groups in it, but none in these. -/
theorem takeGroup?_eq_some_iff {cs text rest : List Char} (unquoted : cs.all isUnquoted = true)
    (unbraced : cs.all (!isBrace ·) = true) :
    takeGroup? cs = some (text, rest) ↔
      ∃ inner, text = inner ++ [')'] ∧ cs = inner ++ ')' :: rest ∧ IsNested 1 inner := by
  refine ⟨exists_of_takeGroup? unquoted unbraced, ?_⟩
  rintro ⟨inner, rfl, rfl, nested⟩
  exact takeGroup?_append nested unquoted unbraced

end Token

/-! ## Sheltered semicolons -/

/-- Every semicolon of a text stands in parentheses that are balanced in it, and in which no more
than so many others are open at once. -/
def IsSheltered (depth : Nat) (text : List Char) : Prop :=
  ∀ before after, text = before ++ ';' :: after →
    ∃ outer inner follow rest, before = outer ++ '(' :: inner ∧ after = follow ++ ')' :: rest ∧
      IsNested depth (inner ++ ';' :: follow)

namespace IsSheltered

variable {depth : Nat} {cs : List Char}

theorem nil (depth : Nat) : IsSheltered depth [] := by
  intro before after split
  simp at split

/-- Text without semicolons may stand in front of a sheltered one. -/
theorem append {front : List Char} (absent : ';' ∉ front) (sheltered : IsSheltered depth cs) :
    IsSheltered depth (front ++ cs) := by
  intro before after split
  rcases List.append_eq_append_iff.mp split with ⟨between, rfl, rest⟩ | ⟨between, rfl, rest⟩
  · rcases sheltered between after rest with ⟨outer, inner, follow, last, rfl, rfl, nested⟩
    exact ⟨front ++ outer, inner, follow, last, (List.append_assoc ..).symm, rfl, nested⟩
  · rcases List.cons_eq_append_iff.mp rest with ⟨rfl, whole⟩ | ⟨others, rfl, -⟩
    · rcases sheltered [] after whole with ⟨outer, inner, follow, last, same, -⟩
      simp at same
    · simp at absent

/-- A group shelters its own semicolons. -/
theorem group {inner : List Char} (nested : IsNested depth inner)
    (sheltered : IsSheltered depth cs) : IsSheltered depth ('(' :: (inner ++ ')' :: cs)) := by
  intro before after split
  rcases List.cons_eq_append_iff.mp split with ⟨-, other⟩ | ⟨front, rfl, body⟩
  · simp at other
  · rcases List.append_eq_append_iff.mp body with ⟨between, rfl, rest⟩ | ⟨between, rfl, rest⟩
    · rcases List.cons_eq_append_iff.mp rest with ⟨-, other⟩ | ⟨behind, rfl, others⟩
      · simp at other
      · rcases sheltered behind after others with ⟨outer, within, follow, last, rfl, rfl, balanced⟩
        exact ⟨'(' :: (inner ++ ')' :: outer), within, follow, last, by simp, rfl, balanced⟩
    · rcases List.cons_eq_append_iff.mp rest with ⟨-, other⟩ | ⟨follow, rfl, others⟩
      · simp at other
      · exact ⟨[], front, follow, cs, rfl, others, nested⟩

/-- Behind a group every semicolon is sheltered by parentheses that stand there too. -/
theorem of_group {inner : List Char} {level : Nat} (nested : IsNested level inner)
    (sheltered : IsSheltered depth ('(' :: (inner ++ ')' :: cs))) : IsSheltered depth cs := by
  intro before after split
  have whole : '(' :: (inner ++ ')' :: cs) = '(' :: (inner ++ [')']) ++ before ++ ';' :: after := by
    simp [split]
  rcases sheltered _ after whole with ⟨outer, within, follow, last, same, rfl, balanced⟩
  rcases List.append_eq_append_iff.mp same with ⟨between, rfl, rest⟩ | ⟨between, front, rest⟩
  · exact ⟨between, within, follow, last, rest, rfl, balanced⟩
  · rcases List.cons_eq_append_iff.mp rest with ⟨rfl, opens⟩ | ⟨part, rfl, others⟩
    · exact ⟨[], within, follow, last, by simpa using opens, rfl, balanced⟩
    · -- The parenthesis stands in the group, which closes it before the semicolon.
      rw [others, List.append_assoc] at balanced
      exact absurd balanced (nested.not_overlaps front)

/-- Where no group starts, every semicolon behind the first character is sheltered there. -/
theorem tail {c : Char} (groupless : c = '(' → ∀ inner rest, cs = inner ++ ')' :: rest →
    ¬IsNested depth inner) (sheltered : IsSheltered depth (c :: cs)) : IsSheltered depth cs := by
  intro before after split
  rcases sheltered (c :: before) after (by rw [split]; rfl) with
    ⟨outer, inner, follow, last, same, rfl, nested⟩
  rcases List.cons_eq_append_iff.mp same with ⟨rfl, opens⟩ | ⟨front, rfl, others⟩
  · cases opens
    refine absurd nested (groupless rfl _ last ?_)
    rw [split]
    simp
  · exact ⟨front, inner, follow, last, others, rfl, nested⟩

/-- A character that closes nothing may stand behind a sheltered text. -/
theorem append_singleton_iff {c : Char} (closes : ')' ≠ c) (separates : ';' ≠ c) :
    IsSheltered depth (cs ++ [c]) ↔ IsSheltered depth cs := by
  constructor
  · intro sheltered before after split
    rcases sheltered before (after ++ [c]) (by simp [split]) with
      ⟨outer, inner, follow, rest, front, same, nested⟩
    rcases Lists.exists_of_append_singleton closes same with ⟨others, -, rfl⟩
    exact ⟨outer, inner, follow, others, front, rfl, nested⟩
  · intro sheltered before after split
    rcases Lists.exists_of_append_singleton separates split with ⟨others, rfl, whole⟩
    rcases sheltered before others whole with ⟨outer, inner, follow, rest, front, rfl, nested⟩
    exact ⟨outer, inner, follow, rest ++ [c], front, by simp, nested⟩

end IsSheltered

namespace Token

theorem eq_semicolon_of_isMark {c : Char} (mark : isMark c = true) (unbraced : isBrace c = false) :
    c = ';' := by
  simp only [isBrace, Bool.or_eq_false_iff, beq_eq_false_iff_ne] at unbraced
  simpa [isMark, unbraced] using mark

variable {text : List Char} (unquoted : text.all isUnquoted = true)
  (unbraced : text.all (!isBrace ·) = true)

include unquoted unbraced

/-- A value takes all of a text if and only if the semicolons of the text are sheltered by groups. -/
theorem takeValue_snd_eq_nil_iff : (takeValue text).2 = [] ↔ IsSheltered 1 text := by
  fun_induction takeValue text with
  | case1 => simpa using IsSheltered.nil 1
  | case2 c cs mark =>
      simp only [List.all_cons, Bool.and_eq_true, Bool.not_eq_true'] at unbraced
      obtain rfl := eq_semicolon_of_isMark mark unbraced.1
      refine ⟨fun empty => by simp at empty, fun sheltered => ?_⟩
      rcases sheltered [] cs rfl with ⟨outer, inner, follow, last, same, -⟩
      simp at same
  | case3 c cs _ quote | case4 c cs _ quote =>
      simp [isUnquoted] at unquoted
      simp [unquoted] at quote
  | case5 c cs _ _ group after taken text left value ih =>
      simp only [List.all_cons, Bool.and_eq_true] at unquoted unbraced
      by_cases opens : c = '('
      · subst opens
        rw [dif_pos rfl] at taken
        rcases (takeGroup?_eq_some_iff unquoted.2 unbraced.2).mp taken with ⟨inner, rfl, rfl, nested⟩
        simp only [List.all_append, List.all_cons, Bool.and_eq_true] at unquoted unbraced
        rw [value] at ih
        rw [ih unquoted.2.2.2 unbraced.2.2.2]
        exact ⟨.group nested, .of_group nested⟩
      · rw [dif_neg opens] at taken
        cases taken
  | case6 c cs unmarked _ ungrouped text left value ih =>
      simp only [List.all_cons, Bool.and_eq_true] at unquoted unbraced
      rw [value] at ih
      rw [ih unquoted.2 unbraced.2]
      have plain : ';' ∉ [c] := by
        intro member
        rw [← List.mem_singleton.mp member] at unmarked
        exact unmarked rfl
      refine ⟨.append plain, .tail ?_⟩
      rintro rfl inner rest same nested
      have found := (takeGroup?_eq_some_iff unquoted.2 unbraced.2).mpr ⟨inner, rfl, same, nested⟩
      rw [dif_pos rfl, found] at ungrouped
      cases ungrouped

/-- What a value leaves of a text starts with a semicolon. -/
theorem takeValue_snd_cases :
    (takeValue text).2 = [] ∨ ∃ rest, (takeValue text).2 = ';' :: rest := by
  fun_induction takeValue text with
  | case1 => exact .inl rfl
  | case2 c cs mark =>
      simp only [List.all_cons, Bool.and_eq_true, Bool.not_eq_true'] at unbraced
      exact .inr ⟨cs, congrArg (· :: cs) (eq_semicolon_of_isMark mark unbraced.1)⟩
  | case3 c cs _ quote | case4 c cs _ quote =>
      simp [isUnquoted] at unquoted
      simp [unquoted] at quote
  | case5 c cs _ _ group after taken text left value ih =>
      simp only [List.all_cons, Bool.and_eq_true] at unquoted unbraced
      by_cases opens : c = '('
      · rw [dif_pos opens] at taken
        rw [value] at ih
        rw [← (append_of_takeGroup? taken).1] at unquoted unbraced
        simp only [List.all_append, Bool.and_eq_true] at unquoted unbraced
        exact ih unquoted.2.2 unbraced.2.2
      · rw [dif_neg opens] at taken
        cases taken
  | case6 c cs _ _ _ text left value ih =>
      simp only [List.all_cons, Bool.and_eq_true] at unquoted unbraced
      rw [value] at ih
      exact ih unquoted.2 unbraced.2

/-- A value with all semicolons of a text is all of the text. -/
theorem takeValue_snd_of_count (same : (takeValue text).1.count ';' = text.count ';') :
    (takeValue text).2 = [] := by
  rcases takeValue_snd_cases unquoted unbraced with all | ⟨rest, left⟩
  · exact all
  · have counted := congrArg (List.count ';') (append_takeValue text)
    rw [List.count_append, left, List.count_cons_self] at counted
    omega

/-- A value without strings and braces can end at the brace that closes its block. -/
theorem reachesEnd_append_closeBrace (rest : List Char) :
    reachesEnd (text ++ '\x7d' :: rest) = true := by
  induction text with
  | nil => exact reachesEnd_closeBrace rest
  | cons c text ih =>
      simp only [List.all_cons, Bool.and_eq_true, Bool.not_eq_true'] at unquoted unbraced
      have others := ih unquoted.2 unbraced.2
      rw [List.cons_append]
      by_cases opens : c = '('
      · rw [opens, reachesEnd_parenthesis, others, Bool.or_true]
      · cases mark : isMark c with
        | true => rw [eq_semicolon_of_isMark mark unbraced.1, reachesEnd_semicolon]
        | false => rw [reachesEnd_cons unquoted.1 mark opens, others]

end Token

/-! ## The declaration of a value -/

namespace Stylesheet

open Token (isUnquoted isBrace takeValue)

theorem isPropertyName_of_letters {name : List Char} (letters : name.all Char.isLower = true)
    (filled : name ≠ []) : isPropertyName name = true := by
  rcases List.exists_cons_of_ne_nil filled with ⟨c, word, rfl⟩
  rw [List.all_cons, Bool.and_eq_true] at letters
  have dash : c ≠ '-' := by
    rintro rfl
    exact absurd letters.1 (by decide)
  have inside : word.all isLowerNameChar = true :=
    List.all_eq_true.mpr fun d member => by
      simp [isLowerNameChar, List.all_eq_true.mp letters.2 d member]
  simp [isPropertyName, dash, isLowerName, letters.1, inside]

/-- What stands before the last brace is the value of the last declaration if and only if a value
takes all of it. -/
theorem accepts_declaration_iff {property : String} {text : List Char}
    (named : isPropertyName property.toList = true) (unquoted : text.all isUnquoted = true)
    (unbraced : text.all (!isBrace ·) = true) (filled : text ≠ []) :
    (⟨.colon property.toList, [.style [".a"] []], []⟩ : Progress).Accepts (text ++ ['\x7d'])
        [.style [".a"] [⟨property, String.ofList (Text.trim text)⟩]] ↔
      (takeValue text).2 = [] := by
  have declared (value : List Char) : declarationOf property.toList value =
      ⟨property, String.ofList (Text.trim value)⟩ := by
    rw [Progress.declarationOf_of_isPropertyName named, String.ofList_toList]
  have taken := Token.takeValue_append_brace unquoted (by decide : isBrace '\x7d' = true) []
  constructor
  · intro accepted
    rcases accepted.exists_value with ⟨own, following, same⟩
    rw [declared, taken] at same
    simp only [List.reverse_nil, List.nil_append, List.cons.injEq, Rule.style.injEq, true_and,
      Declaration.mk.injEq, String.ofList_inj, Token.followedBy] at same
    -- Trimming leaves the semicolons, so the value has all of those of the text.
    apply Token.takeValue_snd_of_count unquoted unbraced
    have visible : Text.isBlank ';' = false := by decide
    rw [← Text.count_trim visible, ← same.1.1, Text.count_trim visible]
  · intro all
    have parts := Token.append_takeValue text
    rw [all, List.append_nil] at parts
    rw [← declared]
    exact Progress.accepts_of_takeValue (by rw [taken, Token.followedBy, all, parts]; rfl) filled

/-- A rule with one declaration, whose value has no strings, braces or comments, is read as what it
is the text of if and only if groups shelter the semicolons of the value. -/
theorem parse_ruleText_iff_isSheltered {property value : String}
    (letters : property.toList.all Char.isLower = true) (filled : property ≠ "")
    (unquoted : value.toList.all isUnquoted = true)
    (unbraced : value.toList.all (!isBrace ·) = true) (bare : ¬['/', '*'] <:+: value.toList) :
    parse ((⟨property, value⟩ : Declaration).ruleText ".a") =
        .ok [.style [".a"] [⟨property, Text.stripped value⟩]] ↔
      IsSheltered 1 value.toList := by
  have named : isPropertyName property.toList = true :=
    isPropertyName_of_letters letters (by simpa using filled)
  -- The value is read with the space on either side of it.
  generalize spaced : [' '] ++ value.toList ++ [' '] = text
  have spaces : isUnquoted ' ' = true ∧ isBrace ' ' = false := by decide
  have textUnquoted : text.all isUnquoted = true := by simp [← spaced, unquoted, spaces.1]
  have textUnbraced : text.all (!isBrace ·) = true := by
    rw [← spaced, List.all_append, List.all_append, unbraced, List.all_cons, spaces.2]
    rfl
  have trimmed : Text.trim text = Text.trim value.toList :=
    spaced ▸ Text.trim_blanks_append (by decide) (by decide)
  have sheltered : (takeValue text).2 = [] ↔ IsSheltered 1 value.toList := by
    rw [Token.takeValue_snd_eq_nil_iff textUnquoted textUnbraced, ← spaced,
      IsSheltered.append_singleton_iff (by decide) (by decide)]
    exact ⟨.tail (by simp), .append (by decide)⟩
  have whole : ' ' :: (value.toList ++ [' ', '\x7d']) = text ++ ['\x7d'] := by simp [← spaced]
  have reaches := Token.reachesEnd_append_closeBrace textUnquoted textUnbraced []
  rw [← whole] at reaches
  have ruled : isSelector ".a".toList = true := by decide
  have kept := strip_of_not_infix bare
  rw [parse_ruleText_iff ruled named kept reaches, whole, Text.stripped, ← trimmed,
    accepts_declaration_iff named textUnquoted textUnbraced (by simp [← spaced]), sheltered]

/-- A balanced value whose only semicolon stands in parentheses, which are three deep. -/
theorem not_parse_of_deepGroup :
    let value := "f(a;g(h(i)))"
    (value.toList.all isUnquoted = true ∧ value.toList.all (!isBrace ·) = true ∧
      ¬['/', '*'] <:+: value.toList) ∧
      IsNested 3 value.toList ∧ IsSheltered 2 value.toList ∧
        parse ((⟨"p", value⟩ : Declaration).ruleText ".a") = .error ⟨1, 13⟩ := by
  have deepest : IsNested 1 ['h', '(', 'i', ')'] :=
    .char (by decide) (by decide) (.group (.char (by decide) (by decide) (.nil 0)) (.nil 1))
  have group : IsNested 2 ['a', ';', 'g', '(', 'h', '(', 'i', ')', ')'] :=
    .char (by decide) (by decide) (.char (by decide) (by decide) (.char (by decide) (by decide)
      (.group deepest (.nil 2))))
  have absent : ';' ∉ ['f'] := by decide
  exact ⟨by decide +kernel, .char (by decide) (by decide) (.group group (.nil 3)),
    .append absent (.group group (.nil 2)), by decide +kernel⟩

/-- A balanced value, whose parentheses are four deep and whose semicolons stand in groups. -/
theorem parse_ruleText_iff_isSheltered_of_groups :
    let value := "k(f(a;b)) l(g(h(i(j;))))"
    "p".toList.all Char.isLower = true ∧ "p" ≠ "" ∧ value.toList.all isUnquoted = true ∧
      value.toList.all (!isBrace ·) = true ∧ ¬['/', '*'] <:+: value.toList ∧
        parse ((⟨"p", value⟩ : Declaration).ruleText ".a") =
          .ok [.style [".a"] [⟨"p", Text.stripped value⟩]] := by
  intro value
  have unquoted : value.toList.all isUnquoted = true := by decide +kernel
  have unbraced : value.toList.all (!isBrace ·) = true := by decide +kernel
  have bare : ¬['/', '*'] <:+: value.toList := by decide +kernel
  have sheltered : IsSheltered 1 value.toList :=
    (Token.takeValue_snd_eq_nil_iff unquoted unbraced).mp (by decide +kernel)
  exact ⟨by decide, by decide, unquoted, unbraced, bare,
    (parse_ruleText_iff_isSheltered (by decide) (by decide) unquoted unbraced bare).mpr sheltered⟩

end Stylesheet

end StyleObjects
