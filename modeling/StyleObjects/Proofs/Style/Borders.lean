import StyleObjects.Proofs.Style.Separators
import StyleObjects.Proofs.Style.Units

/-!
# Borders in any order

Whether the words of a border are accepted does not depend on their order, since each finds the
place of its kind or is left for the color.  Which of two lengths, or of two styles, is left for the
color does depend on it.  So words in another order make the same border if those of one kind keep
their order, as single words do.  A word in which a string or a parenthesis stays open has to be the
last one, or it takes in the words that are put behind it.
-/

namespace StyleObjects

open Text

/-! ## Marks -/

namespace Nesting

/-- The characters that a scan of a value does not pass over. -/
def marks : List Char := ['"', '\'', '(', ')']

/-- A mark stands in no number. -/
theorem meaning_of_mark {c : Char} (mark : c ∈ marks) :
    Numeral.isNumeralChar c = false ∧ c ≠ '\n' := by
  simp only [marks, List.mem_cons, List.not_mem_nil, or_false] at mark
  rcases mark with rfl | rfl | rfl | rfl <;> decide

/-- A text without marks. -/
def isUnmarked (text : String) : Bool :=
  text.toList.all (!marks.contains ·)

theorem not_mem_of_isUnmarked {text : String} {c : Char} (plain : isUnmarked text = true)
    (mark : c ∈ marks) : c ∉ text.toList := by
  intro member
  have absent := List.all_eq_true.mp plain c member
  rw [List.contains_iff_mem.mpr mark] at absent
  cases absent

theorem next_foldl_of_unmarked {c : Char} (plain : c ∉ marks) (cs : List Char) :
    (cs.foldl next (.plain 0)).next c = cs.foldl next (.plain 0) := by
  have outside (depth : Nat) : next (.plain depth) c = .plain depth := by
    simp only [marks, List.mem_cons, List.not_mem_nil, or_false, not_or] at plain
    simp [next, plain]
  -- A string is open only where one of the quotes has opened it.
  refine List.foldlRecOn (motive := fun nesting => nesting.next c = nesting) cs next (outside 0)
    fun nesting stays d _ => ?_
  cases nesting with
  | quoted quote depth =>
      rw [next]
      split
      · exact outside depth
      · exact stays
  | plain depth =>
      rw [next]
      split
      · rename_i quoted
        have apart : c ≠ d := by
          rintro rfl
          rcases quoted with rfl | rfl <;> exact plain (by decide)
        rw [next, if_neg apart]
      · split
        · exact outside _
        · split <;> exact outside _

/-- A text without marks leaves the scan of a value where it is. -/
theorem foldl_append_of_unmarked (cs : List Char) {others : List Char}
    (plain : ∀ c ∈ others, c ∉ marks) :
    (cs ++ others).foldl next (.plain 0) = cs.foldl next (.plain 0) := by
  induction others generalizing cs with
  | nil => rw [List.append_nil]
  | cons c others ih =>
      rw [List.forall_mem_cons] at plain
      rw [← List.singleton_append, ← List.append_assoc, ih (cs ++ [c]) plain.2, List.foldl_append,
        List.foldl_cons, List.foldl_nil, next_foldl_of_unmarked plain.1]

/-- A value that is not closed at its end has a mark. -/
theorem exists_mark_of_after {value : String} (opened : after value ≠ .plain 0) :
    ∃ c ∈ value.toList, c ∈ marks := by
  by_contra unmarked
  have plain : ∀ c ∈ value.toList, c ∉ marks := fun c member mark => unmarked ⟨c, member, mark⟩
  exact opened (foldl_append_of_unmarked [] plain)

/-- Inside of strings and parentheses a text without marks is not cut. -/
theorem isWhole_of_unmarked {separates : Char → Bool} {cs others : List Char}
    (opened : cs.foldl next (.plain 0) ≠ .plain 0) (plain : ∀ c ∈ others, c ∉ marks) :
    IsWhole next (cutsParts separates) (cs.foldl next (.plain 0)) others := by
  induction others generalizing cs with
  | nil => exact isWhole_nil _
  | cons c others ih =>
      rw [List.forall_mem_cons] at plain
      have stays := foldl_append_of_unmarked cs (List.forall_mem_singleton.mpr plain.1)
      rw [isWhole_cons_iff, next_foldl_of_unmarked plain.1]
      refine ⟨?_, stays ▸ ih (stays ▸ opened) plain.2⟩
      rw [cutsParts, isOutside, decide_eq_false opened, Bool.false_and]

end Nesting

/-! ## Words with a mark -/

section Marks

variable {word : String} {c : Char} (member : c ∈ word.toList) (mark : c ∈ Nesting.marks)

include member mark

/-- A mark stands in no number, so it would have to stand in the unit. -/
theorem Measure.hasUnit_of_mark {units : List String}
    (plain : ∀ unit ∈ units, Nesting.isUnmarked unit = true) : hasUnit units word = false := by
  obtain ⟨other, sameLine⟩ := Nesting.meaning_of_mark mark
  rw [Bool.eq_false_iff, Ne, hasUnit_iff]
  rintro ⟨measure, found, listed⟩
  apply Nesting.not_mem_of_isUnmarked (plain _ listed) mark
  rw [String.toList_ofList]
  exact mem_unit found (mem_withoutLineBreak member sameLine) other

theorem Measure.isViewportLength_of_mark : isViewportLength word = false := by
  have plain : ∀ unit ∈ viewportUnits, Nesting.isUnmarked unit = true := by decide
  obtain ⟨other, sameLine⟩ := Nesting.meaning_of_mark mark
  rw [Bool.eq_false_iff]
  intro length
  obtain ⟨unit, listed, spells⟩ := exists_of_isViewportLength length
  have behind := spells.mem_rest (mem_withoutLineBreak member sameLine) other
  exact Nesting.not_mem_of_isUnmarked (plain unit listed) mark behind

/-- Lengths and styles of lines have no marks. -/
theorem Border.isOther_of_mark : isOther word = true := by
  have length : Scalar.isLengthWord word = false := by
    rw [Scalar.isLengthWord, Measure.isPixels, Measure.isNumber, Measure.isPercentage,
      Measure.hasUnit_of_mark member mark (by decide),
      Measure.hasUnit_of_mark member mark (by decide),
      Measure.hasUnit_of_mark member mark (by decide),
      Measure.isViewportLength_of_mark member mark]
    rfl
  have plain : ∀ style ∈ lineStyles, Nesting.isUnmarked style = true := by decide
  have style : lineStyles.contains word = false := by
    rw [Bool.eq_false_iff, Ne, List.contains_iff_mem]
    exact fun listed => Nesting.not_mem_of_isUnmarked (plain word listed) mark member
  rw [isOther, length, style]
  rfl

end Marks

/-! ## Words in another order -/

namespace Border

/-- Words of one kind stand in the same order, where the kind may give a border more than one. -/
structure SameOrder (words others : List String) : Prop where
  lengths : others.filter Scalar.isLengthWord = words.filter Scalar.isLengthWord
  lineStyles : others.filter Border.lineStyles.contains = words.filter Border.lineStyles.contains

/-- The border that words make. -/
def ofWords? (words : List String) : Option Styles :=
  (words.foldlM Parts.place? {}).map Parts.styles

theorem border?_eq {value : String} (given : value ≠ "none" ∧ value ≠ "0") :
    border? value = ofWords? (words value) := by
  rw [border?, if_neg (by simpa using given)]
  rfl

theorem ofWords?_eq (words : List String) :
    ofWords? words =
      if (({} : Parts).surplus words).length ≤ 1 then some (({} : Parts).fill words).styles
      else none := by
  rw [ofWords?, foldlM_place?_eq]
  simp only [Option.isNone_none, Bool.toNat_true]
  split <;> rfl

theorem surplus_of_isSome {words : List String} (accepted : (ofWords? words).isSome = true) :
    (({} : Parts).surplus words).length ≤ 1 := by
  rw [ofWords?_eq] at accepted
  by_contra more
  simp [more] at accepted

theorem length_surplus_of_perm {words others : List String} (same : others.Perm words) :
    (({} : Parts).surplus others).length = (({} : Parts).surplus words).length := by
  have counted (p : String → Bool) : (others.filter p).length = (words.filter p).length :=
    (same.filter p).length_eq
  simp only [Parts.surplus, List.length_append, List.length_drop, counted]

/-- Words are accepted in any order. -/
theorem isSome_ofWords?_of_perm {words others : List String} (same : others.Perm words) :
    (ofWords? others).isSome = (ofWords? words).isSome := by
  rw [ofWords?_eq, ofWords?_eq, length_surplus_of_perm same]
  split <;> rfl

theorem Parts.get?_styles (parts : Parts) :
    parts.styles.get? "borderColor" = some (.text (parts.color.getD "black")) := rfl

/-- Words that are left for the color of a border are told by the border, if there are as many. -/
theorem surplus_of_styles {words others : List String}
    (accepted : (({} : Parts).surplus words).length ≤ 1)
    (length : (({} : Parts).surplus others).length = (({} : Parts).surplus words).length)
    (same : (({} : Parts).fill others).styles = (({} : Parts).fill words).styles) :
    ({} : Parts).surplus others = ({} : Parts).surplus words := by
  have color := congrArg (Table.get? · "borderColor") same
  simp only [Parts.get?_styles, Parts.fill, Option.none_or] at color
  generalize ({} : Parts).surplus words = left at *
  generalize ({} : Parts).surplus others = right at *
  cases left with
  | nil => exact List.length_eq_zero_iff.mp length
  | cons word left =>
      obtain rfl : left = [] := by simpa using accepted
      obtain ⟨other, rfl⟩ := List.length_eq_one_iff.mp length
      simpa [Value.text] using color

/-- Words in another order make the same border if and only if those of one kind keep theirs. -/
theorem ofWords?_eq_iff {words others : List String} (same : others.Perm words)
    (accepted : (ofWords? words).isSome = true) :
    ofWords? others = ofWords? words ↔ SameOrder words others := by
  have single := surplus_of_isSome accepted
  have length := length_surplus_of_perm same
  rw [ofWords?_eq, ofWords?_eq, length, if_pos single, if_pos single, Option.some.injEq]
  constructor
  · intro border
    have left := surplus_of_styles single length border
    have lengths := same.filter Scalar.isLengthWord
    have styles := same.filter lineStyles.contains
    -- The words that are left are those of each kind but the first, one kind after the other.
    simp only [Parts.surplus, List.append_assoc] at left
    obtain ⟨first, rest⟩ := List.append_inj left (by simp [lengths.length_eq])
    obtain ⟨second, -⟩ := List.append_inj rest (by simp [styles.length_eq])
    exact ⟨Lists.eq_of_perm_of_drop lengths first, Lists.eq_of_perm_of_drop styles second⟩
  · intro order
    have others_eq : others.filter isOther = words.filter isOther := by
      have few : (words.filter isOther).length ≤ 1 := by
        simp only [Parts.surplus, List.length_append] at single
        omega
      have same := same.filter isOther
      generalize words.filter isOther = left at few same
      cases left with
      | nil => exact same.eq_nil
      | cons word left =>
          obtain rfl : left = [] := by simpa using few
          exact List.perm_singleton.mp same
    simp only [Parts.fill, Parts.surplus, order.lengths, order.lineStyles, others_eq]

/-- A word that is neither a length nor a style gives a border its color. -/
theorem color_of_isOther {words : List String} {word : String} (member : word ∈ words)
    (other : isOther word = true) {styles : Styles} (found : ofWords? words = some styles) :
    styles.get? "borderColor" = some (.text word) := by
  have single := surplus_of_isSome (Option.isSome_of_eq_some found)
  rw [ofWords?_eq, if_pos single, Option.some.injEq] at found
  have left : word ∈ ({} : Parts).surplus words :=
    List.mem_append_right _ (List.mem_filter.mpr ⟨member, other⟩)
  rw [← found, Parts.get?_styles, Parts.fill]
  generalize ({} : Parts).surplus words = surplus at single left ⊢
  obtain ⟨own, rfl⟩ : ∃ own, surplus = [own] := List.length_eq_one_iff.mp
    (Nat.le_antisymm single (List.length_pos_of_mem left))
  rw [List.mem_singleton.mp left]
  rfl

/-! ## Words that are joined -/

/-- The last of the words may take in what follows it, and no other one. -/
def IsClosedBefore (words : List String) : Prop :=
  ∀ word ∈ words.dropLast, Nesting.after word = .plain 0

theorem exists_of_not_isClosedBefore {words : List String} (opened : ¬IsClosedBefore words) :
    ∃ before opening next after, words = before ++ opening :: next :: after ∧
      (∀ word ∈ before, Nesting.after word = .plain 0) ∧ Nesting.after opening ≠ .plain 0 := by
  induction words with
  | nil => exact absurd (List.forall_mem_nil _) opened
  | cons word words ih =>
      cases words with
      | nil => exact absurd (List.forall_mem_nil _) opened
      | cons next words =>
          rw [IsClosedBefore, List.dropLast_cons_cons, List.forall_mem_cons, not_and] at opened
          by_cases first : Nesting.after word = .plain 0
          · obtain ⟨before, opening, other, after, split, closed, here⟩ := ih (opened first)
            refine ⟨word :: before, opening, other, after, ?_, ?_, here⟩
            · rw [split, List.cons_append]
            · exact List.forall_mem_cons.mpr ⟨first, closed⟩
          · exact ⟨[], word, next, words, rfl, List.forall_mem_nil _, first⟩

theorem unmarked_intercalate {words : List String}
    (plain : ∀ word ∈ words, ∀ c ∈ word.toList, c ∉ Nesting.marks) :
    ∀ c ∈ (" ".intercalate words).toList, c ∉ Nesting.marks := by
  have space : ' ' ∉ Nesting.marks := by decide
  induction words with
  | nil => simp
  | cons word words ih =>
      rw [List.forall_mem_cons] at plain
      cases words with
      | nil => simpa using plain.1
      | cons next words =>
          intro c member
          simp only [String.intercalate_cons_cons, String.toList_append, List.mem_append] at member
          rcases member with (own | blank) | later
          · exact plain.1 c own
          · obtain rfl : c = ' ' := by simpa using blank
            exact space
          · exact ih plain.2 c later

/-- A word that is not closed takes in the words without marks behind it. -/
theorem words_intercalate_of_open {before after : List String} {opening next : String}
    (whole : ∀ word ∈ before ++ opening :: next :: after,
      Separator.blank.splitter.Whole word.toList)
    (trimmed : ∀ word ∈ before ++ opening :: next :: after, IsTrimmed word)
    (closed : ∀ word ∈ before, Nesting.after word = .plain 0)
    (opened : Nesting.after opening ≠ .plain 0)
    (plain : ∀ word ∈ next :: after, ∀ c ∈ word.toList, c ∉ Nesting.marks) :
    words (" ".intercalate (before ++ opening :: next :: after)) =
      before ++ [" ".intercalate (opening :: next :: after)] := by
  rw [List.forall_mem_append] at whole trimmed
  have joined : " ".intercalate (before ++ opening :: next :: after) =
      " ".intercalate (before ++ [" ".intercalate (opening :: next :: after)]) := by
    cases before with
    | nil => rw [List.nil_append, List.nil_append, String.intercalate_singleton]
    | cons word before =>
        have filled := List.cons_ne_nil word before
        rw [String.intercalate_append_of_ne_nil filled (List.cons_ne_nil _ _),
          String.intercalate_append_of_ne_nil filled (List.cons_ne_nil _ _),
          String.intercalate_singleton]
  rw [joined]
  have accepted : Separator.blank.accepts ' ' = true := rfl
  refine Separator.split_intercalate accepted ?_ ?_ ?_
  · refine List.forall_mem_append.mpr ⟨whole.1, List.forall_mem_singleton.mpr ?_⟩
    have split : (" ".intercalate (opening :: next :: after)).toList =
        opening.toList ++ ' ' :: (" ".intercalate (next :: after)).toList := by simp
    have rest : ∀ c ∈ ' ' :: (" ".intercalate (next :: after)).toList, c ∉ Nesting.marks :=
      List.forall_mem_cons.mpr ⟨by decide, unmarked_intercalate plain⟩
    rw [split]
    exact isWhole_append_iff.mpr
      ⟨whole.2 opening List.mem_cons_self, Nesting.isWhole_of_unmarked opened rest⟩
  · exact List.forall_mem_append.mpr
      ⟨trimmed.1, List.forall_mem_singleton.mpr (isTrimmed_intercalate trimmed.2 " ")⟩
  · rw [List.dropLast_concat]
    exact closed

section Joined

variable {value : String} {given : List String} (same : given.Perm (words value))

include same

theorem whole_of_perm : ∀ word ∈ given, Separator.blank.splitter.Whole word.toList := by
  intro word member
  have own : word ∈ Separator.blank.split value := same.mem_iff.mp member
  exact Separator.whole_of_mem_split own

theorem isTrimmed_of_perm : ∀ word ∈ given, IsTrimmed word := by
  intro word member
  have own : word ∈ Separator.blank.split value := same.mem_iff.mp member
  exact Separator.isTrimmed_of_mem_split own

/-- Words that are joined come apart again. -/
theorem words_intercalate_of_perm (closed : IsClosedBefore given) :
    words (" ".intercalate given) = given := by
  have accepted : Separator.blank.accepts ' ' = true := rfl
  exact Separator.split_intercalate accepted (whole_of_perm same) (isTrimmed_of_perm same) closed

/-- Words that come apart again make the border of the words, unless they are the word for none. -/
theorem border?_intercalate_of_closed (closed : IsClosedBefore given) (other : given ≠ ["none"]) :
    border? (" ".intercalate given) = ofWords? given := by
  have apart := words_intercalate_of_perm same closed
  by_cases zero : " ".intercalate given = "0"
  · have own : given = ["0"] := by
      rw [← apart, zero]
      decide +kernel
    rw [own]
    decide +kernel
  · have unequal : " ".intercalate given ≠ "none" := by
      intro none
      apply other
      rw [← apart, none]
      decide +kernel
    rw [border?_eq ⟨unequal, zero⟩, apart]

/-- Where a word takes in others, it takes the place of the color with them. -/
theorem border?_intercalate_of_open {styles : Styles} (found : ofWords? (words value) = some styles)
    (opened : ¬IsClosedBefore given) : border? (" ".intercalate given) ≠ some styles := by
  obtain ⟨before, opening, next, after, rfl, closed, here⟩ := exists_of_not_isClosedBefore opened
  obtain ⟨c, member, mark⟩ := Nesting.exists_mark_of_after here
  have listed : opening ∈ words value := same.mem_iff.mp (by simp)
  have color := color_of_isOther listed (isOther_of_mark member mark) found
  -- The open word is the only one for the color, so the others have no marks.
  have plain : ∀ word ∈ next :: after, ∀ d ∈ word.toList, d ∉ Nesting.marks := by
    intro word inside d own other
    have single := surplus_of_isSome (Option.isSome_of_eq_some found)
    have count := (same.filter isOther).length_eq
    have two : 2 ≤ ((before ++ opening :: next :: after).filter isOther).length := by
      have first := isOther_of_mark member mark
      have second : word ∈ (next :: after).filter isOther :=
        List.mem_filter.mpr ⟨inside, isOther_of_mark own other⟩
      have filled := List.length_pos_of_mem second
      rw [List.filter_append, List.filter_cons_of_pos first, List.length_append, List.length_cons]
      omega
    simp only [Parts.surplus, List.length_append] at single
    omega
  have joined := words_intercalate_of_open (whole_of_perm same) (isTrimmed_of_perm same) closed here
    plain
  have taken : isOther (" ".intercalate (opening :: next :: after)) = true :=
    isOther_of_mark (by simp [member]) mark
  have unequal : ∀ own ∈ ["none", "0"],
      " ".intercalate (before ++ opening :: next :: after) ≠ own := by
    have alone : ∀ own ∈ ["none", "0"], words own = [own] ∧ isOther own = false := by
      decide +kernel
    intro own known equal
    rw [equal, (alone own known).1] at joined
    have last := congrArg List.getLast? joined
    rw [List.getLast?_singleton, List.getLast?_concat, Option.some.injEq] at last
    rw [← last, (alone own known).2] at taken
    cases taken
  intro border
  rw [border?_eq ⟨unequal _ (by decide), unequal _ (by decide)⟩, joined] at border
  rw [color_of_isOther (List.mem_append_right _ (List.mem_singleton_self _)) taken border] at color
  simp only [Value.text, Option.some.injEq, Value.scalar.injEq, Scalar.text.injEq] at color
  have lengths := congrArg (·.toList.length) color
  simp at lengths

/-- Which words are accepted as a border does not depend on their order, if none of them takes in
another one.  The words make the same border in another order if and only if both orders are
rejected, or the lengths keep their order among them and so do the styles, and no word that is not
closed has been put before others. -/
theorem border?_intercalate_iff (read : value ≠ "none" ∧ value ≠ "0") :
    let joined := " ".intercalate given
    (IsClosedBefore given → (border? joined).isSome = (border? value).isSome) ∧
    (border? joined = border? value ↔
      (border? joined = none ∧ border? value = none) ∨
        (SameOrder (words value) given ∧ IsClosedBefore given ∧ given ≠ ["none"])) := by
  intro joined
  have whole : border? value = ofWords? (words value) := border?_eq read
  have invisible : ofWords? ["none"] ≠ Border.border? "none" ∧
      (ofWords? ["none"]).isSome = (Border.border? "none").isSome := by decide +kernel
  have order := isSome_ofWords?_of_perm same
  refine ⟨fun closed => ?_, ?_, ?_⟩
  · rw [whole, ← order]
    by_cases none : given = ["none"]
    · simp only [joined, none, String.intercalate_singleton, invisible.2]
    · rw [← border?_intercalate_of_closed same closed none]
  · intro border
    cases found : border? value with
    | none => exact .inl ⟨border.trans found, rfl⟩
    | some styles =>
        right
        rw [found] at border
        rw [whole] at found
        have closed : IsClosedBefore given := by
          by_contra opened
          exact border?_intercalate_of_open same found opened border
        have other : given ≠ ["none"] := by
          intro none
          apply invisible.1
          have own : words value = ["none"] := List.perm_singleton.mp (none ▸ same.symm)
          rw [own] at found
          simp only [joined, none, String.intercalate_singleton] at border
          rw [found, border]
        have accepted := Option.isSome_of_eq_some found
        refine ⟨(ofWords?_eq_iff same accepted).mp ?_, closed, other⟩
        rw [← border?_intercalate_of_closed same closed other, found]
        exact border
  · rintro (⟨refused, unread⟩ | ⟨kept, closed, other⟩)
    · rw [refused, unread]
    · rw [whole, border?_intercalate_of_closed same closed other]
      cases found : ofWords? (words value) with
      | none =>
          rw [found] at order
          exact Option.not_isSome_iff_eq_none.mp (by simp [order])
      | some styles =>
          rw [← found]
          exact (ofWords?_eq_iff same (Option.isSome_of_eq_some found)).mpr kept

end Joined

/-- Two widths, of which the second one is taken for the color. -/
theorem border?_ne_of_twoWidths :
    ["2px", "1px"].Perm (words "1px 2px") ∧
      border? "1px 2px" = some (.ofList [("borderWidth", .integer 1), ("borderColor", .text "2px"),
        ("borderStyle", .text "solid")]) ∧
      border? (" ".intercalate ["2px", "1px"]) =
        some (.ofList [("borderWidth", .integer 2), ("borderColor", .text "1px"),
          ("borderStyle", .text "solid")]) ∧
      border? (" ".intercalate ["2px", "1px"]) ≠ border? "1px 2px" := by
  decide +kernel

/-- The color, with blanks and an open parenthesis in it, is the last word in both orders. -/
theorem border?_intercalate_iff_of_openColor :
    let value := " dashed\t.5px rgb( 1, 2"
    let given := [".5px", "dashed", "rgb( 1, 2"]
    (value ≠ "none" ∧ value ≠ "0") ∧ given.Perm (words value) ∧
      (border? value).isSome = true ∧ border? (" ".intercalate given) = border? value := by
  intro value given
  have read : value ≠ "none" ∧ value ≠ "0" := by decide
  have same : given.Perm (words value) := by decide +kernel
  have kept : SameOrder (words value) given := ⟨by decide +kernel, by decide +kernel⟩
  have closed : IsClosedBefore given := by
    unfold IsClosedBefore
    decide +kernel
  exact ⟨read, same, by decide +kernel,
    (border?_intercalate_iff same read).2.mpr (.inr ⟨kept, closed, by decide⟩)⟩

end Border

end StyleObjects
