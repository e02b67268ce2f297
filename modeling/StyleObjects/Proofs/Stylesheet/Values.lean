import StyleObjects.Proofs.Stylesheet.Leaving

/-!
# Values in front of a mark

Groups and values end before the next brace, whatever stands behind it, and a value reaches its end
at the next mark, unless that one opens a block.  Strings may hold marks and braces alike; the texts
here have none.
-/

namespace StyleObjects.Token

variable {α : Type}

/-- A brace of either kind. -/
def isBrace (c : Char) : Bool :=
  c == '\x7b' || c == '\x7d'

/-- Starts no string. -/
def isUnquoted (c : Char) : Bool :=
  c != '"' && c != '\''

/-- What a scanner gives, with more text after the rest that it leaves. -/
def followedBy (more : List Char) (taken : α × List Char) : α × List Char :=
  (taken.1, taken.2 ++ more)

theorem isMark_of_isBrace {c : Char} (brace : isBrace c = true) : isMark c = true := by
  simp only [isBrace, Bool.or_eq_true, beq_iff_eq] at brace
  rcases brace with rfl | rfl <;> decide

/-! ## Single characters -/

/-- An inner group stands whole in a group. -/
theorem takeGroup?_parenthesis (cs : List Char) :
    takeGroup? ('(' :: cs) = (takeInnerGroup? cs).bind fun inner =>
      (takeGroup? inner.2).map fun taken => ('(' :: inner.1 ++ taken.1, taken.2) := by
  rw [takeGroup?.eq_def]
  simp only [Char.reduceEq, or_self, ↓reduceIte]
  split
  · rename_i found
    rw [found]
    rfl
  · rename_i none
    rw [none]
    rfl

theorem takeGroup?_cons {c : Char} (unquoted : isUnquoted c = true) (unbraced : isBrace c = false)
    (opens : c ≠ '(') (closes : c ≠ ')') (cs : List Char) :
    takeGroup? (c :: cs) = (takeGroup? cs).map fun taken => (c :: taken.1, taken.2) := by
  simp only [isUnquoted, Bool.and_eq_true, bne_iff_ne] at unquoted
  simp only [isBrace, Bool.or_eq_false_iff, beq_eq_false_iff_ne] at unbraced
  rw [takeGroup?.eq_def]
  simp [opens, closes, unquoted, unbraced]

/-- A value goes on after a group, or after a parenthesis that opens none. -/
theorem takeValue_parenthesis (cs : List Char) :
    takeValue ('(' :: cs) =
      match takeGroup? cs with
      | some (group, rest) => ('(' :: group ++ (takeValue rest).1, (takeValue rest).2)
      | none => ('(' :: (takeValue cs).1, (takeValue cs).2) := by
  rw [takeValue.eq_def]
  have unmarked : isMark '(' = false := by decide
  simp only [unmarked, Bool.false_eq_true, Char.reduceEq, or_self, ↓reduceIte]
  split
  · rename_i group rest found
    rw [if_pos rfl] at found
    rw [found]
  · rename_i none
    rw [if_pos rfl] at none
    rw [none]

theorem takeValue_cons {c : Char} (unquoted : isUnquoted c = true) (unmarked : isMark c = false)
    (opens : c ≠ '(') (cs : List Char) :
    takeValue (c :: cs) = (c :: (takeValue cs).1, (takeValue cs).2) := by
  simp only [isUnquoted, Bool.and_eq_true, bne_iff_ne] at unquoted
  rw [takeValue.eq_def]
  simp only [unmarked, Bool.false_eq_true, unquoted, or_self, ↓reduceIte]
  split
  · rename_i group rest found
    rw [if_neg opens] at found
    cases found
  · rfl

theorem takeValue_mark {mark : Char} (isEnd : isMark mark = true) (cs : List Char) :
    takeValue (mark :: cs) = ([], mark :: cs) := by
  rw [takeValue.eq_def]
  simp [isEnd]

/-- A text that starts with a group reaches its end behind the group or within it. -/
theorem reachesEnd_parenthesis (cs : List Char) :
    reachesEnd ('(' :: cs) =
      ((takeGroup? cs).any (fun taken => reachesEnd taken.2) || reachesEnd cs) := by
  rw [reachesEnd.eq_def]
  simp only [Char.reduceEq, or_self, ↓reduceIte]
  split
  · rename_i found
    rw [found]
    rfl
  · rename_i none
    rw [none]
    rfl

theorem reachesEnd_cons {c : Char} (unquoted : isUnquoted c = true) (unmarked : isMark c = false)
    (opens : c ≠ '(') (cs : List Char) : reachesEnd (c :: cs) = reachesEnd cs := by
  simp only [isUnquoted, Bool.and_eq_true, bne_iff_ne] at unquoted
  simp only [isMark, Bool.or_eq_false_iff, beq_eq_false_iff_ne] at unmarked
  rw [reachesEnd.eq_def]
  simp [opens, unquoted, unmarked]

/-! ## Braces -/

theorem takeInnerGroup?_append_brace (text : List Char) {brace : Char}
    (isEnd : isBrace brace = true) (rest : List Char) :
    takeInnerGroup? (text ++ brace :: rest) =
      (takeInnerGroup? text).map (followedBy (brace :: rest)) := by
  have bracket : isBracket brace = true := by
    simp only [isBrace, Bool.or_eq_true, beq_iff_eq] at isEnd
    rcases isEnd with rfl | rfl <;> decide
  have other : brace ≠ ')' := by
    rintro rfl
    exact absurd isEnd (by decide)
  unfold takeInnerGroup?
  cases stops : text.any isBracket with
  | true =>
      have reached : text.any (!!isBracket ·) = true := by simpa using stops
      have run := Lists.run_append_of_any reached (brace :: rest)
      rw [run.1, run.2]
      cases left : text.dropWhile (!isBracket ·) with
      | nil => simp_all
      | cons c after =>
          rw [List.cons_append]
          by_cases closes : c = ')'
          · subst closes
            rfl
          · simp [closes]
  | false =>
      have inside : text.all (!isBracket ·) = true := by simpa using stops
      have stop : (brace :: rest).head?.any (!isBracket ·) = false := by simp [bracket]
      rw [Lists.dropWhile_append_of_stop inside stop,
        List.dropWhile_eq_nil_iff.mpr (by simpa using inside)]
      simp [other]

/-- No group reaches beyond a brace. -/
theorem takeGroup?_append_brace {text : List Char} (unquoted : text.all isUnquoted = true)
    {brace : Char} (isEnd : isBrace brace = true) (rest : List Char) :
    takeGroup? (text ++ brace :: rest) = (takeGroup? text).map (followedBy (brace :: rest)) := by
  have mark : brace = '\x7b' ∨ brace = '\x7d' := by simpa [isBrace] using isEnd
  have other : brace ≠ ')' := by rcases mark with rfl | rfl <;> decide
  fun_induction takeGroup? text with
  | case1 => simp [takeGroup?, other, mark]
  | case2 cs => simp [takeGroup?, followedBy]
  | case3 c cs unclosed stops => simp [takeGroup?, unclosed, stops]
  | case4 cs inner after taken _ _ ih =>
      have others : after.all isUnquoted = true := by
        rw [← (append_of_takeInnerGroup? taken).1] at unquoted
        simp_all
      rw [List.cons_append, takeGroup?_parenthesis, takeInnerGroup?_append_brace cs isEnd, taken]
      simp only [Option.map_some, followedBy, Option.bind_some, ih others, Option.map_map]
      rfl
  | case5 cs none _ _ =>
      rw [List.cons_append, takeGroup?_parenthesis, takeInnerGroup?_append_brace cs isEnd, none]
      rfl
  | case6 c cs _ _ _ quote | case7 c cs _ _ _ quote =>
      simp [isUnquoted] at unquoted
      simp [unquoted] at quote
  | case8 c cs unclosed unbraced ungrouped unstrung ih =>
      simp only [List.all_cons, Bool.and_eq_true] at unquoted
      rw [List.cons_append, takeGroup?_cons unquoted.1 (by simpa [isBrace] using unbraced) ungrouped
        unclosed, ih unquoted.2, Option.map_map, Option.map_map]
      rfl

/-- No value reaches beyond a brace. -/
theorem takeValue_append_brace {text : List Char} (unquoted : text.all isUnquoted = true)
    {brace : Char} (isEnd : isBrace brace = true) (rest : List Char) :
    takeValue (text ++ brace :: rest) = followedBy (brace :: rest) (takeValue text) := by
  fun_induction takeValue text with
  | case1 => rw [List.nil_append, takeValue_mark (isMark_of_isBrace isEnd), followedBy]; rfl
  | case2 c cs mark => rw [List.cons_append, takeValue_mark mark, followedBy]; rfl
  | case3 c cs _ quote | case4 c cs _ quote =>
      simp [isUnquoted] at unquoted
      simp [unquoted] at quote
  | case5 c cs _ _ group after taken text left value ih =>
      simp only [List.all_cons, Bool.and_eq_true] at unquoted
      by_cases opens : c = '('
      · subst opens
        rw [dif_pos rfl] at taken
        have others : after.all isUnquoted = true := by
          have whole := (append_of_takeGroup? taken).1
          rw [← whole, List.all_append, Bool.and_eq_true] at unquoted
          exact unquoted.2.2
        rw [List.cons_append, takeValue_parenthesis, takeGroup?_append_brace unquoted.2 isEnd,
          taken]
        simp [followedBy, ih others, value]
      · rw [dif_neg opens] at taken
        cases taken
  | case6 c cs unmarked _ ungrouped text left value ih =>
      simp only [List.all_cons, Bool.and_eq_true] at unquoted
      rw [value] at ih
      by_cases opens : c = '('
      · subst opens
        rw [dif_pos rfl] at ungrouped
        rw [List.cons_append, takeValue_parenthesis, takeGroup?_append_brace unquoted.2 isEnd,
          ungrouped, Option.map_none, ih unquoted.2]
        rfl
      · rw [List.cons_append, takeValue_cons unquoted.1 (by simpa using unmarked) opens,
          ih unquoted.2]
        rfl

/-! ## Marks -/

/-- A value that meets a mark ends there, unless the mark opens a block. -/
theorem reachesEnd_append_mark {text : List Char} (unquoted : text.all isUnquoted = true)
    (unmarked : text.all (!isMark ·) = true) {mark : Char} (isEnd : isMark mark = true)
    (rest : List Char) : reachesEnd (text ++ mark :: rest) = (mark != '\x7b') := by
  fun_induction reachesEnd text with
  | case1 =>
      simp only [isMark, Bool.or_eq_true, beq_iff_eq] at isEnd
      rcases isEnd with (rfl | rfl) | rfl <;> simp
  | case2 c cs marks =>
      rcases marks with rfl | rfl <;> simp [isMark] at unmarked
  | case3 cs => simp [isMark] at unmarked
  | case4 c cs _ _ quote | case5 c cs _ _ quote =>
      simp [isUnquoted] at unquoted
      simp [unquoted] at quote
  | case6 cs _ _ _ behind within =>
      simp only [List.all_cons, Bool.and_eq_true] at unquoted unmarked
      rw [List.cons_append, reachesEnd_parenthesis, within unquoted.2 unmarked.2]
      by_cases opens : mark = '\x7b'
      · -- The group, if there is one, ends before the brace.
        subst opens
        rw [takeGroup?_append_brace unquoted.2 (by decide)]
        cases taken : takeGroup? cs with
        | none => rfl
        | some found =>
            rcases found with ⟨group, after⟩
            have suffix : after <:+ cs := ⟨group, (append_of_takeGroup? taken).1⟩
            simp [followedBy, behind group after taken (Lists.all_of_suffix suffix unquoted.2)
              (Lists.all_of_suffix suffix unmarked.2)]
      · simp [opens]
  | case7 c cs _ _ _ opens ih =>
      simp only [List.all_cons, Bool.and_eq_true] at unquoted unmarked
      rw [List.cons_append, reachesEnd_cons unquoted.1 (by simpa using unmarked.1) opens,
        ih unquoted.2 unmarked.2]

/-- The way to the end of a value is settled by a mark. -/
theorem reachesEnd_append_of_marked {cs : List Char} (unquoted : cs.all isUnquoted = true)
    (marked : cs.any isMark = true) (more : List Char) :
    reachesEnd (cs ++ more) = reachesEnd cs := by
  have split := List.takeWhile_append_dropWhile (p := (!isMark ·)) (l := cs)
  have before : (cs.takeWhile (!isMark ·)).all (!isMark ·) = true := List.all_takeWhile
  cases after : cs.dropWhile (!isMark ·) with
  | nil =>
      rw [List.dropWhile_eq_nil_iff] at after
      rcases List.any_eq_true.mp marked with ⟨c, member, mark⟩
      simpa [mark] using after c member
  | cons mark rest =>
      have isEnd : isMark mark = true := by
        have := List.head_dropWhile_not (!isMark ·) (l := cs) (by simp [after])
        simpa [after] using this
      rw [after] at split
      rw [← split] at unquoted ⊢
      rw [List.all_append, Bool.and_eq_true] at unquoted
      rw [List.append_assoc, List.cons_append, reachesEnd_append_mark unquoted.1 before isEnd,
        reachesEnd_append_mark unquoted.1 before isEnd]


end StyleObjects.Token
