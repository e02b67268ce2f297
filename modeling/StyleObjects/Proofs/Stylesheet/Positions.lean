import StyleObjects.Proofs.Stylesheet.Accepted
import StyleObjects.Proofs.Stylesheet.Comments

/-!
# Positions of errors

A comment that is removed leaves its line breaks, so every character that is left stands on the line
where it stood.  A text that cannot be read is reported with the position of a character: the one at
which no token fits or where the token that fits is out of place, or the first one of the last token
if the text ends too early.
-/

namespace StyleObjects

/-! ## Lines of a text without comments -/

namespace Comment

/-- A piece keeps its line breaks. -/
theorem Piece.count_left (piece : Piece) : piece.left.count '\n' = piece.text.count '\n' := by
  cases piece with
  | char c => rfl
  | comment body => simp [left, text, List.count_filter]

theorem count_flatMap_left (pieces : List Piece) :
    (pieces.flatMap Piece.left).count '\n' = (pieces.flatMap Piece.text).count '\n' := by
  induction pieces with
  | nil => rfl
  | cons piece pieces ih =>
      rw [List.flatMap_cons, List.flatMap_cons, List.count_append, List.count_append, ih,
        piece.count_left]

/-- What is left of a piece stands in it, behind as many line breaks. -/
theorem Piece.exists_of_left {piece : Piece} {before after : List Char} {c : Char}
    (split : piece.left = before ++ c :: after) :
    ∃ first last, piece.text = first ++ c :: last ∧ first.count '\n' = before.count '\n' := by
  cases piece with
  | char d => exact ⟨before, after, split, rfl⟩
  | comment body =>
      obtain ⟨front, back, rfl, rfl, rest⟩ := List.filter_eq_append_iff.mp split
      obtain ⟨skipped, others, rfl, plain, -, -⟩ := List.filter_eq_cons_iff.mp rest
      refine ⟨'/' :: '*' :: (front ++ skipped), others ++ ['*', '/'], by simp [text], ?_⟩
      have none : skipped.count '\n' = 0 :=
        List.count_eq_zero.mpr fun member => plain '\n' member rfl
      simp [List.count_filter, none]

/-- What is left of a text stands in it, behind as many line breaks. -/
theorem exists_of_flatMap_left {pieces : List Piece} {before after : List Char} {c : Char}
    (split : pieces.flatMap Piece.left = before ++ c :: after) :
    ∃ first last, pieces.flatMap Piece.text = first ++ c :: last ∧
      first.count '\n' = before.count '\n' := by
  induction pieces generalizing before with
  | nil => simp at split
  | cons piece pieces ih =>
      rw [List.flatMap_cons, List.append_eq_append_iff] at split
      rw [List.flatMap_cons]
      rcases split with ⟨inner, rfl, rest⟩ | ⟨inner, own, rest⟩
      · obtain ⟨first, last, same, count⟩ := ih rest
        refine ⟨piece.text ++ first, last, by rw [same, List.append_assoc], ?_⟩
        rw [List.count_append, List.count_append, count, piece.count_left]
      · cases inner with
        | nil =>
            have rest : pieces.flatMap Piece.left = [] ++ c :: after := rest.symm
            obtain ⟨first, last, same, count⟩ := ih rest
            refine ⟨piece.text ++ first, last, by rw [same, List.append_assoc], ?_⟩
            rw [List.append_nil] at own
            rw [List.count_append, count, ← own, piece.count_left, List.count_nil, Nat.add_zero]
        | cons d inner =>
            rw [List.cons_append, List.cons.injEq] at rest
            obtain ⟨first, last, same, count⟩ := Piece.exists_of_left (rest.1 ▸ own)
            exact ⟨first, last ++ pieces.flatMap Piece.text, by simp [same], count⟩

end Comment

/-! ## Where reading stops -/

namespace Stylesheet.Progress

/-- Reading goes on from a progress, whose last token starts at the text `last`, and stops with a
text that is left. -/
inductive Stops : Progress → List Char → List Char → List Char → Prop where
  /-- The text ends too early: it is left from its last token on. -/
  | unfinished {progress : Progress} {last cs : List Char}
      (blank : progress.place.skipSpaces cs = []) (incomplete : progress.finish? = none) :
      Stops progress last cs last
  /-- No token fits. -/
  | unknown {progress : Progress} {last cs : List Char} (filled : progress.place.skipSpaces cs ≠ [])
      (unfit : Token.takeFirst? (progress.place.kinds progress.scopes)
        (progress.place.skipSpaces cs) = none) :
      Stops progress last cs (progress.place.skipSpaces cs)
  /-- The token that fits is out of place. -/
  | misplaced {progress : Progress} {last cs rest : List Char} {token : Token}
      (taken : Token.takeFirst? (progress.place.kinds progress.scopes)
        (progress.place.skipSpaces cs) = some (token, rest))
      (refused : progress.advance? token = none) :
      Stops progress last cs (progress.place.skipSpaces cs)
  | step {progress next : Progress} {last cs rest left : List Char} {token : Token}
      (taken : Token.takeFirst? (progress.place.kinds progress.scopes)
        (progress.place.skipSpaces cs) = some (token, rest))
      (advanced : progress.advance? token = some next)
      (others : Stops next (progress.place.skipSpaces cs) rest left) :
      Stops progress last cs left

/-- A token is taken from a text with characters. -/
theorem ne_nil_of_takeFirst? {kinds : List Token.Kind} {cs rest : List Char} {token : Token}
    (taken : Token.takeFirst? kinds cs = some (token, rest)) : cs ≠ [] := by
  rw [← List.length_pos_iff]
  exact Nat.zero_lt_of_lt (Token.length_of_takeFirst? taken)

/-- One turn of a run where the text does not end. -/
theorem run_of_filled {progress : Progress} {cs : List Char}
    (filled : progress.place.skipSpaces cs ≠ []) (last : List Char) :
    progress.run last cs =
      match Token.takeFirst? (progress.place.kinds progress.scopes)
        (progress.place.skipSpaces cs) with
      | none => .error (progress.place.skipSpaces cs)
      | some (token, rest) =>
        match progress.advance? token with
        | none => .error (progress.place.skipSpaces cs)
        | some next => next.run (progress.place.skipSpaces cs) rest := by
  rw [run, if_neg (by rwa [List.isEmpty_iff])]
  split
  · rename_i unfit
    simp only [unfit]
  · rename_i token rest taken
    cases advanced : progress.advance? token <;> simp only [taken, advanced]

/-- A run fails with the text with which reading stops. -/
theorem stops_iff {progress : Progress} {last cs left : List Char} :
    progress.Stops last cs left ↔ progress.run last cs = .error left := by
  constructor
  · intro stopped
    induction stopped with
    | unfinished blank incomplete =>
        rw [run]
        simp [blank, incomplete]
    | unknown filled unfit => simp only [run_of_filled filled, unfit]
    | misplaced taken refused =>
        simp only [run_of_filled (ne_nil_of_takeFirst? taken), taken, refused]
    | step taken advanced others ih =>
        simp only [run_of_filled (ne_nil_of_takeFirst? taken), taken, advanced, ih]
  · intro failed
    fun_induction run progress last cs with
    | case1 => cases failed
    | case2 progress last cs blank incomplete =>
        cases failed
        exact .unfinished (List.isEmpty_iff.mp blank) incomplete
    | case3 progress last cs filled unfit =>
        cases failed
        exact .unknown (mt List.isEmpty_iff.mpr filled) unfit
    | case4 progress last cs filled token rest taken refused =>
        cases failed
        exact .misplaced taken refused
    | case5 progress last cs filled token rest taken next advanced ih =>
        exact .step taken advanced (ih failed)

/-- Reading stops inside of a text. -/
theorem Stops.suffix {progress : Progress} {last cs left whole : List Char}
    (stopped : progress.Stops last cs left) (known : last <:+ whole) (inside : cs <:+ whole) :
    left <:+ whole := by
  induction stopped with
  | unfinished => exact known
  | unknown | misplaced => exact (Place.suffix_skipSpaces _ _).trans inside
  | @step progress next last cs rest left token taken advanced others ih =>
      have skipped := (progress.place.suffix_skipSpaces cs).trans inside
      exact ih skipped ((Token.suffix_of_takeFirst? taken).trans skipped)

/-- Reading stops at a character if there has been a token, or the text may end at once. -/
theorem Stops.ne_nil {progress : Progress} {last cs left : List Char}
    (stopped : progress.Stops last cs left)
    (begun : last ≠ [] ∨ ∃ rules, progress.finish? = some rules) : left ≠ [] := by
  induction stopped with
  | unfinished blank incomplete =>
      refine begun.resolve_right ?_
      rintro ⟨rules, complete⟩
      cases incomplete.symm.trans complete
  | unknown filled unfit => exact filled
  | misplaced taken refused => exact ne_nil_of_takeFirst? taken
  | step taken advanced others ih => exact ih (.inl (ne_nil_of_takeFirst? taken))

end Stylesheet.Progress

/-! ## Positions -/

/-- The position of the character behind a text: its line is one more than there are line breaks,
and its column is one more than there are characters behind the last of them. -/
structure Position.IsBehind (position : Position) (before : List Char) : Prop where
  line : position.line = 1 + before.count '\n'
  column : ∃ above inLine, before = above ++ inLine ∧ '\n' ∉ inLine ∧
    (above = [] ∨ above.getLast? = some '\n') ∧ position.column = 1 + inLine.length

theorem Position.isBehind_after (before : List Char) : (after before).IsBehind before := by
  refine ⟨rfl, (before.reverse.dropWhile (· != '\n')).reverse,
    (before.reverse.takeWhile (· != '\n')).reverse, ?_, ?_, ?_, ?_⟩
  · rw [← List.reverse_append, List.takeWhile_append_dropWhile, List.reverse_reverse]
  · intro member
    simpa using List.mem_takeWhile_imp (List.mem_reverse.mp member)
  · rw [List.reverse_eq_nil_iff, List.getLast?_reverse]
    cases rest : before.reverse.dropWhile (· != '\n') with
    | nil => exact .inl rfl
    | cons c cs =>
        have stops := List.head?_dropWhile_not (· != '\n') before.reverse
        rw [rest] at stops
        exact .inr (by simpa using stops)
  · simp [after]

namespace Stylesheet

/-- A stylesheet is read as characters and comments, each of which ends at the first place where it
can.  Without its comments it has the same characters on the same lines.  If it cannot be read, the
position of the error is that of the character where reading stops, which stands on this line in the
stylesheet itself. -/
theorem parse_error_position (source : String) :
    (∃ pieces, Comment.IsRead pieces ∧ source.toList = pieces.flatMap Comment.Piece.text ∧
      (stripComments source).toList = pieces.flatMap Comment.Piece.left ∧
      ∀ before c after, pieces = before ++ .char c :: after →
        (before.flatMap Comment.Piece.left).count '\n' =
          (before.flatMap Comment.Piece.text).count '\n') ∧
    ∀ position, parse source = .error position → ∃ before c after,
      (stripComments source).toList = before ++ c :: after ∧ position.IsBehind before ∧
        (⟨.start, [], []⟩ : Progress).Stops (stripComments source).toList
          (stripComments source).toList (c :: after) ∧
        ∃ first last, source.toList = first ++ c :: last ∧
          position.line = 1 + first.count '\n' := by
  obtain ⟨pieces, isRead, whole⟩ := Comment.exists_isRead source.toList
  have stripped : (stripComments source).toList = pieces.flatMap Comment.Piece.left := by
    rw [stripComments, String.toList_ofList, ← whole, isRead.strip_text]
  refine ⟨⟨pieces, isRead, whole.symm, stripped, fun before _ _ _ =>
    Comment.count_flatMap_left before⟩, fun position failed => ?_⟩
  have left : (stripComments source).toList = Comment.strip source.toList := String.toList_ofList
  cases reading : read (Comment.strip source.toList) with
  | ok rules => simp [parse, reading, Except.mapError] at failed
  | error rest =>
      have stopped := Progress.stops_iff.mpr reading
      obtain ⟨before, split⟩ := stopped.suffix List.suffix_rfl List.suffix_rfl
      obtain ⟨c, after, rfl⟩ :=
        List.exists_cons_of_ne_nil (stopped.ne_nil (.inr ⟨[], rfl⟩))
      have reported : position = .after before := by
        simp only [parse, reading, Except.mapError, Except.error.injEq] at failed
        rw [← failed, ← split, List.length_append, Nat.add_sub_cancel, List.take_left]
      rw [← left] at split stopped
      obtain ⟨first, last, same, count⟩ :=
        Comment.exists_of_flatMap_left (stripped.symm.trans split.symm)
      refine ⟨before, c, after, split.symm, reported ▸ Position.isBehind_after before, stopped,
        first, last, whole.symm.trans same, ?_⟩
      rw [reported, count]
      rfl

/-- The line of an error that stands behind comments with line breaks, at the last token of a text
that ends too early. -/
theorem parse_error_position_of_lastToken :
    parse "/* \n /* */ .a \x7b /*\n*/ color: red" = .error ⟨3, 8⟩ ∧
      ∃ before c after, (stripComments "/* \n /* */ .a \x7b /*\n*/ color: red").toList =
        before ++ c :: after ∧ Position.IsBehind ⟨3, 8⟩ before := by
  have failed : parse "/* \n /* */ .a \x7b /*\n*/ color: red" = .error ⟨3, 8⟩ := by
    decide +kernel
  obtain ⟨-, reported⟩ := parse_error_position "/* \n /* */ .a \x7b /*\n*/ color: red"
  obtain ⟨before, c, after, split, behind, -⟩ := reported _ failed
  exact ⟨failed, before, c, after, split, behind⟩

end Stylesheet

end StyleObjects
