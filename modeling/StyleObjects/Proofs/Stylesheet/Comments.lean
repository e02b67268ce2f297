import StyleObjects.Proofs.Stylesheet.Queries
import StyleObjects.Proofs.Stylesheet.Uncommented

/-!
# The comments of a text

A text is read as a row of pieces: comments, each up to the first place where it can end, and
characters at which no comment begins.  Removing the comments leaves the characters and the line
breaks of the comments.  What is left of a text need not be free of comments: a slash and a star on
the two sides of a comment begin another one.
-/

namespace StyleObjects.Comment

/-! ## Ends of comments -/

/-- A comment with this body does not end before it. -/
def Closes (body : List Char) : Prop :=
  ¬['*', '/'] <:+: body ++ ['*']

theorem closes_cons_iff {c : Char} {body : List Char} :
    Closes (c :: body) ↔ ¬(c = '*' ∧ body.head? = some '/') ∧ Closes body := by
  rw [Closes, Closes, List.cons_append, List.infix_cons_iff, not_or, List.cons_prefix_cons]
  cases body with
  | nil => simp
  | cons d body => simp [eq_comm]

/-- A comment ends at the first place where it can. -/
theorem takeBody?_eq_some_iff {cs body rest : List Char} :
    takeBody? cs = some (body, rest) ↔ cs = body ++ '*' :: '/' :: rest ∧ Closes body := by
  fun_induction takeBody? cs generalizing body rest with
  | case1 others =>
      constructor
      · rintro ⟨⟩
        exact ⟨rfl, by rw [Closes]; decide⟩
      · rintro ⟨split, closes⟩
        rcases body with _ | ⟨c, _ | ⟨d, body⟩⟩
        · simpa using split
        · simp at split
        · simp only [List.cons_append, List.cons.injEq] at split
          exact absurd ⟨split.1.symm, by rw [List.head?_cons, split.2.1]⟩
            (closes_cons_iff.mp closes).1
  | case2 c cs apart ih =>
      simp only [Option.map_eq_some_iff, Prod.exists, Prod.mk.injEq, ih]
      constructor
      · rintro ⟨inner, after, ⟨rfl, closes⟩, rfl, rfl⟩
        refine ⟨rfl, closes_cons_iff.mpr ⟨?_, closes⟩⟩
        rintro ⟨rfl, slash⟩
        obtain ⟨inner, rfl⟩ := List.head?_eq_some_iff.mp slash
        exact apart _ rfl rfl
      · rintro ⟨split, closes⟩
        cases body with
        | nil =>
            cases split
            exact absurd rfl (apart _ rfl)
        | cons d inner =>
            cases split
            exact ⟨inner, rest, ⟨rfl, (closes_cons_iff.mp closes).2⟩, rfl, rfl⟩
  | case3 => simp

/-- A comment is never closed if and only if its end stands nowhere. -/
theorem takeBody?_eq_none_iff {cs : List Char} : takeBody? cs = none ↔ ¬['*', '/'] <:+: cs := by
  fun_induction takeBody? cs with
  | case1 others => simpa using ⟨[], others, rfl⟩
  | case2 c cs apart ih =>
      rw [Option.map_eq_none_iff, ih, List.infix_cons_iff, not_or, List.cons_prefix_cons]
      refine (and_iff_right ?_).symm
      rintro ⟨rfl, starts⟩
      obtain ⟨others, rfl, -⟩ := List.cons_prefix_iff.mp starts
      exact apart _ rfl rfl
  | case3 => simp

/-! ## Pieces -/

/-- A piece of a text: a character that stands in no comment, or a comment with its body. -/
inductive Piece where
  | char (c : Char)
  | comment (body : List Char)

/-- The text of a piece. -/
def Piece.text : Piece → List Char
  | .char c => [c]
  | .comment body => '/' :: '*' :: (body ++ ['*', '/'])

/-- What is left of a piece where comments are removed. -/
def Piece.left : Piece → List Char
  | .char c => [c]
  | .comment body => body.filter (· == '\n')

@[simp] theorem Piece.text_char (c : Char) : (Piece.char c).text = [c] := rfl

@[simp] theorem Piece.left_char (c : Char) : (Piece.char c).left = [c] := rfl

/-- The pieces as which their text is read: a comment ends at the first place where it can, and no
comment begins at a character. -/
inductive IsRead : List Piece → Prop where
  | nil : IsRead []
  | char {c : Char} {pieces : List Piece}
      (opensNone : ∀ rest, c :: pieces.flatMap Piece.text = '/' :: '*' :: rest →
        ¬['*', '/'] <:+: rest)
      (others : IsRead pieces) : IsRead (.char c :: pieces)
  | comment {body : List Char} {pieces : List Piece} (closes : Closes body)
      (others : IsRead pieces) : IsRead (.comment body :: pieces)

@[simp] theorem flatMap_map_char {image : Piece → List Char} (keeps : ∀ c, image (.char c) = [c])
    (cs : List Char) : (cs.map Piece.char).flatMap image = cs := by
  induction cs with
  | nil => rfl
  | cons c cs ih => rw [List.map_cons, List.flatMap_cons, keeps, ih, List.singleton_append]

theorem strip_comment {rest body after : List Char} (found : takeBody? rest = some (body, after)) :
    strip ('/' :: '*' :: rest) = body.filter (· == '\n') ++ strip after := by
  rw [strip.eq_def]
  split
  · rename_i same
    cases same
    split
    · rename_i again
      cases found.symm.trans again
      rfl
    · rename_i missing
      cases found.symm.trans missing
  · rename_i apart same
    cases same
    exact absurd rfl (apart rest rfl)
  · rename_i same
    cases same

theorem strip_char {c : Char} {cs : List Char}
    (opensNone : ∀ rest, c :: cs = '/' :: '*' :: rest → takeBody? rest = none) :
    strip (c :: cs) = c :: strip cs := by
  rw [strip.eq_def]
  split
  · rename_i rest same
    cases same
    split
    · rename_i closed
      cases (opensNone rest rfl).symm.trans closed
    · rfl
  · rename_i same
    cases same
    rfl
  · rename_i same
    cases same

/-- Removing the comments of a text leaves what is left of its pieces. -/
theorem IsRead.strip_text {pieces : List Piece} (isRead : IsRead pieces) :
    strip (pieces.flatMap Piece.text) = pieces.flatMap Piece.left := by
  induction isRead with
  | nil => rw [List.flatMap_nil, strip, List.flatMap_nil]
  | @char c pieces opensNone others ih =>
      have first : strip (c :: pieces.flatMap Piece.text) = c :: strip (pieces.flatMap Piece.text) :=
        strip_char fun rest same => takeBody?_eq_none_iff.mpr (opensNone rest same)
      rw [List.flatMap_cons, List.flatMap_cons, ← ih]
      exact first
  | @comment body pieces closes others ih =>
      have found : takeBody? (body ++ '*' :: '/' :: pieces.flatMap Piece.text) =
        some (body, pieces.flatMap Piece.text) := takeBody?_eq_some_iff.mpr ⟨rfl, closes⟩
      have whole : (Piece.comment body :: pieces).flatMap Piece.text =
          '/' :: '*' :: (body ++ '*' :: '/' :: pieces.flatMap Piece.text) := by
        simp [Piece.text]
      rw [whole, strip_comment found, ih]
      rfl

/-- Every text is read as pieces. -/
theorem exists_isRead (cs : List Char) : ∃ pieces, IsRead pieces ∧ pieces.flatMap Piece.text = cs := by
  fun_induction strip cs with
  | case1 rest body after found ih =>
      obtain ⟨pieces, isRead, rfl⟩ := ih
      obtain ⟨split, closes⟩ := takeBody?_eq_some_iff.mp found
      refine ⟨.comment body :: pieces, .comment closes isRead, ?_⟩
      rw [split]
      simp [Piece.text]
  | case2 rest found ih =>
      obtain ⟨pieces, isRead, same⟩ := ih
      refine ⟨.char '/' :: pieces, .char ?_ isRead, by rw [List.flatMap_cons, same]; rfl⟩
      rw [same]
      rintro _ ⟨⟩
      exact takeBody?_eq_none_iff.mp found
  | case3 c rest apart ih =>
      obtain ⟨pieces, isRead, same⟩ := ih
      refine ⟨.char c :: pieces, .char ?_ isRead, by rw [List.flatMap_cons, same]; rfl⟩
      rw [same]
      rintro others ⟨⟩
      exact absurd rfl (apart others rfl)
  | case4 => exact ⟨[], .nil, rfl⟩

/-- What is left of a text stands in it. -/
theorem mem_of_mem_strip {c : Char} {cs : List Char} (member : c ∈ strip cs) : c ∈ cs := by
  obtain ⟨pieces, isRead, rfl⟩ := exists_isRead cs
  rw [isRead.strip_text, List.mem_flatMap] at member
  rcases member with ⟨piece, given, inside⟩
  refine List.mem_flatMap.mpr ⟨piece, given, ?_⟩
  cases piece with
  | char d => exact inside
  | comment body =>
      have own : c ∈ body := (List.mem_filter.mp inside).1
      simp [Piece.text, own]

/-! ## Parts of a text -/

theorem IsRead.of_append {pieces others : List Piece} (isRead : IsRead (pieces ++ others)) :
    IsRead pieces ∧ IsRead others := by
  induction pieces with
  | nil => exact ⟨.nil, isRead⟩
  | cons piece pieces ih =>
      cases isRead with
      | char opensNone rest =>
          refine ⟨.char ?_ (ih rest).1, (ih rest).2⟩
          intro after same inside
          -- What ends a comment in the first part ends it in the whole.
          apply opensNone (after ++ others.flatMap Piece.text)
          · have whole := congrArg (· ++ others.flatMap Piece.text) same
            simpa [List.flatMap_append] using whole
          · exact inside.trans (List.prefix_append _ _).isInfix
      | comment closes rest => exact ⟨.comment closes (ih rest).1, (ih rest).2⟩

theorem IsRead.of_infix {pieces part : List Piece} (isRead : IsRead pieces)
    (inside : part <:+: pieces) : IsRead part := by
  obtain ⟨before, after, rfl⟩ := inside
  exact isRead.of_append.1.of_append.2

/-- No comment begins at characters other than slashes. -/
theorem IsRead.map_char_append {pieces : List Piece} (isRead : IsRead pieces) {before : List Char}
    (absent : '/' ∉ before) : IsRead (before.map .char ++ pieces) := by
  induction before with
  | nil => exact isRead
  | cons c before ih =>
      rw [List.mem_cons, not_or] at absent
      refine .char ?_ (ih absent.2)
      intro rest same
      exact absurd (List.cons.inj same).1.symm absent.1

theorem isRead_map_char {cs : List Char} (absent : '/' ∉ cs) : IsRead (cs.map .char) := by
  have isRead := IsRead.nil.map_char_append absent
  rwa [List.append_nil] at isRead

theorem IsRead.append_of_not_mem {pieces : List Piece} (isRead : IsRead pieces) {after : List Char}
    (absent : '/' ∉ after) : IsRead (pieces ++ after.map .char) := by
  induction isRead with
  | nil => exact isRead_map_char absent
  | @char c pieces opensNone others ih =>
      rw [List.cons_append]
      refine .char ?_ ih
      intro rest same
      rw [List.flatMap_append, flatMap_map_char Piece.text_char] at same
      -- The star stands in the first part, or no slash follows it.
      cases inner : pieces.flatMap Piece.text with
      | nil =>
          intro inside
          rw [inner, List.nil_append, List.cons.injEq] at same
          exact absent (same.2 ▸ List.mem_cons_of_mem '*' (inside.subset (by simp)))
      | cons d front =>
          rw [inner, List.cons_append, List.cons.injEq, List.cons.injEq] at same
          rw [← same.2.2]
          have unclosed : ¬['*', '/'] <:+: front :=
            opensNone front (by rw [inner, same.1, same.2.1])
          have silent : ¬['*', '/'] <:+: after := fun inside => absent (inside.subset (by simp))
          exact Lists.not_infix_append unclosed silent fun _ slash =>
            absent (List.mem_of_head? slash)
  | comment closes others ih => exact .comment closes ih

/-- Removing comments leaves characters other than slashes around a text where they are. -/
theorem strip_surrounded {before after : List Char} (first : '/' ∉ before) (last : '/' ∉ after)
    (cs : List Char) : strip (before ++ (cs ++ after)) = before ++ (strip cs ++ after) := by
  obtain ⟨pieces, isRead, rfl⟩ := exists_isRead cs
  have whole := ((isRead.append_of_not_mem last).map_char_append first).strip_text
  simp only [List.flatMap_append, flatMap_map_char Piece.text_char,
    flatMap_map_char Piece.left_char] at whole
  rw [whole, isRead.strip_text]

/-- Blanks around a text do not matter where comments are removed and the rest is trimmed. -/
theorem trim_strip_trim (cs : List Char) : Text.trim (strip (Text.trim cs)) = Text.trim (strip cs) := by
  obtain ⟨before, after, left, right, split⟩ := Text.exists_trim cs
  have first : '/' ∉ before := Lists.not_mem_of_all left (by decide)
  have last : '/' ∉ after := Lists.not_mem_of_all right (by decide)
  have whole : strip cs = before ++ strip (Text.trim cs) ++ after := by
    conv_lhs => rw [split]
    rw [List.append_assoc, strip_surrounded first last, List.append_assoc]
  rw [whole, Text.trim_blanks_append left right]

/-! ## Texts without comments -/

/-- A text has a comment in it. -/
def Holds (cs : List Char) : Prop :=
  ∃ before body after, cs = before ++ '/' :: '*' :: (body ++ '*' :: '/' :: after)

/-- Nothing is removed where there are only characters. -/
theorem eq_map_char_of_forall {pieces : List Piece} (plain : ∀ body, .comment body ∉ pieces) :
    pieces = (pieces.flatMap Piece.text).map .char := by
  induction pieces with
  | nil => rfl
  | cons piece pieces ih =>
      have others := ih fun body member => plain body (List.mem_cons_of_mem _ member)
      cases piece with
      | char c =>
          rw [List.flatMap_cons, List.map_append, ← others]
          rfl
      | comment body => exact absurd List.mem_cons_self (plain body)

/-- A text has a comment in it if and only if it is read with one. -/
theorem IsRead.holds_iff {pieces : List Piece} (isRead : IsRead pieces) :
    Holds (pieces.flatMap Piece.text) ↔ ∃ body, .comment body ∈ pieces := by
  constructor
  · rintro ⟨before, body, after, whole⟩
    by_contra none
    have chars := eq_map_char_of_forall (not_exists.mp none)
    rw [chars, whole] at isRead
    -- A comment begins where there should be only a character.
    have inside : ('/' :: '*' :: (body ++ '*' :: '/' :: after)).map Piece.char <:+:
        (before ++ '/' :: '*' :: (body ++ '*' :: '/' :: after)).map Piece.char :=
      (List.suffix_append _ _).isInfix.map _
    cases isRead.of_infix inside with
    | char opensNone others =>
        refine opensNone (body ++ '*' :: '/' :: after) ?_ ⟨body, after, by simp⟩
        rw [flatMap_map_char Piece.text_char]
  · rintro ⟨body, member⟩
    rcases List.append_of_mem member with ⟨first, last, rfl⟩
    exact ⟨first.flatMap Piece.text, body, last.flatMap Piece.text, by simp [Piece.text]⟩

theorem strip_of_not_holds {cs : List Char} (bare : ¬Holds cs) : strip cs = cs := by
  obtain ⟨pieces, isRead, rfl⟩ := exists_isRead cs
  rw [isRead.holds_iff, not_exists] at bare
  rw [isRead.strip_text, eq_map_char_of_forall bare, flatMap_map_char Piece.text_char,
    flatMap_map_char Piece.left_char]

/-- No slash is left of a comment. -/
theorem count_left_comment (body : List Char) : (Piece.comment body).left.count '/' = 0 := by
  rw [List.count_eq_zero]
  intro member
  exact absurd (List.mem_filter.mp member).2 (by decide)

theorem count_left_le (pieces : List Piece) :
    (pieces.flatMap Piece.left).count '/' ≤ (pieces.flatMap Piece.text).count '/' := by
  induction pieces with
  | nil => exact Nat.le_refl _
  | cons piece pieces ih =>
      rw [List.flatMap_cons, List.flatMap_cons, List.count_append, List.count_append]
      refine Nat.add_le_add ?_ ih
      cases piece with
      | char c => exact Nat.le_refl _
      | comment body =>
          rw [count_left_comment]
          exact Nat.zero_le _

/-- Removing a comment removes slashes. -/
theorem count_strip_lt {cs : List Char} (holds : Holds cs) :
    (strip cs).count '/' < cs.count '/' := by
  obtain ⟨pieces, isRead, rfl⟩ := exists_isRead cs
  rcases isRead.holds_iff.mp holds with ⟨body, member⟩
  rcases List.append_of_mem member with ⟨first, last, rfl⟩
  have before := count_left_le first
  have after := count_left_le last
  have own : 0 < (Piece.comment body).text.count '/' :=
    List.count_pos_iff.mpr List.mem_cons_self
  rw [isRead.strip_text]
  simp only [List.flatMap_append, List.flatMap_cons, List.count_append, count_left_comment]
  omega

theorem strip_eq_self_iff {cs : List Char} : strip cs = cs ↔ ¬Holds cs := by
  refine ⟨fun same holds => ?_, strip_of_not_holds⟩
  have fewer := count_strip_lt holds
  rw [same] at fewer
  exact Nat.lt_irrefl _ fewer

/-- A part of a text without comments has none. -/
theorem strip_of_infix {cs part : List Char} (bare : strip cs = cs) (inside : part <:+: cs) :
    strip part = part := by
  rw [strip_eq_self_iff] at bare ⊢
  rintro ⟨front, body, back, rfl⟩
  obtain ⟨before, after, rfl⟩ := inside
  exact bare ⟨before ++ front, body, back ++ after, by simp⟩

end StyleObjects.Comment
