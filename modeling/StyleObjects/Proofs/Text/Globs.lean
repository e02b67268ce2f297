import StyleObjects.Text.Glob

/-!
# What a pattern accepts

A pattern is matched with a table, which says for every part of the pattern from which places of the
text on it matches the rest.  A column of the table does not depend on the characters before it, so
what is read off the table is what the parts say: any text stands for any text, every other part for
one character, and nothing is left over.
-/

namespace StyleObjects.Text.Glob

/-- The part stands for one character, and this may be it. -/
def admits : GlobPart → Char → Bool
  | .anyText, _ => false
  | .anyChar, _ => true
  | .literal d, c => c == d
  | .oneOf set, c => set.accepts c

/-- A text is what the parts of a pattern stand for, one after the other. -/
inductive Matches : Glob → List Char → Prop where
  | nil : Matches [] []
  | anyText {parts : Glob} {rest : List Char} (text : List Char) (others : Matches parts rest) :
      Matches (.anyText :: parts) (text ++ rest)
  | char {part : GlobPart} {parts : Glob} {c : Char} {rest : List Char}
      (admitted : admits part c = true) (others : Matches parts rest) :
      Matches (part :: parts) (c :: rest)

/-! ## The table -/

theorem length_anyEnd (row : List Bool) : (anyEnd row).length = row.length := by
  induction row with
  | nil => rfl
  | cons holds later ih => simp [anyEnd, ih]

theorem length_afterChar (admits : Char → Bool) (cs : List Char) (row : List Bool)
    (h : row.length = cs.length + 1) : (afterChar admits cs row).length = cs.length + 1 := by
  induction cs generalizing row with
  | nil => simp [afterChar]
  | cons c cs ih =>
      match row with
      | [] => simp at h
      | _ :: later => simp [afterChar, ih later (by simpa using h)]

theorem length_ends (pattern : Glob) (cs : List Char) :
    (ends pattern cs).length = cs.length + 1 := by
  induction pattern with
  | nil => simp [ends]
  | cons part parts ih => cases part <;> simp [ends, length_anyEnd, length_afterChar, ih]

/-- What holds of the ends of a text is settled without its first character. -/
theorem tail_ends (pattern : Glob) (c : Char) (cs : List Char) :
    (ends pattern (c :: cs)).tail = ends pattern cs := by
  induction pattern with
  | nil => rfl
  | cons part parts ih =>
      have size := length_ends parts (c :: cs)
      match found : ends parts (c :: cs) with
      | [] => simp [found] at size
      | holds :: later => cases part <;> simp_all [ends, anyEnd, afterChar]

theorem ends_cons (pattern : Glob) (c : Char) (cs : List Char) :
    ends pattern (c :: cs) = accepts pattern (c :: cs) :: ends pattern cs := by
  have size := length_ends pattern (c :: cs)
  rw [← tail_ends pattern c cs, accepts]
  cases found : ends pattern (c :: cs) with
  | nil => simp [found] at size
  | cons holds later => rfl

/-! ## What is read off the table -/

section Parts

variable (parts : Glob) (c : Char) (cs : List Char)

theorem accepts_nil : accepts [] cs = cs.isEmpty := by
  cases cs <;> rfl

theorem accepts_anyText_nil : accepts (.anyText :: parts) [] = accepts parts [] := by
  have size := length_ends parts []
  rw [accepts, accepts, ends]
  match found : ends parts [] with
  | [] => simp [found] at size
  | [holds] => simp [anyEnd]
  | _ :: _ :: _ => simp [found] at size

theorem accepts_anyText_cons :
    accepts (.anyText :: parts) (c :: cs) =
      (accepts parts (c :: cs) || accepts (.anyText :: parts) cs) := by
  rw [accepts, ends, ends_cons]
  rfl

/-- A part that stands for one character takes it off the text. -/
theorem ends_char {part : GlobPart} (single : part ≠ .anyText) :
    ends (part :: parts) cs = afterChar (admits part) cs (ends parts cs) := by
  cases part with
  | anyText => exact absurd rfl single
  | anyChar | literal d | oneOf set => rfl

theorem accepts_char_nil {part : GlobPart} (single : part ≠ .anyText) :
    accepts (part :: parts) [] = false := by
  rw [accepts, ends_char parts [] single]
  rfl

theorem accepts_char_cons {part : GlobPart} (single : part ≠ .anyText) :
    accepts (part :: parts) (c :: cs) = (admits part c && accepts parts cs) := by
  rw [accepts, ends_char parts (c :: cs) single, ends_cons]
  rfl

end Parts

/-! ## Matches -/

theorem accepts_anyText_iff {parts : Glob} {cs : List Char} :
    accepts (.anyText :: parts) cs = true ↔
      ∃ text rest, cs = text ++ rest ∧ accepts parts rest = true := by
  induction cs with
  | nil =>
      rw [accepts_anyText_nil]
      constructor
      · exact fun whole => ⟨[], [], rfl, whole⟩
      · rintro ⟨text, rest, split, whole⟩
        rwa [(List.append_eq_nil_iff.mp split.symm).2] at whole
  | cons c cs ih =>
      rw [accepts_anyText_cons, Bool.or_eq_true, ih]
      constructor
      · rintro (whole | ⟨text, rest, rfl, later⟩)
        · exact ⟨[], c :: cs, rfl, whole⟩
        · exact ⟨c :: text, rest, rfl, later⟩
      · rintro ⟨text, rest, split, later⟩
        cases text with
        | nil =>
            rw [split]
            exact .inl later
        | cons first text =>
            cases split
            exact .inr ⟨text, rest, rfl, later⟩

theorem Matches.exists_of_char {part : GlobPart} {parts : Glob} {cs : List Char}
    (spelled : Matches (part :: parts) cs) (single : part ≠ .anyText) :
    ∃ c rest, cs = c :: rest ∧ admits part c = true ∧ Matches parts rest := by
  cases spelled with
  | anyText text others => exact absurd rfl single
  | char admitted others => exact ⟨_, _, rfl, admitted, others⟩

/-- A pattern accepts the texts that its parts stand for. -/
theorem accepts_iff_matches (pattern : Glob) (cs : List Char) :
    accepts pattern cs = true ↔ Matches pattern cs := by
  induction pattern generalizing cs with
  | nil =>
      rw [accepts_nil, List.isEmpty_iff]
      constructor
      · rintro rfl
        exact .nil
      · rintro ⟨⟩
        rfl
  | cons part parts ih =>
      by_cases single : part = .anyText
      · subst single
        rw [accepts_anyText_iff]
        constructor
        · rintro ⟨text, rest, rfl, later⟩
          exact .anyText text ((ih rest).mp later)
        · intro spelled
          cases spelled with
          | anyText text others => exact ⟨text, _, rfl, (ih _).mpr others⟩
          | char admitted others => cases admitted
      · cases cs with
        | nil =>
            rw [accepts_char_nil parts single]
            refine iff_of_false Bool.false_ne_true fun spelled => ?_
            obtain ⟨c, rest, whole, -⟩ := spelled.exists_of_char single
            cases whole
        | cons c cs =>
            rw [accepts_char_cons parts c cs single, Bool.and_eq_true, ih]
            constructor
            · exact fun given => .char given.1 given.2
            · intro spelled
              obtain ⟨first, rest, whole, given⟩ := spelled.exists_of_char single
              cases whole
              exact given

end StyleObjects.Text.Glob
