import StyleObjects.Proofs.Stylesheet.Canonical

/-!
# What tokens leave of a text

A token is taken off the start of a text, so the rest is a suffix of the text.  No token but a
value has a mark in it: the marks of the text are still there in the rest.
-/

namespace StyleObjects.Token

open Text

/-! ## Characters -/

/-- What holds of both braces and of the semicolon holds of every mark. -/
theorem of_isMark {p : Char → Prop} (each : p '\x7b' ∧ p '\x7d' ∧ p ';') {c : Char}
    (mark : isMark c = true) : p c := by
  simp only [isMark, Bool.or_eq_true, beq_iff_eq] at mark
  rcases mark with (rfl | rfl) | rfl
  · exact each.1
  · exact each.2.1
  · exact each.2.2

theorem isBlank_of_isMark {c : Char} (mark : isMark c = true) : isBlank c = false :=
  of_isMark (p := (isBlank · = false)) (by decide) mark

theorem startsProperty_of_isMark (c : Char) (mark : isMark c = true) : (c == '_') = false :=
  of_isMark (p := fun c => (c == '_') = false) (by decide) mark

theorem isMark_eq_false {p : Char → Bool} (stops : ∀ c, isMark c = true → p c = false) {c : Char}
    (inside : p c = true) : isMark c = false := by
  rw [← Bool.not_eq_true]
  intro mark
  rw [stops c mark] at inside
  cases inside

/-- A name that may start with a character starts with no mark. -/
theorem isMark_of_starts {starts : Char → Bool} (stops : ∀ c, isMark c = true → starts c = false)
    {c : Char} (starting : (c.isAlpha || starts c) = true) : isMark c = false := by
  refine isMark_eq_false (p := fun c => c.isAlpha || starts c) (fun c mark => ?_) starting
  rw [stops c mark, Bool.or_false]
  exact of_isMark (p := (·.isAlpha = false)) (by decide) mark

/-! ## Rests -/

/-- A text starts with a part without marks and leaves a rest. -/
def Leaves (cs part rest : List Char) : Prop :=
  part ++ rest = cs ∧ part.all (!isMark ·) = true

namespace Leaves

variable {cs part rest : List Char}

theorem suffix (leaves : Leaves cs part rest) : rest <:+ cs :=
  ⟨part, leaves.1⟩

theorem any_isMark (leaves : Leaves cs part rest) (marked : cs.any isMark = true) :
    rest.any isMark = true := by
  rcases leaves with ⟨rfl, unmarked⟩
  rw [List.any_append, Bool.or_eq_true] at marked
  refine marked.resolve_left fun inside => ?_
  rcases List.any_eq_true.mp inside with ⟨c, member, mark⟩
  simpa [mark] using List.all_eq_true.mp unmarked c member

theorem trans {second third : List Char} (first : Leaves cs part rest)
    (next : Leaves rest second third) : Leaves cs (part ++ second) third := by
  rcases first with ⟨rfl, unmarked⟩
  rcases next with ⟨rfl, others⟩
  exact ⟨List.append_assoc part second third, by simp_all⟩

end Leaves

theorem leaves_dropWhile {p : Char → Bool} (stops : ∀ c, isMark c = true → p c = false)
    (cs : List Char) : Leaves cs (cs.takeWhile p) (cs.dropWhile p) := by
  refine ⟨List.takeWhile_append_dropWhile, List.all_eq_true.mpr fun c member => ?_⟩
  rw [isMark_eq_false stops (List.all_eq_true.mp List.all_takeWhile c member)]
  rfl

theorem leaves_takeDashes (limit : Nat) (cs : List Char) :
    Leaves cs (takeDashes limit cs).1 (takeDashes limit cs).2 := by
  fun_induction takeDashes limit cs with
  | case1 limit cs dashes rest taken ih =>
      rw [taken] at ih
      have dash : Leaves ('-' :: cs) ['-'] cs := ⟨rfl, by decide⟩
      exact dash.trans ih
  | case2 => exact ⟨rfl, rfl⟩

theorem leaves_of_takeName? {starts : Char → Bool} (stops : ∀ c, isMark c = true → starts c = false)
    {cs name rest : List Char} (taken : takeName? starts cs = some (name, rest)) :
    Leaves cs name rest := by
  cases cs with
  | nil => simp [takeName?] at taken
  | cons c cs =>
      simp only [takeName?, Option.ite_none_right_eq_some, Option.some.injEq, Prod.mk.injEq]
        at taken
      rcases taken with ⟨starting, rfl, rfl⟩
      have first : Leaves (c :: cs) [c] cs := ⟨rfl, by simp [isMark_of_starts stops starting]⟩
      exact first.trans (leaves_dropWhile (fun _ => Stylesheet.isNameChar_of_isMark) cs)

theorem leaves_of_takeAtKeyword? {cs name rest : List Char}
    (taken : takeAtKeyword? cs = some (name, rest)) : Leaves cs ('@' :: name) rest := by
  cases cs with
  | nil => simp [takeAtKeyword?] at taken
  | cons c cs =>
      by_cases sign : c = '@'
      · subst sign
        rw [takeAtKeyword?, Option.map_eq_some_iff] at taken
        rcases taken with ⟨⟨word, after⟩, found, same⟩
        cases same
        have first : Leaves ('@' :: cs) ['@'] cs := ⟨rfl, by decide⟩
        exact first.trans ((leaves_takeDashes 1 cs).trans
          (leaves_of_takeName? (fun _ _ => rfl) found))
      · rw [takeAtKeyword?_eq_none (by simpa using sign)] at taken
        cases taken

/-- A property is a name with a colon and a value behind it. -/
theorem exists_of_takeProperty? {cs name rest : List Char}
    (taken : takeProperty? cs = some (name, rest)) :
    ∃ blanks value, Leaves cs name rest ∧ Leaves rest blanks (':' :: value) ∧
      reachesEnd value = true := by
  simp only [takeProperty?] at taken
  rcases Option.bind_eq_some_iff.mp taken with ⟨⟨word, after⟩, named, found⟩
  dsimp only at found
  split at found
  · rename_i value colon
    rw [Option.ite_none_right_eq_some] at found
    rcases found with ⟨ends, same⟩
    cases same
    refine ⟨rest.takeWhile isBlank, value, ?_, ?_, ends⟩
    · exact (leaves_takeDashes 2 cs).trans (leaves_of_takeName? startsProperty_of_isMark named)
    · exact colon ▸ leaves_dropWhile (fun _ => isBlank_of_isMark) rest
  · cases found

theorem suffix_of_dropKeyword? {word cs rest : List Char}
    (dropped : dropKeyword? word cs = some rest) : rest <:+ cs := by
  fun_induction dropKeyword? word cs with
  | case1 cs =>
      cases dropped
      exact List.suffix_rfl
  | case2 => cases dropped
  | case3 word c cs ih => exact (ih dropped).trans (List.suffix_cons c cs)
  | case4 => cases dropped

theorem suffix_of_takeMediaKeyword? {cs rest : List Char}
    (taken : takeMediaKeyword? cs = some rest) : rest <:+ cs := by
  cases cs with
  | nil => simp [takeMediaKeyword?] at taken
  | cons c cs =>
      by_cases sign : c = '@'
      · subst sign
        rw [takeMediaKeyword?, Option.bind_eq_some_iff] at taken
        rcases taken with ⟨after, dropped, same⟩
        rw [Option.ite_none_left_eq_some] at same
        cases same.2
        exact (suffix_of_dropKeyword? dropped).trans (List.suffix_cons '@' cs)
      · rw [takeMediaKeyword?_eq_none (by simpa using sign)] at taken
        cases taken

/-- The text of a selector list is one in front of a mark. -/
theorem takeAtPrelude?_of_takePrelude? {cs text rest : List Char}
    (taken : takePrelude? cs = some (text, rest)) : takeAtPrelude? cs = some (text, rest) := by
  cases cs with
  | nil => simp [takePrelude?] at taken
  | cons c cs =>
      rw [takePrelude?, Option.ite_none_left_eq_some] at taken
      exact taken.2

theorem leaves_of_takeAtPrelude? {cs text rest : List Char}
    (taken : takeAtPrelude? cs = some (text, rest)) : Leaves cs text rest := by
  have stop : ∀ c, isMark c = true → (!isMark c) = false := fun c mark => by rw [mark]; rfl
  have leaves := leaves_dropWhile stop cs
  unfold takeAtPrelude? at taken
  split at taken
  · cases taken
  · simp only [Option.some.injEq, Prod.mk.injEq] at taken
    rwa [taken.1, taken.2] at leaves

theorem eq_cons_of_takeMark? {mark : Char} {token taken : Token} {cs rest : List Char}
    (found : takeMark? mark token cs = some (taken, rest)) : cs = mark :: rest ∧ taken = token := by
  cases cs with
  | nil => simp [takeMark?] at found
  | cons c cs =>
      simp only [takeMark?, Option.ite_none_right_eq_some, Option.some.injEq, Prod.mk.injEq]
        at found
      exact ⟨by rw [found.1, found.2.2], found.2.1.symm⟩

/-- Only the class of a mark has its token, and only that character is taken. -/
theorem eq_cons_of_take? (own : Kind) {kind : Kind} {mark : Char} {token : Token}
    {cs rest : List Char} (marked : markOf? own = some (mark, token))
    (taken : kind.take? cs = some (token, rest)) : cs = mark :: rest := by
  cases own <;> simp only [markOf?, Option.some.injEq, Prod.mk.injEq, reduceCtorEq] at marked
  all_goals
    rcases marked with ⟨rfl, rfl⟩
    cases kind <;> simp only [Kind.take?, Option.map_eq_some_iff, Prod.mk.injEq, reduceCtorEq,
      false_and, and_false, exists_const] at taken
    all_goals
      have found := eq_cons_of_takeMark? taken
      simp_all

theorem suffix_of_take? {kind : Kind} {cs rest : List Char} {token : Token}
    (taken : kind.take? cs = some (token, rest)) : rest <:+ cs := by
  cases kind <;> simp only [Kind.take?, Option.map_eq_some_iff, Prod.mk.injEq] at taken
  case mediaKeyword =>
    rcases taken with ⟨after, found, -, rfl⟩
    exact suffix_of_takeMediaKeyword? found
  case property =>
    rcases taken with ⟨⟨name, after⟩, found, -, rfl⟩
    rcases exists_of_takeProperty? found with ⟨blanks, value, leaves, -⟩
    exact leaves.suffix
  case atKeyword =>
    rcases taken with ⟨⟨name, after⟩, found, -, rfl⟩
    exact (leaves_of_takeAtKeyword? found).suffix
  case value =>
    rcases taken with ⟨⟨text, after⟩, found, -, rfl⟩
    exact ⟨text, (append_of_takeValue? found).1⟩
  case prelude =>
    rcases taken with ⟨⟨text, after⟩, found, -, rfl⟩
    exact (leaves_of_takeAtPrelude? (takeAtPrelude?_of_takePrelude? found)).suffix
  case atPrelude =>
    rcases taken with ⟨⟨text, after⟩, found, -, rfl⟩
    exact (leaves_of_takeAtPrelude? found).suffix
  case colon | openBrace | closeBrace | semicolon =>
    rw [(eq_cons_of_takeMark? taken).1]
    exact List.suffix_cons _ rest

theorem eq_cons_of_takeFirst? (own : Kind) {kinds : List Kind} {mark : Char} {token : Token}
    {cs rest : List Char} (marked : markOf? own = some (mark, token))
    (taken : takeFirst? kinds cs = some (token, rest)) : cs = mark :: rest := by
  rcases List.exists_of_findSome?_eq_some taken with ⟨kind, -, found⟩
  exact eq_cons_of_take? own marked found

/-- A token is taken off the start of a text. -/
theorem suffix_of_takeFirst? {kinds : List Kind} {cs rest : List Char} {token : Token}
    (taken : takeFirst? kinds cs = some (token, rest)) : rest <:+ cs := by
  rcases List.exists_of_findSome?_eq_some taken with ⟨kind, -, found⟩
  exact suffix_of_take? found

end StyleObjects.Token
