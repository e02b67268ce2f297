import StyleObjects.Proofs.Lists
import StyleObjects.Stylesheet.Token

/-!
# Tokens at the start of a text

Every class of tokens takes a known token off the start of a text whose continuation cannot extend
it.  A name in front of a colon is a property or the start of a selector; which one depends on
whether the text after the colon runs plainly into a brace or into the end of a declaration.
-/

namespace StyleObjects.Token

open Text

/-! ## Names -/

theorem takeDashes_append {count limit : Nat} (few : count ≤ limit) {rest : List Char}
    (other : rest.head? ≠ some '-') :
    takeDashes limit (List.replicate count '-' ++ rest) = (List.replicate count '-', rest) := by
  induction count generalizing limit with
  | zero =>
      cases rest with
      | nil => simp [takeDashes]
      | cons c rest =>
          have apart : c ≠ '-' := by simpa using other
          simp [takeDashes, apart]
  | succ count ih =>
      obtain ⟨limit, rfl⟩ : ∃ smaller, limit = smaller + 1 := ⟨limit - 1, by omega⟩
      simp [List.replicate_succ, takeDashes, ih (Nat.le_of_succ_le_succ few)]

theorem takeName?_append (starts : Char → Bool) {c : Char} {word rest : List Char}
    (starting : (c.isAlpha || starts c) = true) (inside : word.all isNameChar = true)
    (stop : rest.head?.any isNameChar = false) :
    takeName? starts (c :: word ++ rest) = some (c :: word, rest) := by
  simp only [List.cons_append, takeName?, starting, ↓reduceIte,
    Lists.takeWhile_append_of_stop inside stop, Lists.dropWhile_append_of_stop inside stop]

/-- A name is a property if a colon and a value follow. -/
theorem takeProperty?_append {count : Nat} (few : count ≤ 2) {c : Char} {word value : List Char}
    (starting : (c.isAlpha || c == '_') = true) (inside : word.all isNameChar = true)
    (ends : reachesEnd value = true) :
    takeProperty? (List.replicate count '-' ++ c :: word ++ ':' :: value) =
      some (List.replicate count '-' ++ c :: word, ':' :: value) := by
  have other : (c :: word ++ ':' :: value).head? ≠ some '-' := by
    intro same
    obtain rfl : c = '-' := by simpa using same
    exact absurd starting (by decide)
  rw [List.append_assoc, takeProperty?, takeDashes_append few other]
  dsimp only
  rw [takeName?_append (· == '_') starting inside (by rfl)]
  have colon : isBlank ':' = false := by decide
  simp [colon, ends]

theorem takeAtKeyword?_append {count : Nat} (few : count ≤ 1) {c : Char} {word rest : List Char}
    (letter : c.isAlpha = true) (inside : word.all isNameChar = true)
    (stop : rest.head?.any isNameChar = false) :
    takeAtKeyword? ('@' :: (List.replicate count '-' ++ c :: word ++ rest)) =
      some (List.replicate count '-' ++ c :: word, rest) := by
  have other : (c :: word ++ rest).head? ≠ some '-' := by
    intro same
    obtain rfl : c = '-' := by simpa using same
    exact absurd letter (by decide)
  rw [List.append_assoc, takeAtKeyword?, takeDashes_append few other]
  dsimp only
  rw [takeName?_append (fun _ => false) (by simpa using letter) inside stop]
  rfl

theorem takeMediaKeyword?_append {rest : List Char} (boundary : rest.head?.any isWord = false) :
    takeMediaKeyword? ('@' :: 'm' :: 'e' :: 'd' :: 'i' :: 'a' :: rest) = some rest := by
  have dropped : dropKeyword? ['m', 'e', 'd', 'i', 'a'] ('m' :: 'e' :: 'd' :: 'i' :: 'a' :: rest) =
      some rest := by
    simp [dropKeyword?, foldChar]
  simp [takeMediaKeyword?, dropped, boundary]

theorem takeMediaKeyword?_eq_none {cs : List Char} (other : cs.head? ≠ some '@') :
    takeMediaKeyword? cs = none := by
  cases cs with
  | nil => rfl
  | cons c cs =>
      have apart : c ≠ '@' := by simpa using other
      simp [takeMediaKeyword?, apart]

theorem takeAtKeyword?_eq_none {cs : List Char} (other : cs.head? ≠ some '@') :
    takeAtKeyword? cs = none := by
  cases cs with
  | nil => rfl
  | cons c cs =>
      have apart : c ≠ '@' := by simpa using other
      simp [takeAtKeyword?, apart]

/-- No property starts where no name can. -/
theorem takeProperty?_eq_none {c : Char} {cs : List Char} (dash : c ≠ '-')
    (starting : (c.isAlpha || c == '_') = false) : takeProperty? (c :: cs) = none := by
  have unmoved : takeDashes 2 (c :: cs) = ([], c :: cs) := by simp [takeDashes, dash]
  simp [takeProperty?, unmoved, takeName?, starting]

/-! ## Preludes -/

theorem takeAtPrelude?_append {text : List Char} (filled : text ≠ [])
    (inside : text.all (!isMark ·) = true) {mark : Char} (isEnd : isMark mark = true)
    (rest : List Char) : takeAtPrelude? (text ++ mark :: rest) = some (text, mark :: rest) := by
  have stop : (mark :: rest).head?.any (!isMark ·) = false := by simp [isEnd]
  rw [takeAtPrelude?, Lists.takeWhile_append_of_stop inside stop,
    Lists.dropWhile_append_of_stop inside stop]
  cases text with
  | nil => exact absurd rfl filled
  | cons c text => rfl

theorem takePrelude?_append {c : Char} {text : List Char} (sign : c ≠ '@')
    (visible : isBlank c = false) (inside : (c :: text).all (!isMark ·) = true) {mark : Char}
    (isEnd : isMark mark = true) (rest : List Char) :
    takePrelude? (c :: text ++ mark :: rest) = some (c :: text, mark :: rest) := by
  have taken := takeAtPrelude?_append (List.cons_ne_nil c text) inside isEnd rest
  rw [List.cons_append] at taken ⊢
  simp [takePrelude?, sign, visible, taken]

/-! ## Values -/

/-- Has no meaning in a value: neither a mark nor the start of a string or of a group. -/
def isPlain (c : Char) : Bool :=
  !isMark c && c != '"' && c != '\'' && c != '('

theorem all_not_isMark_of_plain {text : List Char} (plain : text.all isPlain = true) :
    text.all (!isMark ·) = true := by
  apply List.all_eq_true.2
  intro c member
  have here := List.all_eq_true.1 plain c member
  simp only [isPlain, Bool.and_eq_true] at here
  exact here.1.1.1

theorem reachesEnd_append_of_plain {text : List Char} (plain : text.all isPlain = true)
    (rest : List Char) : reachesEnd (text ++ rest) = reachesEnd rest := by
  induction text with
  | nil => rfl
  | cons c text ih =>
      simp only [List.all_cons, Bool.and_eq_true] at plain
      have here := plain.1
      simp only [isPlain, isMark, Bool.and_eq_true, Bool.not_eq_true', Bool.or_eq_false_iff,
        beq_eq_false_iff_ne, bne_iff_ne] at here
      rw [List.cons_append, reachesEnd.eq_def]
      simp only [here, or_self, ↓reduceIte]
      exact ih plain.2

@[simp] theorem reachesEnd_semicolon (rest : List Char) : reachesEnd (';' :: rest) = true := by
  simp [reachesEnd.eq_def]

@[simp] theorem reachesEnd_closeBrace (rest : List Char) :
    reachesEnd ('\x7d' :: rest) = true := by
  simp [reachesEnd.eq_def]

@[simp] theorem reachesEnd_openBrace (rest : List Char) :
    reachesEnd ('\x7b' :: rest) = false := by
  simp [reachesEnd.eq_def]

theorem takeValue_append_of_plain {text : List Char} (plain : text.all isPlain = true)
    {mark : Char} (isEnd : isMark mark = true) (rest : List Char) :
    takeValue (text ++ mark :: rest) = (text, mark :: rest) := by
  induction text with
  | nil =>
      rw [List.nil_append, takeValue.eq_def]
      simp [isEnd]
  | cons c text ih =>
      simp only [List.all_cons, Bool.and_eq_true] at plain
      have here := plain.1
      simp only [isPlain, Bool.and_eq_true, Bool.not_eq_true', bne_iff_ne] at here
      rw [List.cons_append, takeValue.eq_def]
      simp only [here, or_self, Bool.false_eq_true, ↓reduceIte]
      split
      · rename_i group after found
        simp [here] at found
      · rw [ih plain.2]

theorem take?_value {text : List Char} (plain : text.all isPlain = true) (filled : text ≠ [])
    {mark : Char} (isEnd : isMark mark = true) (rest : List Char) :
    Kind.take? .value (text ++ mark :: rest) = some (.value text, mark :: rest) := by
  have taken := takeValue_append_of_plain plain isEnd rest
  simp only [Kind.take?, takeValue?]
  rw [taken]
  cases text with
  | nil => exact absurd rfl filled
  | cons c text => rfl

/-! ## Texts that run into a brace -/

/-- The text runs plainly into a brace that opens a block. -/
def MeetsBrace (cs : List Char) : Prop :=
  ∃ text rest, text.all isPlain = true ∧ cs = text ++ '\x7b' :: rest

namespace MeetsBrace

theorem tail {c : Char} {cs : List Char} (meets : MeetsBrace (c :: cs)) (other : c ≠ '\x7b') :
    MeetsBrace cs := by
  rcases meets with ⟨text, rest, plain, same⟩
  cases text with
  | nil =>
      simp only [List.nil_append, List.cons.injEq] at same
      exact absurd same.1 other
  | cons d text =>
      simp only [List.cons_append, List.cons.injEq] at same
      simp only [List.all_cons, Bool.and_eq_true] at plain
      exact ⟨text, rest, plain.2, same.2⟩

theorem dropWhile {p : Char → Bool} (stops : p '\x7b' = false) {cs : List Char}
    (meets : MeetsBrace cs) : MeetsBrace (cs.dropWhile p) := by
  induction cs with
  | nil => exact meets
  | cons c cs ih =>
      by_cases drops : p c = true
      · rw [List.dropWhile_cons_of_pos drops]
        apply ih
        apply meets.tail
        intro equal
        subst equal
        simp [stops] at drops
      · rw [List.dropWhile_cons_of_neg drops]
        exact meets

theorem takeDashes {cs : List Char} (meets : MeetsBrace cs) (limit : Nat) :
    MeetsBrace (takeDashes limit cs).2 := by
  fun_induction Token.takeDashes limit cs with
  | case1 limit cs dashes rest taken ih =>
      have := ih (meets.tail (by decide))
      rwa [taken] at this
  | case2 => exact meets

theorem takeName? {starts : Char → Bool} (stops : starts '\x7b' = false)
    {cs name rest : List Char} (meets : MeetsBrace cs)
    (taken : takeName? starts cs = some (name, rest)) : MeetsBrace rest := by
  cases cs with
  | nil => simp [Token.takeName?] at taken
  | cons c cs =>
      simp only [Token.takeName?, Option.ite_none_right_eq_some, Option.some.injEq,
        Prod.mk.injEq] at taken
      rcases taken with ⟨starting, -, rfl⟩
      apply dropWhile (by decide)
      apply meets.tail
      intro equal
      subst equal
      simp [stops] at starting

theorem reachesEnd {cs : List Char} (meets : MeetsBrace cs) : reachesEnd cs = false := by
  rcases meets with ⟨text, rest, plain, rfl⟩
  rw [reachesEnd_append_of_plain plain, reachesEnd_openBrace]

/-- A text that runs into a brace starts with no property. -/
theorem takeProperty? {cs : List Char} (meets : MeetsBrace cs) : takeProperty? cs = none := by
  rw [Option.eq_none_iff_forall_ne_some]
  rintro ⟨found, rest⟩ taken
  simp only [Token.takeProperty?] at taken
  rcases Option.bind_eq_some_iff.1 taken with ⟨⟨name, after⟩, named, taken⟩
  have ahead := ((meets.takeDashes 2).takeName? (by decide) named).dropWhile
    (p := isBlank) (by decide)
  dsimp only at taken
  split at taken
  · rename_i value colon
    rw [colon] at ahead
    simp [(ahead.tail (by decide)).reachesEnd] at taken
  · cases taken

end MeetsBrace

/-! ## The first class that takes a token -/

theorem takeFirst?_cons {kind : Kind} {kinds : List Kind} {cs : List Char}
    {found : Token × List Char} (taken : kind.take? cs = some found) :
    takeFirst? (kind :: kinds) cs = some found := by
  simp [takeFirst?, taken]

theorem takeFirst?_cons_of_none {kind : Kind} {kinds : List Kind} {cs : List Char}
    (none : kind.take? cs = none) : takeFirst? (kind :: kinds) cs = takeFirst? kinds cs := by
  simp [takeFirst?, none]

/-- A token is taken wherever its class is tried, if no other class that is tried has one here. -/
theorem takeFirst?_of_only {kind : Kind} {kinds : List Kind} {cs : List Char}
    {found : Token × List Char} (taken : kind.take? cs = some found) (member : kind ∈ kinds)
    (only : ∀ other ∈ kinds, other ≠ kind → other.take? cs = none) :
    takeFirst? kinds cs = some found := by
  induction kinds with
  | nil => simp at member
  | cons first kinds ih =>
      by_cases here : first = kind
      · exact takeFirst?_cons (here ▸ taken)
      · rw [takeFirst?_cons_of_none (only first (by simp) here)]
        apply ih
        · exact (List.mem_cons.1 member).resolve_left (Ne.symm here)
        · exact fun other within => only other (by simp [within])

theorem take?_of_isMark {mark : Char} (isEnd : isMark mark = true) (rest : List Char)
    {kind : Kind} (other : kind ∉ [.openBrace, .closeBrace, .semicolon]) :
    kind.take? (mark :: rest) = none := by
  simp only [isMark, Bool.or_eq_true, beq_iff_eq] at isEnd
  cases kind
  case openBrace | closeBrace | semicolon => simp at other
  case property =>
    rcases isEnd with (rfl | rfl) | rfl <;>
      simp [Kind.take?, takeProperty?_eq_none]
  case value =>
    rcases isEnd with (rfl | rfl) | rfl <;>
      simp [Kind.take?, takeValue?, takeValue.eq_def, isMark]
  all_goals
    rcases isEnd with (rfl | rfl) | rfl <;>
      simp [Kind.take?, takeMediaKeyword?, takeAtKeyword?, takePrelude?, takeAtPrelude?,
        takeMark?, isMark]

/-- The mark that a class consists of, and its token, for the marks that end a text. -/
def markOf? : Kind → Option (Char × Token)
  | .openBrace => some ('\x7b', .openBrace)
  | .closeBrace => some ('\x7d', .closeBrace)
  | .semicolon => some (';', .semicolon)
  | _ => none

theorem takeFirst?_mark {kind : Kind} {mark : Char} {token : Token}
    (marked : markOf? kind = some (mark, token)) {kinds : List Kind} (member : kind ∈ kinds)
    (rest : List Char) : takeFirst? kinds (mark :: rest) = some (token, rest) := by
  have cases : kind ∈ [.openBrace, .closeBrace, .semicolon] ∧ isMark mark = true ∧
      kind.take? (mark :: rest) = some (token, rest) := by
    cases kind <;> simp only [markOf?, Option.some.injEq, Prod.mk.injEq, reduceCtorEq] at marked
    all_goals
      rcases marked with ⟨rfl, rfl⟩
      simp [isMark, Kind.take?, takeMark?]
  apply takeFirst?_of_only cases.2.2 member
  intro other _ apart
  by_cases text : other ∈ [.openBrace, .closeBrace, .semicolon]
  · cases kind <;> cases other <;>
      simp_all [markOf?, Kind.take?, takeMark?]
  · exact take?_of_isMark cases.2.1 rest text

/-- The text up to a mark is a prelude where nothing but that and marks is tried. -/
theorem takeFirst?_atPrelude {kinds : List Kind} (member : .atPrelude ∈ kinds)
    (within : ∀ kind ∈ kinds, kind ∈ [.atPrelude, .openBrace, .semicolon]) {text : List Char}
    (filled : text ≠ []) (inside : text.all (!isMark ·) = true) {mark : Char}
    (isEnd : isMark mark = true) (rest : List Char) :
    takeFirst? kinds (text ++ mark :: rest) = some (.atPrelude text, mark :: rest) := by
  have taken := takeAtPrelude?_append filled inside isEnd rest
  apply takeFirst?_of_only (by rw [Kind.take?, taken]; rfl) member
  intro kind tried apart
  have possible := within kind tried
  rcases List.exists_cons_of_ne_nil filled with ⟨c, text, rfl⟩
  have unmarked : isMark c = false := by simpa using List.all_eq_true.1 inside c (by simp)
  simp only [isMark, Bool.or_eq_false_iff, beq_eq_false_iff_ne] at unmarked
  cases kind
  case atPrelude => exact absurd rfl apart
  case openBrace | semicolon => simp [Kind.take?, takeMark?, unmarked]
  all_goals simp at possible

end StyleObjects.Token
