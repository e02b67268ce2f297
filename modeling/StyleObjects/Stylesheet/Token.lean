import StyleObjects.Text.Blank
import StyleObjects.Text.Case
import StyleObjects.Text.Word

/-!
# Tokens of a stylesheet

Each class of tokens has a function that takes a token of the class from the start of a text, and
gives the token's text and the text after it.  A name counts as a property only if its value runs
to the end of a declaration without opening a block, which sets `color: red;` apart from the
selector `a:hover`.
-/

namespace StyleObjects

/-- A token, with its text where the class leaves it open. -/
inductive Token where
  | mediaKeyword
  | property (name : List Char)
  | atKeyword (name : List Char)
  | value (text : List Char)
  | prelude (text : List Char)
  | atPrelude (text : List Char)
  | colon
  | openBrace
  | closeBrace
  | semicolon
  deriving DecidableEq, Repr

namespace Token

open Text

/-- Characters that separate tokens and are dropped. -/
def isSpace (c : Char) : Bool :=
  c == ' ' || c == '\t' || c == '\r' || c == '\n' || c == '\x0c'

/-- Characters that no text between the marks of a stylesheet has. -/
def isMark (c : Char) : Bool :=
  c == '\x7b' || c == '\x7d' || c == ';'

/-- The rest of a string after its opening quote, up to and with the closing one.  A string stays
on its line, and a backslash protects the character after it. -/
def takeString? (quote : Char) : List Char → Option (List Char × List Char)
  | [] => none
  | [c] => if c = quote then some ([c], []) else none
  | c :: d :: cs =>
    if c = quote then some ([c], d :: cs)
    else if c = '\n' then none
    else if c = '\\' then
      if d = '\n' then none
      else (takeString? quote cs).map fun (text, rest) => (c :: d :: text, rest)
    else (takeString? quote (d :: cs)).map fun (text, rest) => (c :: text, rest)

/-- Parentheses and braces. -/
def isBracket (c : Char) : Bool :=
  c == '(' || c == ')' || c == '\x7b' || c == '\x7d'

/-- The rest of an inner group after its opening parenthesis, up to and with the closing one.
Nothing but brackets has a meaning in it. -/
def takeInnerGroup? (cs : List Char) : Option (List Char × List Char) :=
  match cs.dropWhile (!isBracket ·) with
  | ')' :: rest => some (cs.takeWhile (!isBracket ·) ++ [')'], rest)
  | _ => none

theorem append_of_takeString? {quote : Char} {cs text rest : List Char}
    (h : takeString? quote cs = some (text, rest)) : text ++ rest = cs ∧ text ≠ [] := by
  fun_induction takeString? quote cs generalizing text <;>
    simp_all [Option.map_eq_some_iff] <;> grind

theorem append_of_takeInnerGroup? {cs text rest : List Char}
    (h : takeInnerGroup? cs = some (text, rest)) : text ++ rest = cs ∧ text ≠ [] := by
  unfold takeInnerGroup? at h
  split at h
  · rename_i found
    have whole := List.takeWhile_append_dropWhile (p := (!isBracket ·)) (l := cs)
    simp only [Option.some.injEq, Prod.mk.injEq] at h
    rw [found] at whole
    rw [← h.1, ← h.2]
    simpa using whole
  · cases h

/-- A proper part at the start of a text leaves less of it. -/
theorem length_lt_of_append {text rest cs : List Char} (h : text ++ rest = cs ∧ text ≠ []) :
    rest.length < cs.length := by
  have := List.length_pos_iff.2 h.2
  rw [← h.1, List.length_append]
  omega

/-- The rest of a group after its opening parenthesis, up to and with the closing one.  A group may
hold semicolons, strings, and inner groups, but no braces. -/
def takeGroup? (cs : List Char) : Option (List Char × List Char) :=
  match cs with
  | [] => none
  | c :: cs =>
    if c = ')' then some ([c], cs)
    else if c = '\x7b' ∨ c = '\x7d' then none
    else if c = '(' then
      match _found : takeInnerGroup? cs with
      | some (inner, rest) =>
        (takeGroup? rest).map fun (text, rest) => (c :: inner ++ text, rest)
      | none => none
    else if c = '"' ∨ c = '\'' then
      match _found : takeString? c cs with
      | some (string, rest) =>
        (takeGroup? rest).map fun (text, rest) => (c :: string ++ text, rest)
      | none => none
    else (takeGroup? cs).map fun (text, rest) => (c :: text, rest)
termination_by cs.length
decreasing_by
  · have := length_lt_of_append (append_of_takeInnerGroup? _found)
    simp only [List.length_cons]
    omega
  · have := length_lt_of_append (append_of_takeString? _found)
    simp only [List.length_cons]
    omega
  · simp

theorem append_of_takeGroup? {cs text rest : List Char}
    (h : takeGroup? cs = some (text, rest)) : text ++ rest = cs ∧ text ≠ [] := by
  fun_induction takeGroup? cs generalizing text <;>
    simp_all [Option.map_eq_some_iff] <;>
    grind [append_of_takeInnerGroup?, append_of_takeString?]

/-- What follows can be the value of a declaration: some way through it reaches the end of the
declaration or of the text.  The way takes strings whole; a group may be taken whole or one
character at a time. -/
def reachesEnd (cs : List Char) : Bool :=
  match cs with
  | [] => true
  | c :: cs =>
    if c = ';' ∨ c = '\x7d' then true
    else if c = '\x7b' then false
    else if c = '"' ∨ c = '\'' then
      match _found : takeString? c cs with
      | some (_, rest) => reachesEnd rest
      | none => false
    else if c = '(' then
      (match _found : takeGroup? cs with
        | some (_, rest) => reachesEnd rest
        | none => false) || reachesEnd cs
    else reachesEnd cs
termination_by cs.length
decreasing_by
  · have := length_lt_of_append (append_of_takeString? _found)
    simp only [List.length_cons]
    omega
  · have := length_lt_of_append (append_of_takeGroup? _found)
    simp only [List.length_cons]
    omega
  all_goals simp

/-- The characters after the first one of a name. -/
def isNameChar (c : Char) : Bool :=
  isWord c || c == '-'

/-- A name that starts with an ASCII letter, or with one that `starts` accepts. -/
def takeName? (starts : Char → Bool) : List Char → Option (List Char × List Char)
  | [] => none
  | c :: cs =>
    if c.isAlpha || starts c then some (c :: cs.takeWhile isNameChar, cs.dropWhile isNameChar)
    else none

/-- At most `limit` dashes at the start of a text. -/
def takeDashes : Nat → List Char → List Char × List Char
  | limit + 1, '-' :: cs =>
    let (dashes, rest) := takeDashes limit cs
    ('-' :: dashes, rest)
  | _, cs => ([], cs)

/-- The name of a property: up to two dashes and a name, with a colon and a value after them. -/
def takeProperty? (cs : List Char) : Option (List Char × List Char) :=
  let (dashes, rest) := takeDashes 2 cs
  (takeName? (· == '_') rest).bind fun (name, rest) =>
    match rest.dropWhile isBlank with
    | ':' :: after => if reachesEnd after then some (dashes ++ name, rest) else none
    | _ => none

/-- The keyword `@media`, letter case aside, at the end of a word. -/
def takeMediaKeyword? : List Char → Option (List Char)
  | '@' :: cs =>
    (dropKeyword? ['m', 'e', 'd', 'i', 'a'] cs).bind fun rest =>
      if rest.head?.any isWord then none else some rest
  | _ => none

/-- The name of an at-rule, after its `@`. -/
def takeAtKeyword? : List Char → Option (List Char × List Char)
  | '@' :: cs =>
    let (dashes, rest) := takeDashes 1 cs
    (takeName? (fun _ => false) rest).map fun (name, rest) => (dashes ++ name, rest)
  | _ => none

/-- The text of a value.  Strings and groups are taken whole, and a parenthesis that opens no group
stands for itself. -/
def takeValue (cs : List Char) : List Char × List Char :=
  match cs with
  | [] => ([], [])
  | c :: cs =>
    if isMark c then ([], c :: cs)
    else if c = '"' ∨ c = '\'' then
      match _found : takeString? c cs with
      | some (string, rest) =>
        let (text, rest) := takeValue rest
        (c :: string ++ text, rest)
      | none => ([], c :: cs)
    else
      match _found : if c = '(' then takeGroup? cs else none with
      | some (group, rest) =>
        let (text, rest) := takeValue rest
        (c :: group ++ text, rest)
      | none =>
        let (text, rest) := takeValue cs
        (c :: text, rest)
termination_by cs.length
decreasing_by
  · have := length_lt_of_append (append_of_takeString? _found)
    simp only [List.length_cons]
    omega
  · split at _found
    · have := length_lt_of_append (append_of_takeGroup? _found)
      simp only [List.length_cons]
      omega
    · cases _found
  · simp

/-- The text of a value, if there is any. -/
def takeValue? (cs : List Char) : Option (List Char × List Char) :=
  match takeValue cs with
  | ([], _) => none
  | taken => some taken

/-- The text in front of an at-rule's body or end. -/
def takeAtPrelude? (cs : List Char) : Option (List Char × List Char) :=
  match cs.takeWhile (!isMark ·) with
  | [] => none
  | text => some (text, cs.dropWhile (!isMark ·))

/-- The text of a selector list. -/
def takePrelude? : List Char → Option (List Char × List Char)
  | [] => none
  | c :: cs => if c = '@' ∨ isBlank c then none else takeAtPrelude? (c :: cs)

/-- A class of tokens. -/
inductive Kind where
  | mediaKeyword
  | property
  | atKeyword
  | value
  | prelude
  | atPrelude
  | colon
  | openBrace
  | closeBrace
  | semicolon
  deriving DecidableEq, Repr

/-- Take a given character. -/
def takeMark? (mark : Char) (token : Token) : List Char → Option (Token × List Char)
  | c :: cs => if c = mark then some (token, cs) else none
  | [] => none

/-- Take a token of a class. -/
def Kind.take? (kind : Kind) (cs : List Char) : Option (Token × List Char) :=
  match kind with
  | .mediaKeyword => (takeMediaKeyword? cs).map fun rest => (.mediaKeyword, rest)
  | .property => (takeProperty? cs).map fun (name, rest) => (.property name, rest)
  | .atKeyword => (takeAtKeyword? cs).map fun (name, rest) => (.atKeyword name, rest)
  | .value => (takeValue? cs).map fun (text, rest) => (.value text, rest)
  | .prelude => (takePrelude? cs).map fun (text, rest) => (.prelude text, rest)
  | .atPrelude => (takeAtPrelude? cs).map fun (text, rest) => (.atPrelude text, rest)
  | .colon => takeMark? ':' .colon cs
  | .openBrace => takeMark? '\x7b' .openBrace cs
  | .closeBrace => takeMark? '\x7d' .closeBrace cs
  | .semicolon => takeMark? ';' .semicolon cs

/-- Take a token of the first class in a list that has one here. -/
def takeFirst? (kinds : List Kind) (cs : List Char) : Option (Token × List Char) :=
  kinds.findSome? (·.take? cs)

theorem length_takeDashes (limit : Nat) (cs : List Char) :
    (takeDashes limit cs).2.length ≤ cs.length := by
  fun_induction takeDashes limit cs with
  | case1 limit cs dashes rest taken ih =>
    simp only [taken] at ih
    simp only [List.length_cons]
    omega
  | case2 => exact Nat.le_refl _

theorem length_of_takeName? {starts : Char → Bool} {cs name rest : List Char}
    (h : takeName? starts cs = some (name, rest)) : rest.length < cs.length := by
  match cs with
  | [] => simp [takeName?] at h
  | c :: cs =>
    have := (List.dropWhile_suffix isNameChar (l := cs)).length_le
    simp only [takeName?, Option.ite_none_right_eq_some, Option.some.injEq, Prod.mk.injEq] at h
    simp only [List.length_cons, ← h.2.2]
    omega

theorem length_of_takeProperty? {cs name rest : List Char}
    (h : takeProperty? cs = some (name, rest)) : rest.length < cs.length := by
  have := length_takeDashes 2 cs
  simp only [takeProperty?] at h
  obtain ⟨⟨word, after⟩, found, h⟩ := Option.bind_eq_some_iff.1 h
  have := length_of_takeName? found
  dsimp only at h
  split at h
  · simp only [Option.ite_none_right_eq_some, Option.some.injEq, Prod.mk.injEq] at h
    rw [← h.2.2]
    omega
  · cases h

theorem length_of_takeAtKeyword? {cs name rest : List Char}
    (h : takeAtKeyword? cs = some (name, rest)) : rest.length < cs.length := by
  unfold takeAtKeyword? at h
  split at h
  · rename_i cs
    have := length_takeDashes 1 cs
    obtain ⟨⟨word, after⟩, found, same⟩ := Option.map_eq_some_iff.1 h
    have := length_of_takeName? found
    simp only [Prod.mk.injEq] at same
    simp only [List.length_cons, ← same.2]
    omega
  · cases h

theorem length_of_takeMediaKeyword? {cs rest : List Char}
    (h : takeMediaKeyword? cs = some rest) : rest.length < cs.length := by
  unfold takeMediaKeyword? at h
  split at h
  · obtain ⟨after, found, h⟩ := Option.bind_eq_some_iff.1 h
    have := length_of_dropKeyword? found
    simp only [Option.ite_none_left_eq_some, Option.some.injEq] at h
    simp only [List.length_cons, ← h.2]
    omega
  · cases h

theorem append_takeValue (cs : List Char) : (takeValue cs).1 ++ (takeValue cs).2 = cs := by
  fun_induction takeValue cs <;>
    grind [append_of_takeString?, append_of_takeGroup?]

theorem append_of_takeValue? {cs text rest : List Char}
    (h : takeValue? cs = some (text, rest)) : text ++ rest = cs ∧ text ≠ [] := by
  have whole := append_takeValue cs
  unfold takeValue? at h
  split at h
  · cases h
  · rename_i taken nonempty
    simp only [Option.some.injEq] at h
    rw [h] at whole nonempty
    exact ⟨whole, fun empty => nonempty rest (by rw [empty])⟩

theorem append_of_takeAtPrelude? {cs text rest : List Char}
    (h : takeAtPrelude? cs = some (text, rest)) : text ++ rest = cs ∧ text ≠ [] := by
  have whole := List.takeWhile_append_dropWhile (p := (!isMark ·)) (l := cs)
  unfold takeAtPrelude? at h
  split at h
  · cases h
  · rename_i nonempty
    simp only [Option.some.injEq, Prod.mk.injEq] at h
    rw [h.1, h.2] at whole
    rw [h.1] at nonempty
    exact ⟨whole, nonempty⟩

theorem length_of_takeMark? {mark : Char} {token taken : Token} {cs rest : List Char}
    (h : takeMark? mark token cs = some (taken, rest)) : rest.length < cs.length := by
  unfold takeMark? at h
  split at h
  · simp only [Option.ite_none_right_eq_some, Option.some.injEq, Prod.mk.injEq] at h
    simp [h.2.2]
  · cases h

theorem length_of_take? {kind : Kind} {cs rest : List Char} {token : Token}
    (h : kind.take? cs = some (token, rest)) : rest.length < cs.length := by
  cases kind <;> simp only [Kind.take?, Option.map_eq_some_iff, Prod.mk.injEq] at h
  case mediaKeyword =>
    obtain ⟨after, found, _, same⟩ := h
    exact same ▸ length_of_takeMediaKeyword? found
  case property =>
    obtain ⟨⟨name, after⟩, found, _, same⟩ := h
    exact same ▸ length_of_takeProperty? found
  case atKeyword =>
    obtain ⟨⟨name, after⟩, found, _, same⟩ := h
    exact same ▸ length_of_takeAtKeyword? found
  case value =>
    obtain ⟨⟨text, after⟩, found, _, same⟩ := h
    exact same ▸ length_lt_of_append (append_of_takeValue? found)
  case prelude =>
    obtain ⟨⟨text, after⟩, found, _, same⟩ := h
    unfold takePrelude? at found
    split at found
    · cases found
    · simp only [Option.ite_none_left_eq_some] at found
      exact same ▸ length_lt_of_append (append_of_takeAtPrelude? found.2)
  case atPrelude =>
    obtain ⟨⟨text, after⟩, found, _, same⟩ := h
    exact same ▸ length_lt_of_append (append_of_takeAtPrelude? found)
  all_goals exact length_of_takeMark? h

/-- Taking a token shortens the text. -/
theorem length_of_takeFirst? {kinds : List Kind} {cs rest : List Char} {token : Token}
    (h : takeFirst? kinds cs = some (token, rest)) : rest.length < cs.length := by
  obtain ⟨kind, _, found⟩ := List.exists_of_findSome?_eq_some h
  exact length_of_take? found

end Token

end StyleObjects
