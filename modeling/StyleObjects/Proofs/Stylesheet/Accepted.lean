import StyleObjects.Proofs.Stylesheet.Values
import StyleObjects.Proofs.Stylesheet.Reading

/-!
# Accepted texts

Reading a text to its end is a chain of tokens, each of which is taken off the text and may stand
where it does.  What holds of every text that is accepted is shown along this chain: an open block
is closed by a brace, and behind the last token there is nothing but spaces.
-/

namespace StyleObjects.Stylesheet

namespace Progress

/-- Reading goes on from a progress to the end of a text and gives rules. -/
inductive Accepts : Progress → List Char → Stylesheet → Prop where
  | finish {progress : Progress} {cs : List Char} {rules : Stylesheet}
      (blank : progress.place.skipSpaces cs = []) (complete : progress.finish? = some rules) :
      Accepts progress cs rules
  | step {progress next : Progress} {cs rest : List Char} {token : Token} {rules : Stylesheet}
      (taken : Token.takeFirst? (progress.place.kinds progress.scopes)
        (progress.place.skipSpaces cs) = some (token, rest))
      (advanced : progress.advance? token = some next) (others : Accepts next rest rules) :
      Accepts progress cs rules

/-- A text is accepted if and only if it is read without an error. -/
theorem accepts_iff {progress : Progress} {cs : List Char} {rules : Stylesheet}
    (last : List Char) : progress.Accepts cs rules ↔ progress.run last cs = .ok rules := by
  constructor
  · intro accepted
    induction accepted generalizing last with
    | finish blank complete =>
        rw [run]
        simp [blank, complete]
    | step taken advanced others ih =>
        rcases Reads.step rfl taken advanced last with ⟨token, same⟩
        rw [same]
        exact ih token
  · intro succeeded
    fun_induction run progress last cs with
    | case1 progress last cs blank read complete =>
        cases succeeded
        exact .finish (List.isEmpty_iff.mp blank) complete
    | case5 progress last cs filled token rest taken next advanced ih =>
        exact .step taken advanced (ih succeeded)
    | case2 | case3 | case4 => cases succeeded

end Progress

/-- A stylesheet is read if and only if its text without comments is accepted. -/
theorem parse_ok_iff {source : String} {rules : Stylesheet} :
    parse source = .ok rules ↔
      (⟨.start, [], []⟩ : Progress).Accepts (Comment.strip source.toList) rules := by
  rw [Progress.accepts_iff (Comment.strip source.toList), parse, read]
  generalize Comment.strip source.toList = cs
  cases Progress.run ⟨.start, [], []⟩ cs cs <;> simp [Except.mapError]

/-! ## Spaces -/

theorem Place.suffix_skipSpaces (place : Place) (cs : List Char) : place.skipSpaces cs <:+ cs := by
  unfold skipSpaces
  split
  · exact List.suffix_rfl
  · exact List.dropWhile_suffix Token.isSpace

/-- Spaces that end inside of a text end there whatever follows the text. -/
theorem Place.skipSpaces_append_of_ne_nil {place : Place} {cs : List Char}
    (filled : place.skipSpaces cs ≠ []) (more : List Char) :
    place.skipSpaces (cs ++ more) = place.skipSpaces cs ++ more := by
  unfold skipSpaces at filled ⊢
  split
  · rfl
  · rename_i other
    simp only at filled
    rw [List.dropWhile_append, if_neg (by simpa using filled)]

/-! ## Moves -/

/-- The name of the property whose declaration has begun. -/
def Place.property? : Place → Option (List Char)
  | .property name | .colon name => some name
  | _ => none

namespace Progress

/-- All that a token can do: begin something, open a block, end an at-rule or a declaration, or
close a block. -/
inductive Moves (progress : Progress) : Token → Progress → Prop where
  | goto {token : Token} {place : Place} (unfinished : place ≠ .start ∧ place ≠ .ruleEnd)
      (spelled : ∀ text, place = .prelude text → token = .prelude text)
      (named : ∀ name, place.property? = some name →
        token = .property name ∨ progress.place.property? = some name) :
      Moves progress token (progress.goto place)
  | style {text : List Char} (named : progress.place = .prelude text) :
      Moves progress .openBrace (progress.enter (.style (selectorsOf text) []))
  | media (text : List Char) :
      Moves progress .openBrace (progress.enter (.media (preludeOf text) []))
  | atRule (name prelude : String) :
      Moves progress .openBrace (progress.enter (.atRule name prelude))
  | statement (name prelude : String) :
      Moves progress .semicolon (progress.addRule (.atRule name prelude))
  | declaration (token : Token) {name : List Char}
      (named : progress.place.property? = some name) (value : List Char) :
      Moves progress token (progress.addDeclaration (declarationOf name value))
  | close {next : Progress} (closed : progress.close? = some next) :
      Moves progress .closeBrace next

theorem moves_of_begin? {progress next : Progress} {token : Token}
    (begun : progress.begin? token = some next) : progress.Moves token next := by
  cases token
  case closeBrace => exact .close begun
  case property name =>
    rw [begin?, Option.ite_none_right_eq_some] at begun
    cases begun.2
    exact .goto (by simp) (by simp) (by simp [Place.property?])
  case semicolon =>
    rw [begin?, Option.ite_none_left_eq_some] at begun
    cases begun.2
    exact .goto (by simp) (by simp) (by simp [Place.property?])
  case mediaKeyword | atKeyword | prelude =>
    cases begun
    exact .goto (by simp) (by simp) (by simp [Place.property?])
  all_goals cases begun

theorem moves_of_advance? {progress next : Progress} {token : Token}
    (advanced : progress.advance? token = some next) : progress.Moves token next := by
  unfold advance? at advanced
  split at advanced
  case h_1 | h_2 | h_3 => exact moves_of_begin? advanced
  case h_4 named =>
    cases advanced
    exact .goto (by simp) (by simp) (by simp [Place.property?, named])
  case h_7 | h_9 =>
    cases advanced
    exact .goto (by simp) (by simp) (by simp [Place.property?])
  case h_5 named =>
    cases advanced
    exact .declaration _ (congrArg Place.property? named) _
  case h_6 named =>
    cases advanced
    exact .style named
  case h_8 =>
    cases advanced
    exact .media _
  case h_10 | h_12 =>
    cases advanced
    exact .atRule _ _
  case h_11 | h_13 =>
    cases advanced
    exact .statement _ _
  case h_14 => cases advanced

/-! ## Open blocks -/

theorem scopes_addRule (progress : Progress) (rule : Rule) :
    (progress.addRule rule).scopes = [] ↔ progress.scopes = [] := by
  unfold addRule
  split <;> simp_all [goto]

theorem scopes_addDeclaration (progress : Progress) (declaration : Declaration) :
    (progress.addDeclaration declaration).scopes = [] ↔ progress.scopes = [] := by
  unfold addDeclaration
  split <;> simp_all [goto]

theorem place_addDeclaration (progress : Progress) (declaration : Declaration) :
    (progress.addDeclaration declaration).place = .body := by
  unfold addDeclaration
  split <;> rfl

/-- A block stays open until a brace closes it. -/
theorem Moves.scopes_ne_nil {progress next : Progress} {token : Token}
    (moved : progress.Moves token next) (opened : progress.scopes ≠ []) :
    next.scopes ≠ [] ∨ token = .closeBrace := by
  cases moved with
  | goto => exact .inl opened
  | style | media | atRule => exact .inl (List.cons_ne_nil _ _)
  | statement name prelude => exact .inl (mt (scopes_addRule progress _).mp opened)
  | declaration =>
      exact .inl (mt (scopes_addDeclaration progress _).mp opened)
  | close => exact .inr rfl

/-- A text may end after a closing brace or a semicolon only. -/
theorem Moves.finishes {progress next : Progress} {token : Token}
    (moved : progress.Moves token next) {rules : Stylesheet}
    (complete : next.finish? = some rules) : token = .closeBrace ∨ token = .semicolon := by
  cases moved with
  | goto unfinished =>
      simp only [finish?, Progress.goto] at complete
      split at complete <;> simp_all
  | style | media | atRule => simp [finish?, enter] at complete
  | statement => exact .inr rfl
  | declaration => simp [finish?, place_addDeclaration] at complete
  | close => exact .inl rfl

/-- Where a text may end, no block is open and nothing has begun. -/
theorem eq_of_finish? {progress : Progress} {rules : Stylesheet}
    (complete : progress.finish? = some rules) :
    (progress.place = .start ∨ progress.place = .ruleEnd) ∧ progress.scopes = [] ∧
      progress.rules.reverse = rules := by
  unfold finish? at complete
  split at complete <;> simp_all

/-! ## Marks in accepted texts -/

open Token (isMark isBrace)

/-- A token is followed by a mark, or is one. -/
theorem any_isMark_of_step {progress next : Progress} {kinds : List Token.Kind}
    {cs rest : List Char} {token : Token} (taken : Token.takeFirst? kinds cs = some (token, rest))
    (advanced : progress.advance? token = some next)
    (later : (∃ rules, next.finish? = some rules) ∨ rest.any isMark = true) :
    cs.any isMark = true := by
  rcases later with ⟨rules, complete⟩ | marked
  · rcases (moves_of_advance? advanced).finishes complete with rfl | rfl
    · rw [Token.eq_cons_of_takeFirst? .closeBrace rfl taken]
      rfl
    · rw [Token.eq_cons_of_takeFirst? .semicolon rfl taken]
      rfl
  · exact Lists.any_of_suffix (Token.suffix_of_takeFirst? taken) marked

/-- A text that is accepted has a mark, or may end at once. -/
theorem Accepts.finishes_or_any_isMark {progress : Progress} {cs : List Char} {rules : Stylesheet}
    (accepted : progress.Accepts cs rules) :
    (∃ rules, progress.finish? = some rules) ∨ cs.any isMark = true := by
  induction accepted with
  | finish blank complete => exact .inl ⟨_, complete⟩
  | step taken advanced others ih =>
      exact .inr (Lists.any_of_suffix (Place.suffix_skipSpaces _ _)
        (any_isMark_of_step taken advanced ih))

/-- A block that is open is closed in a text that is accepted. -/
theorem Accepts.any_isBrace {progress : Progress} {cs : List Char} {rules : Stylesheet}
    (accepted : progress.Accepts cs rules) (opened : progress.scopes ≠ []) :
    cs.any isBrace = true := by
  induction accepted with
  | finish blank complete => exact absurd (eq_of_finish? complete).2.1 opened
  | step taken advanced others ih =>
      apply Lists.any_of_suffix (Place.suffix_skipSpaces _ _)
      rcases (moves_of_advance? advanced).scopes_ne_nil opened with inside | rfl
      · exact Lists.any_of_suffix (Token.suffix_of_takeFirst? taken) (ih inside)
      · rw [Token.eq_cons_of_takeFirst? .closeBrace rfl taken]
        rfl

/-- Between the contents of a block, some block is open. -/
theorem Accepts.scopes_ne_nil_of_body {progress : Progress} {cs : List Char} {rules : Stylesheet}
    (accepted : progress.Accepts cs rules) (place : progress.place = .body) :
    progress.scopes ≠ [] := by
  intro outside
  cases accepted with
  | finish blank complete => simp [finish?, place] at complete
  | step taken => simp [place, Place.kinds, outside, Token.takeFirst?] at taken

/-- A value stands in a block, which is closed behind it. -/
theorem Accepts.any_isBrace_of_colon {progress : Progress} {cs name : List Char}
    {rules : Stylesheet} (accepted : progress.Accepts cs rules)
    (place : progress.place = .colon name) : cs.any isBrace = true := by
  apply accepted.any_isBrace
  cases accepted with
  | finish blank complete => simp [finish?, place] at complete
  | step taken advanced others =>
      simp only [advance?, place] at advanced
      split at advanced
      case h_5 =>
        cases advanced
        have inside := others.scopes_ne_nil_of_body (place_addDeclaration _ _)
        exact mt (scopes_addDeclaration _ _).mpr inside
      all_goals simp_all

end Progress

end StyleObjects.Stylesheet
