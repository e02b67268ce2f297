import StyleObjects.Proofs.Stylesheet.Accepted
import StyleObjects.Proofs.Stylesheet.Settled
import StyleObjects.Proofs.Stylesheet.Uncommented

/-!
# Texts one after the other

Reading is compositional: the rules of two texts that stand one after the other are those of the
first and then those of the second.  No token of the first text depends on the second one, and at
the end of a rule the second text is read as it is at the start, although a property is then tried
before a selector.  Strings and comments could join the two texts, and neither text has any.
-/

namespace StyleObjects

theorem Token.takeFirst?_append (kinds others : List Kind) (cs : List Char) :
    takeFirst? (kinds ++ others) cs = (takeFirst? kinds cs).or (takeFirst? others cs) :=
  List.findSome?_append

namespace Stylesheet

open Token (isMark isUnquoted)

/-! ## The first text -/

namespace Progress

/-- What is tried at a place is settled by the text there, if the text is accepted. -/
theorem settles_of_step {progress next : Progress} {cs rest : List Char} {token : Token}
    {rules : Stylesheet} (unquoted : cs.all isUnquoted = true)
    (taken : Token.takeFirst? (progress.place.kinds progress.scopes)
      (progress.place.skipSpaces cs) = some (token, rest))
    (advanced : progress.advance? token = some next) (others : next.Accepts rest rules) :
    Token.Settles (Token.takeFirst? (progress.place.kinds progress.scopes))
      (progress.place.skipSpaces cs) := by
  have suffix := progress.place.suffix_skipSpaces cs
  have marked := any_isMark_of_step taken advanced others.finishes_or_any_isMark
  refine Token.settles_takeFirst? fun kind tried => ?_
  refine Token.settles_take? (Lists.all_of_suffix suffix unquoted) marked ?_
  rintro rfl
  -- Values are tried after a colon only, where no space is dropped.
  cases place : progress.place with
  | colon name =>
      have accepted : progress.Accepts cs rules := .step taken advanced others
      exact accepted.any_isBrace_of_colon place
  | body =>
      rw [place] at tried
      cases scopes : progress.scopes with
      | nil => simp [Place.kinds, scopes] at tried
      | cons scope outer =>
          cases scope <;> simp [Place.kinds, Scope.kinds, atRuleKinds, scopes] at tried
  | start | ruleEnd | property | prelude | mediaKeyword | mediaQuery | atKeyword | atPrelude =>
      rw [place] at tried
      simp [Place.kinds, atRuleKinds] at tried

/-- Where a text may end, there is nothing but spaces left. -/
theorem all_isSpace_of_finish? {progress : Progress} {cs : List Char} {rules : Stylesheet}
    (complete : progress.finish? = some rules) (blank : progress.place.skipSpaces cs = []) :
    cs.all Token.isSpace = true := by
  rcases (eq_of_finish? complete).1 with place | place
  all_goals
    rw [place, Place.skipSpaces, List.dropWhile_eq_nil_iff] at blank
    · simpa using blank
    · simp

/-- A text that is accepted is read in the same way whatever follows it, up to the spaces at its
end. -/
theorem Accepts.reads {progress : Progress} {cs : List Char} {rules : Stylesheet}
    (accepted : progress.Accepts cs rules) (unquoted : cs.all isUnquoted = true) :
    ∃ (final : Progress) (gap : Gap), final.finish? = some rules ∧
      ∀ more, Reads progress (cs ++ more) final (gap.1 ++ more) := by
  induction accepted with
  | finish blank complete =>
      rename_i progress cs rules
      have spaces := all_isSpace_of_finish? complete blank
      exact ⟨progress, ⟨cs, spaces⟩, complete, fun more => Reads.refl progress _⟩
  | step taken advanced others ih =>
      rename_i progress next cs rest token rules
      have settled := settles_of_step unquoted taken advanced others
      have filled : progress.place.skipSpaces cs ≠ [] := by
        intro empty
        have shorter := Token.length_of_takeFirst? taken
        simp [empty] at shorter
      have suffix := (Token.suffix_of_takeFirst? taken).trans
        (progress.place.suffix_skipSpaces cs)
      rcases ih (Lists.all_of_suffix suffix unquoted) with ⟨final, gap, complete, reading⟩
      refine ⟨final, gap, complete, fun more => ?_⟩
      have first := settled more
      rw [taken, Option.map_some] at first
      exact (Reads.step (Place.skipSpaces_append_of_ne_nil filled more) first advanced).trans
        (reading more)

/-! ## The second text -/

/-- The same progress after other rules. -/
def after (before : Stylesheet) (progress : Progress) : Progress :=
  { progress with rules := progress.rules ++ before.reverse }

theorem addRule_after (before : Stylesheet) (progress : Progress) (rule : Rule) :
    (progress.after before).addRule rule = (progress.addRule rule).after before := by
  rcases progress with ⟨place, scopes, rules⟩
  rcases scopes with _ | ⟨_ | _ | _, outer⟩ <;> rfl

theorem addDeclaration_after (before : Stylesheet) (progress : Progress)
    (declaration : Declaration) :
    (progress.after before).addDeclaration declaration =
      (progress.addDeclaration declaration).after before := by
  rcases progress with ⟨place, scopes, rules⟩
  rcases scopes with _ | ⟨_ | _ | _, outer⟩ <;> rfl

theorem close?_after (before : Stylesheet) (progress : Progress) :
    (progress.after before).close? = progress.close?.map (after before) := by
  rcases progress with ⟨place, scopes, rules⟩
  rcases scopes with _ | ⟨_ | _ | _, outer⟩
  · rfl
  all_goals exact congrArg some (addRule_after before ⟨place, outer, rules⟩ _)

theorem begin?_after (before : Stylesheet) (progress : Progress) (token : Token) :
    (progress.after before).begin? token = (progress.begin? token).map (after before) := by
  cases token
  case closeBrace => exact close?_after before progress
  case property name =>
    have same : (progress.after before).allowsDeclaration = progress.allowsDeclaration := rfl
    simp only [begin?, same]
    cases progress.allowsDeclaration <;> rfl
  case semicolon =>
    have same : (progress.after before).scopes.isEmpty = progress.scopes.isEmpty := rfl
    simp only [begin?, same]
    cases progress.scopes.isEmpty <;> rfl
  all_goals rfl

theorem advance?_after (before : Stylesheet) (progress : Progress) (token : Token) :
    (progress.after before).advance? token = (progress.advance? token).map (after before) := by
  rcases progress with ⟨place, scopes, rules⟩
  cases place
  case start | ruleEnd | body => exact begin?_after before _ token
  case colon name =>
    cases token
    case value text => exact congrArg some (addDeclaration_after before _ _)
    all_goals rfl
  case atKeyword | atPrelude =>
    cases token
    case semicolon => exact congrArg some (addRule_after before _ _)
    all_goals rfl
  all_goals cases token <;> rfl

/-- A text is accepted after other rules as it is alone. -/
theorem Accepts.after {progress : Progress} {cs : List Char} {rules : Stylesheet}
    (accepted : progress.Accepts cs rules) (before : Stylesheet) :
    (progress.after before).Accepts cs (before ++ rules) := by
  induction accepted with
  | finish blank complete =>
      refine .finish blank ?_
      rcases eq_of_finish? complete with ⟨place | place, scopes, rfl⟩ <;>
        simp [finish?, Progress.after, place, scopes]
  | step taken advanced others ih =>
      refine .step taken ?_ ih
      rw [advance?_after, advanced]
      rfl

end Progress

/-- A name in front of a brace that opens a block is no property. -/
theorem takeProperty?_eq_none_of_leaves {cs text rest : List Char}
    (unquoted : cs.all isUnquoted = true) (leaves : Token.Leaves cs text ('\x7b' :: rest)) :
    Token.takeProperty? cs = none := by
  rw [Option.eq_none_iff_forall_ne_some]
  rintro ⟨name, after⟩ taken
  rcases Token.exists_of_takeProperty? taken with ⟨blanks, value, named, colon, ends⟩
  have found := named.trans colon
  have same : (name ++ blanks) ++ ':' :: value = text ++ '\x7b' :: rest :=
    found.1.trans leaves.1.symm
  rcases List.append_eq_append_iff.mp same with ⟨middle, whole, behind⟩ | ⟨middle, whole, behind⟩
  · cases middle with
    | nil => simp at behind
    | cons c middle =>
        rw [List.cons_append, List.cons.injEq] at behind
        have suffix : middle <:+ text := ⟨name ++ blanks ++ [c], by simp [whole]⟩
        have plain : middle.all isUnquoted = true := by
          rw [← leaves.1, List.all_append, Bool.and_eq_true] at unquoted
          exact Lists.all_of_suffix suffix unquoted.1
        have unmarked := Lists.all_of_suffix suffix leaves.2
        have brace : isMark '\x7b' = true := by decide
        have meets := Token.reachesEnd_append_mark plain unmarked brace rest
        rw [← behind.2, ends] at meets
        simp at meets
  · cases middle with
    | nil => simp at behind
    | cons c middle =>
        rw [List.cons_append, List.cons.injEq] at behind
        have unmarked := found.2
        rw [whole, ← behind.1] at unmarked
        simp [isMark] at unmarked

namespace Progress

/-- The text of a selector list is followed by a brace. -/
theorem Accepts.leaves_openBrace {progress : Progress} {cs text : List Char} {rules : Stylesheet}
    (accepted : progress.Accepts cs rules) (place : progress.place = .prelude text) :
    ∃ rest, Token.Leaves cs (cs.takeWhile Token.isSpace) ('\x7b' :: rest) := by
  have stop : ∀ c, isMark c = true → Token.isSpace c = false :=
    fun c mark => Token.of_isMark (p := (Token.isSpace · = false)) (by decide) mark
  have spaces := Token.leaves_dropWhile stop cs
  cases accepted with
  | finish blank complete => simp [finish?, place] at complete
  | step taken advanced others =>
      rename_i next rest token
      rw [place] at taken
      simp only [Place.kinds, Place.skipSpaces] at taken
      rcases List.exists_of_findSome?_eq_some taken with ⟨kind, member, found⟩
      rw [List.mem_singleton] at member
      subst member
      rw [(Token.eq_cons_of_takeMark? found).1] at spaces
      exact ⟨rest, spaces⟩

/-- The first token of an accepted text is no property. -/
theorem Accepts.takeProperty?_eq_none {cs : List Char} {rules before : Stylesheet}
    (unquoted : cs.all isUnquoted = true)
    (accepted : (⟨.start, [], before⟩ : Progress).Accepts cs rules) :
    Token.takeProperty? (cs.dropWhile Token.isSpace) = none := by
  cases accepted with
  | finish blank complete =>
      simp only [Place.skipSpaces] at blank
      rw [blank]
      rfl
  | step taken advanced others =>
      rename_i next rest token
      have plain := Lists.all_of_suffix (Place.suffix_skipSpaces .start cs) unquoted
      simp only [Place.kinds, Place.skipSpaces] at taken plain
      generalize cs.dropWhile Token.isSpace = ds at taken plain ⊢
      by_cases sign : ds.head? = some '@'
      · rcases List.head?_eq_some_iff.mp sign with ⟨ds, rfl⟩
        exact Token.takeProperty?_eq_none (by decide) (by decide)
      · -- Without a sign, the token is a list of selectors, and a brace follows it.
        have media : Token.Kind.mediaKeyword.take? ds = none := by
          rw [Token.Kind.take?, Token.takeMediaKeyword?_eq_none sign]
          rfl
        have atRule : Token.Kind.atKeyword.take? ds = none := by
          rw [Token.Kind.take?, Token.takeAtKeyword?_eq_none sign]
          rfl
        rw [Token.takeFirst?_cons_of_none media, Token.takeFirst?_cons_of_none atRule] at taken
        rcases List.exists_of_findSome?_eq_some taken with ⟨kind, member, found⟩
        rw [List.mem_singleton] at member
        subst member
        rcases Option.map_eq_some_iff.mp found with ⟨⟨text, after⟩, spelled, same⟩
        cases same
        cases advanced
        have leaves := Token.leaves_of_takeAtPrelude?
          (Token.takeAtPrelude?_of_takePrelude? spelled)
        rcases others.leaves_openBrace rfl with ⟨behind, spaces⟩
        exact takeProperty?_eq_none_of_leaves plain (leaves.trans spaces)

/-- At the end of a rule a text is accepted that is accepted at the start. -/
theorem Accepts.restart {cs : List Char} {rules before : Stylesheet}
    (unquoted : cs.all isUnquoted = true)
    (accepted : (⟨.start, [], before⟩ : Progress).Accepts cs rules) :
    (⟨.ruleEnd, [], before⟩ : Progress).Accepts cs rules := by
  have property : Token.Kind.property.take? (cs.dropWhile Token.isSpace) = none := by
    rw [Token.Kind.take?, accepted.takeProperty?_eq_none unquoted]
    rfl
  cases accepted with
  | finish blank complete => exact .finish blank complete
  | step taken advanced others =>
      refine .step ?_ advanced others
      -- The classes of the start stand in the same order among those of the end of a rule.
      have start : Place.kinds [] .start = [.mediaKeyword] ++ [.atKeyword, .prelude] := rfl
      have ruleEnd : Place.kinds [] .ruleEnd =
          [.mediaKeyword] ++ .property :: ([.atKeyword, .prelude] ++ [.closeBrace, .semicolon]) :=
        rfl
      simp only [Place.skipSpaces] at taken ⊢
      rw [start, Token.takeFirst?_append] at taken
      rw [ruleEnd, Token.takeFirst?_append, Token.takeFirst?_cons_of_none property,
        Token.takeFirst?_append, ← Option.or_assoc, taken, Option.some_or]

/-- Spaces in front of a text are dropped outside of values. -/
theorem Accepts.gap {progress : Progress} {cs : List Char} {rules : Stylesheet}
    (accepted : progress.Accepts cs rules) (spaced : ∀ name, progress.place ≠ .colon name)
    (gap : Gap) : progress.Accepts (gap.1 ++ cs) rules := by
  have same : progress.place.skipSpaces (gap.1 ++ cs) = progress.place.skipSpaces cs := by
    unfold Place.skipSpaces
    split
    · exact absurd ‹_› (spaced _)
    · exact List.dropWhile_append_of_pos (by simpa using gap.2)
  cases accepted with
  | finish blank complete => exact .finish (same.trans blank) complete
  | step taken advanced others => exact .step (by rw [same, taken]) advanced others

/-- Where a text may end, another one is accepted. -/
theorem Accepts.continues {final : Progress} {cs : List Char} {rules others : Stylesheet}
    (unquoted : cs.all isUnquoted = true)
    (accepted : (⟨.start, [], []⟩ : Progress).Accepts cs others)
    (complete : final.finish? = some rules) : final.Accepts cs (rules ++ others) := by
  rcases final with ⟨place, scopes, before⟩
  rcases eq_of_finish? complete with ⟨ends, outside, same⟩
  dsimp only at ends outside same
  have behind : (⟨.start, [], before⟩ : Progress).Accepts cs (rules ++ others) := by
    have moved := accepted.after rules
    rwa [Progress.after, List.nil_append, ← same, List.reverse_reverse, same] at moved
  subst outside
  rcases ends with rfl | rfl
  · exact behind
  · exact behind.restart unquoted

/-- A text is accepted if and only if it is read up to a rest that is accepted. -/
theorem Reads.accepts_iff {progress next : Progress} {cs rest : List Char} {rules : Stylesheet}
    (reads : progress.Reads cs next rest) :
    progress.Accepts cs rules ↔ next.Accepts rest rules := by
  rcases reads cs with ⟨token, same⟩
  rw [Progress.accepts_iff cs, Progress.accepts_iff token, same]

end Progress

/-! ## Both texts -/

/-- A text without strings and comments. -/
def IsBare (source : String) : Prop :=
  source.toList.all isUnquoted = true ∧ ¬['/', '*'] <:+: source.toList

instance (source : String) : Decidable (IsBare source) :=
  inferInstanceAs (Decidable (_ ∧ _))

/-- No accepted text ends in a slash. -/
theorem Progress.Accepts.getLast?_ne {progress : Progress} {cs : List Char} {rules : Stylesheet}
    (accepted : progress.Accepts cs rules) : cs.getLast? ≠ some '/' := by
  have last : ∀ {rest cs : List Char}, rest <:+ cs → rest ≠ [] → cs.getLast? = rest.getLast? := by
    rintro rest cs ⟨front, rfl⟩ filled
    rw [List.getLast?_append, List.getLast?_eq_some_getLast filled, Option.some_or]
  induction accepted with
  | finish blank complete =>
      rename_i progress cs rules
      intro slash
      have spaces := all_isSpace_of_finish? complete blank
      have space := List.all_eq_true.mp spaces '/' (List.mem_of_getLast? slash)
      exact absurd space (by decide)
  | step taken advanced others ih =>
      rename_i progress next cs rest token rules
      have skipped := progress.place.suffix_skipSpaces cs
      by_cases filled : rest = []
      · -- Behind the last token there is nothing, so it is a mark.
        subst filled
        have complete : ∃ rules, next.finish? = some rules := by
          simpa using others.finishes_or_any_isMark
        rcases complete with ⟨rules, complete⟩
        rcases (moves_of_advance? advanced).finishes complete with rfl | rfl
        · rw [Token.eq_cons_of_takeFirst? .closeBrace rfl taken] at skipped
          simp [last skipped]
        · rw [Token.eq_cons_of_takeFirst? .semicolon rfl taken] at skipped
          simp [last skipped]
      · rw [last ((Token.suffix_of_takeFirst? taken).trans skipped) filled]
        exact ih

/-- The rules of two texts that stand one after the other are those of the first and then those of
the second. -/
theorem parse_append {source other : String} {rules others : Stylesheet} (bare : IsBare source)
    (otherBare : IsBare other) (parsed : parse source = .ok rules)
    (otherParsed : parse other = .ok others) : parse (source ++ other) = .ok (rules ++ others) := by
  rw [parse_ok_iff, strip_of_not_infix bare.2] at parsed
  rw [parse_ok_iff, strip_of_not_infix otherBare.2] at otherParsed
  -- No comment begins between the texts, as the first one does not end in a slash.
  have absent := Lists.not_infix_append bare.2 otherBare.2 fun slash =>
    absurd slash parsed.getLast?_ne
  rw [parse_ok_iff, String.toList_append, strip_of_not_infix absent]
  rcases parsed.reads bare.1 with ⟨final, gap, complete, reading⟩
  have begun := otherParsed.continues otherBare.1 complete
  refine (reading other.toList).accepts_iff.mpr (begun.gap (fun name place => ?_) gap)
  rcases (Progress.eq_of_finish? complete).1 with ends | ends <;> simp [ends] at place

/-- A selector with a pseudo-class is no declaration where it follows a rule that is complete. -/
theorem parse_append_media_style :
    parse ("@media all\x7ba:b\x7b\x7d\x7d@c d;" ++ "e:f, g\x7bh:i(j;)\x7d") = .ok [
      .media "all" [.style ["a:b"] []], .atRule "c" "d", .style ["e:f", "g"] [⟨"h", "i(j;)"⟩]] :=
  have first : parse "@media all\x7ba:b\x7b\x7d\x7d@c d;" = .ok [
      .media "all" [.style ["a:b"] []], .atRule "c" "d"] := by
    decide +kernel
  have second : parse "e:f, g\x7bh:i(j;)\x7d" = .ok [.style ["e:f", "g"] [⟨"h", "i(j;)"⟩]] := by
    decide +kernel
  parse_append (by decide +kernel) (by decide +kernel) first second

end Stylesheet

end StyleObjects
