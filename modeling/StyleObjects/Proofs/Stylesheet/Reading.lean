import StyleObjects.Proofs.Stylesheet.Canonical

/-!
# Reading token by token

Reading goes from a progress and a text to another progress and the rest of the text.  Each lemma
reads one token, or the few tokens of a declaration, of a block's end or of an at-rule's start; what
reading does with a longer text is put together from them.
-/

namespace StyleObjects.Stylesheet

open Text

namespace Progress

/-- Reading goes on from one progress and text as it does from another. -/
def Reads (progress : Progress) (cs : List Char) (next : Progress) (rest : List Char) : Prop :=
  ∀ last, ∃ token, progress.run last cs = next.run token rest

theorem Reads.refl (progress : Progress) (cs : List Char) : Reads progress cs progress cs :=
  fun last => ⟨last, rfl⟩

theorem Reads.trans {first second third : Progress} {cs ds es : List Char}
    (left : Reads first cs second ds) (right : Reads second ds third es) :
    Reads first cs third es := by
  intro last
  rcases left last with ⟨token, same⟩
  rcases right token with ⟨other, equal⟩
  exact ⟨other, same.trans equal⟩

/-- A token that is taken and may stand here is read. -/
theorem Reads.step {progress next : Progress} {text cs rest : List Char} {token : Token}
    (skipped : progress.place.skipSpaces text = cs)
    (taken : Token.takeFirst? (progress.place.kinds progress.scopes) cs = some (token, rest))
    (advanced : progress.advance? token = some next) : Reads progress text next rest := by
  intro last
  subst skipped
  have shorter := Token.length_of_takeFirst? taken
  have filled : (progress.place.skipSpaces text).isEmpty = false := by
    rw [List.isEmpty_eq_false_iff, ← List.length_pos_iff]
    omega
  refine ⟨progress.place.skipSpaces text, ?_⟩
  rw [run]
  simp only [filled, Bool.false_eq_true, ↓reduceIte]
  split
  · rename_i found
    rw [taken] at found
    cases found
  · rename_i found
    rw [taken] at found
    cases found
    rw [advanced]

end Progress

theorem Place.skipSpaces_append {place : Place} (spaced : ∀ name, place ≠ .colon name)
    (gap : Gap) {cs : List Char} (visible : cs.head?.any Token.isSpace = false) :
    place.skipSpaces (gap.1 ++ cs) = cs := by
  unfold skipSpaces
  split
  · exact absurd rfl (spaced _)
  · exact Lists.dropWhile_append_of_stop gap.2 visible

/-- The place after the name and the prelude of an at-rule. -/
def Place.IsAfterAtRule (name prelude : String) : Place → Prop
  | .atKeyword read => read = name.toList ∧ prelude = ""
  | .atPrelude read text => read = name.toList ∧ preludeOf text = prelude
  | _ => False

namespace Progress

/-- A brace or a semicolon is read wherever it may stand. -/
theorem Reads.mark {progress next : Progress} (kind : Token.Kind) {mark : Char} {token : Token}
    (marked : Token.markOf? kind = some (mark, token))
    (spaced : ∀ name, progress.place ≠ .colon name)
    (member : kind ∈ progress.place.kinds progress.scopes)
    (advanced : progress.advance? token = some next) (gap : Gap) (rest : List Char) :
    Reads progress (gap.1 ++ mark :: rest) next rest := by
  have visible : (mark :: rest).head?.any Token.isSpace = false := by
    cases kind <;>
      simp only [Token.markOf?, Option.some.injEq, Prod.mk.injEq, reduceCtorEq] at marked
    all_goals
      rcases marked with ⟨rfl, -⟩
      rfl
  exact Reads.step (Place.skipSpaces_append spaced gap visible)
    (Token.takeFirst?_mark marked member rest) advanced

/-! ## The end of a block -/

/-- Between the contents of an open block. -/
def IsInside (progress : Progress) : Prop :=
  (progress.place = .body ∨ progress.place = .ruleEnd) ∧ progress.scopes ≠ []

namespace IsInside

theorem spaced {progress : Progress} (inside : progress.IsInside) (name : List Char) :
    progress.place ≠ .colon name := by
  rcases inside.1 with place | place <;> simp [place]

theorem kinds {progress : Progress} (inside : progress.IsInside) :
    .closeBrace ∈ progress.place.kinds progress.scopes ∧
      .semicolon ∈ progress.place.kinds progress.scopes := by
  rcases inside with ⟨place | place, filled⟩
  · rcases List.exists_cons_of_ne_nil filled with ⟨scope, outer, scopes⟩
    rw [place, scopes]
    cases scope <;> simp [Place.kinds, Scope.kinds, atRuleKinds]
  · simp [place, Place.kinds, atRuleKinds]

theorem advance? {progress : Progress} (inside : progress.IsInside) (token : Token) :
    progress.advance? token = progress.begin? token := by
  rcases inside.1 with place | place <;> simp [Progress.advance?, place]

end IsInside

theorem Reads.closeBrace {progress next : Progress} (inside : progress.IsInside)
    (closed : progress.close? = some next) (gap : Gap) (rest : List Char) :
    Reads progress (gap.1 ++ '\x7d' :: rest) next rest :=
  Reads.mark .closeBrace rfl inside.spaced inside.kinds.1
    (by rw [inside.advance?]; exact closed) gap rest

theorem Reads.semicolon {progress : Progress} (inside : progress.IsInside) (gap : Gap)
    (rest : List Char) : Reads progress (gap.1 ++ ';' :: rest) (progress.goto .body) rest := by
  have filled : progress.scopes.isEmpty = false := by simpa using inside.2
  exact Reads.mark .semicolon rfl inside.spaced inside.kinds.2
    (by simp [inside.advance?, begin?, filled]) gap rest

/-! ## Declarations -/

/-- A declaration may begin. -/
def AwaitsDeclaration (progress : Progress) : Prop :=
  (progress.place = .body ∨ progress.place = .ruleEnd) ∧ progress.allowsDeclaration = true

namespace AwaitsDeclaration

theorem isInside {progress : Progress} (awaits : progress.AwaitsDeclaration) :
    progress.IsInside := by
  refine ⟨awaits.1, ?_⟩
  intro none
  simp [AwaitsDeclaration, allowsDeclaration, none] at awaits

theorem takeFirst? {progress : Progress} (awaits : progress.AwaitsDeclaration)
    {cs name rest : List Char} (property : Token.takeProperty? cs = some (name, rest))
    (sign : cs.head? ≠ some '@') :
    Token.takeFirst? (progress.place.kinds progress.scopes) cs = some (.property name, rest) := by
  have taken : Token.Kind.property.take? cs = some (.property name, rest) := by
    simp [Token.Kind.take?, property]
  have keyword : Token.Kind.mediaKeyword.take? cs = none := by
    simp [Token.Kind.take?, Token.takeMediaKeyword?_eq_none sign]
  rcases awaits with ⟨place | place, allowed⟩
  · unfold allowsDeclaration at allowed
    split at allowed
    · rename_i scopes
      rw [place, scopes]
      exact Token.takeFirst?_cons taken
    · rename_i scopes
      rw [place, scopes]
      exact (Token.takeFirst?_cons_of_none keyword).trans (Token.takeFirst?_cons taken)
    · cases allowed
  · rw [place]
    exact (Token.takeFirst?_cons_of_none keyword).trans (Token.takeFirst?_cons taken)

end AwaitsDeclaration

/-- A canonical property is in lower case already. -/
theorem declarationOf_of_isPropertyName {name : List Char} (named : isPropertyName name = true)
    (text : List Char) :
    declarationOf name text = ⟨String.ofList name, String.ofList (trim text)⟩ := by
  have same := lower_of_isLowerNameChar (all_isLowerNameChar_of_isPropertyName named)
  rw [declarationOf, same, ite_self]

theorem declarationOf_surrounded {declaration : Declaration}
    (canonical : isCanonicalDeclaration declaration = true) (before after : Gap) :
    declarationOf declaration.property.toList
      (before.1 ++ declaration.value.toList ++ after.1) = declaration := by
  simp only [isCanonicalDeclaration, isValue, Bool.and_eq_true] at canonical
  rcases canonical with ⟨named, ⟨first, last⟩, -⟩
  rw [declarationOf_of_isPropertyName named,
    trim_surrounded before.all_isBlank first last after.all_isBlank, String.ofList_toList,
    String.ofList_toList]

/-- The name of a property is read together with its colon if what follows can be a value. -/
theorem Reads.propertyColon {progress : Progress} (awaits : progress.AwaitsDeclaration) (gap : Gap)
    {name text : List Char} (named : isPropertyName name = true)
    (reaches : Token.reachesEnd text = true) :
    Reads progress (gap.1 ++ (name ++ ':' :: text)) (progress.goto (.colon name)) text := by
  rcases head_of_isPropertyName named with ⟨c, word, start, lower⟩
  rcases isNameChar_of_isLowerNameChar lower with ⟨-, visible, sign, -⟩
  have property : Reads progress (gap.1 ++ (name ++ ':' :: text)) (progress.goto (.property name))
      (':' :: text) := by
    refine Reads.step (Place.skipSpaces_append awaits.isInside.spaced _ ?_)
      (awaits.takeFirst? (takeProperty?_of_isPropertyName named reaches) ?_) ?_
    · simp [start, visible]
    · simp [start, sign]
    · simp [awaits.isInside.advance?, begin?, awaits.2]
  exact property.trans (Reads.step rfl rfl rfl)

/-- A canonical declaration is read up to the mark that ends it. -/
theorem Reads.declaration {progress : Progress} (awaits : progress.AwaitsDeclaration)
    (layout : Layout) (depth : Nat) {declaration : Declaration}
    (canonical : isCanonicalDeclaration declaration = true) (after : Gap) {mark : Char}
    (isEnd : Token.isMark mark = true) {rest : List Char}
    (ends : Token.reachesEnd (mark :: rest) = true) :
    Reads progress (layout.declaration depth declaration ++ (after.1 ++ mark :: rest))
      (progress.addDeclaration declaration) (mark :: rest) := by
  have parts := canonical
  simp only [isCanonicalDeclaration, isValue, Bool.and_eq_true] at parts
  rcases parts with ⟨named, ⟨first, -⟩, marks⟩
  let text := layout.afterColon.1 ++ declaration.value.toList ++ after.1
  have plain : text.all Token.isPlain = true := by
    have value : declaration.value.toList.all Token.isPlain = true :=
      List.all_eq_true.2 fun c member =>
        isPlain_of_not_isValueMark (by simpa using List.all_eq_true.1 marks c member)
    simp only [text, List.all_append, layout.afterColon.all_isPlain, value, after.all_isPlain,
      Bool.and_true]
  have filled : text ≠ [] := by
    intro empty
    simp only [text, List.append_eq_nil_iff] at empty
    simp [empty.1.2] at first
  have reaches : Token.reachesEnd (text ++ mark :: rest) = true := by
    rw [Token.reachesEnd_append_of_plain plain, ends]
  have property := Reads.propertyColon awaits (layout.beforeItem depth) named reaches
  have value : Reads (progress.goto (.colon declaration.property.toList)) (text ++ mark :: rest)
      (progress.addDeclaration declaration) (mark :: rest) := by
    refine Reads.step rfl
      (Token.takeFirst?_cons (Token.take?_value plain filled isEnd rest)) ?_
    simp only [Progress.advance?, goto]
    rw [declarationOf_surrounded canonical]
    rfl
  have whole := property.trans value
  simpa only [Layout.declaration, text, List.append_assoc, List.cons_append] using whole

theorem isInside_addDeclaration {progress : Progress} (awaits : progress.AwaitsDeclaration)
    (declaration : Declaration) : (progress.addDeclaration declaration).IsInside := by
  have filled := awaits.isInside.2
  unfold addDeclaration
  split
  · exact ⟨.inl rfl, by simp⟩
  · exact ⟨.inl rfl, filled⟩

theorem goto_body_addDeclaration (progress : Progress) (declaration : Declaration) :
    (progress.addDeclaration declaration).goto .body = progress.addDeclaration declaration := by
  unfold addDeclaration
  split <;> rfl

/-- A canonical declaration is read together with its semicolon. -/
theorem Reads.declarationSemicolon {progress : Progress} (awaits : progress.AwaitsDeclaration)
    (layout : Layout) (depth : Nat) {declaration : Declaration}
    (canonical : isCanonicalDeclaration declaration = true) (rest : List Char) :
    Reads progress (layout.declaration depth declaration ++ (layout.semicolon ++ rest))
      (progress.addDeclaration declaration) rest := by
  have text : Reads progress (layout.declaration depth declaration ++ (layout.semicolon ++ rest))
      (progress.addDeclaration declaration) (';' :: rest) := by
    rw [Layout.semicolon, List.append_assoc]
    exact Reads.declaration awaits layout depth canonical layout.beforeSemicolon rfl
      (Token.reachesEnd_semicolon rest)
  have mark := Reads.semicolon (isInside_addDeclaration awaits declaration) ⟨[], rfl⟩ rest
  rw [goto_body_addDeclaration] at mark
  exact text.trans mark

/-! ## The starts of rules -/

/-- A rule may begin. -/
def AwaitsRule (progress : Progress) : Prop :=
  (progress.place = .start ∨ progress.place = .ruleEnd ∨ progress.place = .body) ∧
    .prelude ∈ progress.place.kinds progress.scopes

namespace AwaitsRule

theorem spaced {progress : Progress} (awaits : progress.AwaitsRule) (name : List Char) :
    progress.place ≠ .colon name := by
  rcases awaits.1 with place | place | place <;> simp [place]

theorem advance? {progress : Progress} (awaits : progress.AwaitsRule) (token : Token) :
    progress.advance? token = progress.begin? token := by
  rcases awaits.1 with place | place | place <;> simp [Progress.advance?, place]

/-- The keyword `@media` is tried first, and nothing but rules, declarations and ends is. -/
theorem kinds {progress : Progress} (awaits : progress.AwaitsRule) :
    ∃ kinds, progress.place.kinds progress.scopes = .mediaKeyword :: kinds ∧
      .prelude ∈ kinds ∧ .atKeyword ∈ kinds ∧
      ∀ kind ∈ kinds, kind ∈ [.property, .atKeyword, .prelude, .closeBrace, .semicolon] := by
  rcases awaits with ⟨place | place | place, member⟩
  · exact ⟨_, by rw [place]; rfl, by decide, by decide, by decide⟩
  · exact ⟨_, by rw [place]; rfl, by decide, by decide, by decide⟩
  · rw [place] at member ⊢
    cases scopes : progress.scopes with
    | nil => simp [Place.kinds, scopes] at member
    | cons scope outer =>
        rw [scopes] at member
        cases scope with
        | style selectors declarations => simp [Place.kinds, Scope.kinds] at member
        | media query rules => exact ⟨_, rfl, by decide, by decide, by decide⟩
        | atRule name prelude => exact ⟨_, rfl, by decide, by decide, by decide⟩

theorem takeFirst?_prelude {progress : Progress} (awaits : progress.AwaitsRule) {c : Char}
    {text : List Char} (plain : (c :: text).all Token.isPlain = true) (visible : isBlank c = false)
    (sign : c ≠ '@') (rest : List Char) :
    Token.takeFirst? (progress.place.kinds progress.scopes) (c :: text ++ '\x7b' :: rest) =
      some (.prelude (c :: text), '\x7b' :: rest) := by
  have unmarked := Token.all_not_isMark_of_plain plain
  have mark : Token.isMark c = false := by simpa using List.all_eq_true.1 unmarked c (by simp)
  simp only [Token.isMark, Bool.or_eq_false_iff, beq_eq_false_iff_ne] at mark
  have meets : Token.MeetsBrace (c :: text ++ '\x7b' :: rest) := ⟨_, rest, plain, rfl⟩
  have taken : Token.takePrelude? (c :: text ++ '\x7b' :: rest) =
      some (c :: text, '\x7b' :: rest) :=
    Token.takePrelude?_append sign visible unmarked (by decide) rest
  have other : (c :: text ++ '\x7b' :: rest).head? ≠ some '@' := by simpa using sign
  rcases awaits.kinds with ⟨kinds, whole, member, -, within⟩
  rw [whole, Token.takeFirst?_cons_of_none
    (by rw [Token.Kind.take?, Token.takeMediaKeyword?_eq_none other]; rfl)]
  apply Token.takeFirst?_of_only (by rw [Token.Kind.take?, taken]; rfl) member
  intro kind tried apart
  have possible := within kind tried
  cases kind
  case prelude => exact absurd rfl apart
  case property => rw [Token.Kind.take?, meets.takeProperty?]; rfl
  case atKeyword => rw [Token.Kind.take?, Token.takeAtKeyword?_eq_none other]; rfl
  case closeBrace | semicolon => simp [Token.Kind.take?, Token.takeMark?, mark]
  all_goals simp at possible

theorem takeFirst?_mediaKeyword {progress : Progress} (awaits : progress.AwaitsRule)
    {rest : List Char} (boundary : rest.head?.any isWord = false) :
    Token.takeFirst? (progress.place.kinds progress.scopes)
      ('@' :: 'm' :: 'e' :: 'd' :: 'i' :: 'a' :: rest) = some (.mediaKeyword, rest) := by
  rcases awaits.kinds with ⟨kinds, whole, -⟩
  rw [whole]
  apply Token.takeFirst?_cons
  rw [Token.Kind.take?, Token.takeMediaKeyword?_append boundary]
  rfl

theorem takeFirst?_atKeyword {progress : Progress} (awaits : progress.AwaitsRule)
    {name rest : List Char} (named : isAtRuleName name = true)
    (stop : rest.head?.any Token.isNameChar = false) :
    Token.takeFirst? (progress.place.kinds progress.scopes) ('@' :: (name ++ rest)) =
      some (.atKeyword name, rest) := by
  have media := takeMediaKeyword?_of_isAtRuleName named stop
  have taken := takeAtKeyword?_of_isAtRuleName named stop
  rcases awaits.kinds with ⟨kinds, whole, -, member, within⟩
  rw [whole, Token.takeFirst?_cons_of_none (by rw [Token.Kind.take?, media]; rfl)]
  apply Token.takeFirst?_of_only (by rw [Token.Kind.take?, taken]; rfl) member
  intro kind tried apart
  have possible := within kind tried
  cases kind
  case atKeyword => exact absurd rfl apart
  case property => simp [Token.Kind.take?, Token.takeProperty?_eq_none]
  case prelude => simp [Token.Kind.take?, Token.takePrelude?]
  case closeBrace | semicolon => simp [Token.Kind.take?, Token.takeMark?]
  all_goals simp at possible

end AwaitsRule

/-- The selectors of a style rule are read up to the brace, and open a block. -/
theorem Reads.selectors {progress : Progress} (awaits : progress.AwaitsRule) (layout : Layout)
    {selectors : List String} (filled : selectors ≠ [])
    (canonical : selectors.all (fun selector => isSelector selector.toList) = true)
    (before after : Gap) (rest : List Char) :
    Reads progress
      (before.1 ++ (layout.selectors selectors ++ (after.1 ++ '\x7b' :: rest)))
      (progress.enter (.style selectors [])) rest := by
  rcases head_of_selectors layout filled canonical with ⟨c, word, start, visible, sign⟩
  have names := selectorsOf_selectors layout filled canonical after
  have plain : (c :: (word ++ after.1)).all Token.isPlain = true := by
    rw [← List.cons_append, ← start, List.all_append, all_isPlain_selectors layout canonical,
      after.all_isPlain]
    rfl
  have text : Reads progress
      (before.1 ++ (layout.selectors selectors ++ (after.1 ++ '\x7b' :: rest)))
      (progress.goto (.prelude (layout.selectors selectors ++ after.1))) ('\x7b' :: rest) := by
    rw [start, ← List.append_assoc (c :: word), List.cons_append]
    exact Reads.step (Place.skipSpaces_append awaits.spaced before
        (by simpa using isSpace_eq_false visible))
      (awaits.takeFirst?_prelude plain visible sign rest) (by rw [awaits.advance?]; rfl)
  have brace : Reads (progress.goto (.prelude (layout.selectors selectors ++ after.1)))
      ('\x7b' :: rest) (progress.enter (.style selectors [])) rest := by
    refine Reads.mark .openBrace rfl ?_ ?_ ?_ ⟨[], rfl⟩ rest
    · simp [goto]
    · simp [goto, Place.kinds]
    · simp only [Progress.advance?, goto, names]
      rfl
  exact text.trans brace

/-- The query of a media rule is read up to the brace, and opens a block. -/
theorem Reads.mediaQuery {progress : Progress} (awaits : progress.AwaitsRule) {query : String}
    (filled : query.isEmpty = false) (canonical : isPrelude query.toList = true)
    (before after : Gap) (rest : List Char) :
    Reads progress (before.1 ++ (Layout.atRule "media" query ++ (after.1 ++ '\x7b' :: rest)))
      (progress.enter (.media query [])) rest := by
  have text : query.toList ≠ [] := by simpa using filled
  rcases prelude_append_gap canonical text after with ⟨unmarked, visible, same⟩
  have keyword : Reads progress
      (before.1 ++ (Layout.atRule "media" query ++ (after.1 ++ '\x7b' :: rest)))
      (progress.goto .mediaKeyword) (' ' :: (query.toList ++ after.1 ++ '\x7b' :: rest)) := by
    have written : Layout.atRule "media" query ++ (after.1 ++ '\x7b' :: rest) =
        '@' :: 'm' :: 'e' :: 'd' :: 'i' :: 'a' ::
          ' ' :: (query.toList ++ after.1 ++ '\x7b' :: rest) := by
      simp [Layout.atRule, filled]
    rw [written]
    exact Reads.step (Place.skipSpaces_append awaits.spaced before rfl)
      (awaits.takeFirst?_mediaKeyword rfl) (by rw [awaits.advance?]; rfl)
  have prelude : Reads (progress.goto .mediaKeyword)
      (' ' :: (query.toList ++ after.1 ++ '\x7b' :: rest))
      (progress.goto (.mediaQuery (query.toList ++ after.1))) ('\x7b' :: rest) :=
    Reads.step (Place.skipSpaces_append (by simp [goto]) ⟨[' '], rfl⟩ (visible _))
      (Token.takeFirst?_atPrelude (by simp [goto, Place.kinds]) (by simp [goto, Place.kinds])
        (by simp [text]) unmarked (by decide) rest) rfl
  have brace : Reads (progress.goto (.mediaQuery (query.toList ++ after.1))) ('\x7b' :: rest)
      (progress.enter (.media query [])) rest := by
    refine Reads.mark .openBrace rfl ?_ ?_ ?_ ⟨[], rfl⟩ rest
    · simp [goto]
    · simp [goto, Place.kinds]
    · simp only [Progress.advance?, goto, preludeOf, same, String.ofList_toList]
      rfl
  exact keyword.trans (prelude.trans brace)

/-- The name and the prelude of an at-rule are read up to the mark that ends them. -/
theorem Reads.atRule {progress : Progress} (awaits : progress.AwaitsRule) {name prelude : String}
    (named : isAtRuleName name.toList = true) (canonical : isPrelude prelude.toList = true)
    (before after : Gap) {mark : Char} (isEnd : Token.isMark mark = true) (rest : List Char) :
    ∃ (place : Place) (gap : Gap), place.IsAfterAtRule name prelude ∧
      Reads progress (before.1 ++ (Layout.atRule name prelude ++ (after.1 ++ mark :: rest)))
        (progress.goto place) (gap.1 ++ mark :: rest) := by
  have keyword : ∀ cs : List Char, cs.head?.any Token.isNameChar = false →
      Reads progress (before.1 ++ ('@' :: (name.toList ++ cs)))
        (progress.goto (.atKeyword name.toList)) cs := by
    intro cs stop
    exact Reads.step (Place.skipSpaces_append awaits.spaced before rfl)
      (awaits.takeFirst?_atKeyword named stop) (by rw [awaits.advance?]; rfl)
  by_cases empty : prelude.isEmpty = true
  · refine ⟨.atKeyword name.toList, after, ⟨rfl, by simpa using empty⟩, ?_⟩
    simpa [Layout.atRule, empty] using keyword _ (after.stops_name isEnd rest)
  · have text : prelude.toList ≠ [] := by simpa using empty
    rcases prelude_append_gap canonical text after with ⟨unmarked, visible, same⟩
    refine ⟨.atPrelude name.toList (prelude.toList ++ after.1), ⟨[], rfl⟩, ⟨rfl, ?_⟩, ?_⟩
    · rw [preludeOf, same, String.ofList_toList]
    · have spaced := keyword (' ' :: (prelude.toList ++ after.1 ++ mark :: rest)) rfl
      have taken : Reads (progress.goto (.atKeyword name.toList))
          (' ' :: (prelude.toList ++ after.1 ++ mark :: rest))
          (progress.goto (.atPrelude name.toList (prelude.toList ++ after.1))) (mark :: rest) :=
        Reads.step (Place.skipSpaces_append (by simp [goto]) ⟨[' '], rfl⟩ (visible _))
          (Token.takeFirst?_atPrelude (by simp [goto, Place.kinds]) (by simp [goto, Place.kinds])
            (by simp [text]) unmarked isEnd rest) rfl
      simpa [Layout.atRule, empty] using spaced.trans taken

end Progress

end StyleObjects.Stylesheet
