import StyleObjects.Proofs.Stylesheet.Reading
import StyleObjects.Proofs.Stylesheet.Uncommented

/-!
# Reading what has been written

Reading the text of a canonical written stylesheet gives the rules that the tree stands for, in
every layout.  The proof follows the tree: a rule that is read in a block, or outside of all of
them, is added to what has been read there, and leaves the blocks around it open.
-/

namespace StyleObjects.Stylesheet

namespace Progress

/-- Add rules one after the other. -/
def addRules (progress : Progress) (rules : List Rule) : Progress :=
  rules.foldl addRule progress

theorem place_addRule (progress : Progress) (rule : Rule) :
    (progress.addRule rule).place = .ruleEnd := by
  unfold addRule
  split <;> rfl

theorem awaitsRule_of_ruleEnd {progress : Progress} (place : progress.place = .ruleEnd) :
    progress.AwaitsRule := by
  refine ⟨.inr (.inl place), ?_⟩
  simp [place, Place.kinds, atRuleKinds]

theorem awaitsRule_addRule (progress : Progress) (rule : Rule) :
    (progress.addRule rule).AwaitsRule :=
  awaitsRule_of_ruleEnd (place_addRule progress rule)

theorem awaitsRule_enter_media (progress : Progress) (query : String) (rules : List Rule) :
    (progress.enter (.media query rules)).AwaitsRule :=
  ⟨.inr (.inr rfl), by simp [enter, Place.kinds, Scope.kinds]⟩

/-! ## Style rules -/

/-- Rules are added to what is open and what is complete, from whatever place. -/
theorem addRule_congr {left right : Progress} (scopes : left.scopes = right.scopes)
    (rules : left.rules = right.rules) (rule : Rule) : left.addRule rule = right.addRule rule := by
  rcases left with ⟨place, _, _⟩
  rcases right with ⟨other, _, _⟩
  simp only at scopes rules
  subst scopes rules
  rfl

theorem addDeclaration_enter (progress : Progress) (selectors : List String)
    (read : List Declaration) (declaration : Declaration) :
    (progress.enter (.style selectors read)).addDeclaration declaration =
      progress.enter (.style selectors (declaration :: read)) := rfl

theorem close?_enter_style (progress : Progress) (selectors : List String)
    (read : List Declaration) :
    (progress.enter (.style selectors read)).close? =
      some (progress.addRule (.style selectors read.reverse)) :=
  congrArg some (addRule_congr rfl rfl _)

/-- The declarations of a style rule are read up to its closing brace. -/
theorem Reads.declarations (layout : Layout) (depth : Nat) (progress : Progress)
    (selectors : List String) {declarations : List Declaration}
    (canonical : declarations.all isCanonicalDeclaration = true) (read : List Declaration)
    (after : Gap) (rest : List Char) :
    ∃ gap : Gap, Reads (progress.enter (.style selectors read))
      (layout.declarations depth declarations ++ (after.1 ++ '\x7d' :: rest))
      (progress.enter (.style selectors (declarations.reverse ++ read)))
      (gap.1 ++ '\x7d' :: rest) := by
  induction declarations generalizing read with
  | nil => exact ⟨after, Reads.refl _ _⟩
  | cons declaration declarations ih =>
      simp only [List.all_cons, Bool.and_eq_true] at canonical
      have awaits : (progress.enter (.style selectors read)).AwaitsDeclaration := ⟨.inl rfl, rfl⟩
      cases declarations with
      | nil =>
          cases ends : layout.endsLast with
          | false =>
              refine ⟨⟨[], rfl⟩, ?_⟩
              have last := Reads.declaration awaits layout depth canonical.1 after (by decide)
                (Token.reachesEnd_closeBrace rest)
              rw [addDeclaration_enter] at last
              simpa [Layout.declarations, ends] using last
          | true =>
              refine ⟨after, ?_⟩
              have last := Reads.declarationSemicolon awaits layout depth canonical.1
                (after.1 ++ '\x7d' :: rest)
              rw [addDeclaration_enter] at last
              simpa [Layout.declarations, ends] using last
      | cons next declarations =>
          rcases ih canonical.2 (declaration :: read) with ⟨gap, others⟩
          refine ⟨gap, ?_⟩
          have first := Reads.declarationSemicolon awaits layout depth canonical.1
            (layout.declarations depth (next :: declarations) ++ (after.1 ++ '\x7d' :: rest))
          rw [addDeclaration_enter] at first
          simpa [Layout.declarations] using first.trans others

theorem Reads.style {progress : Progress} (awaits : progress.AwaitsRule) (layout : Layout)
    (depth : Nat) {selectors : List String} {declarations : List Declaration}
    (canonical : (Written.style selectors declarations).isCanonical = true) (rest : List Char) :
    Reads progress (layout.rule depth (.style selectors declarations) ++ rest)
      (progress.addRule (.style selectors declarations)) rest := by
  simp only [Written.isCanonical, Bool.and_eq_true, Bool.not_eq_true',
    List.isEmpty_eq_false_iff] at canonical
  rcases canonical with ⟨⟨filled, names⟩, body⟩
  have start := Reads.selectors awaits layout filled names (layout.beforeItem depth)
    layout.beforeBlock (layout.declarations (depth + 1) declarations ++
      ((layout.beforeClose depth).1 ++ '\x7d' :: rest))
  obtain ⟨gap, content⟩ := Reads.declarations layout (depth + 1) progress selectors body []
    (layout.beforeClose depth) rest
  have inside : (progress.enter (.style selectors (declarations.reverse ++ []))).IsInside :=
    ⟨.inl rfl, by simp [enter]⟩
  have ended := Reads.closeBrace inside (close?_enter_style progress selectors _) gap rest
  simp only [List.append_nil, List.reverse_reverse] at content ended
  simpa [Layout.rule, Layout.block] using start.trans (content.trans ended)

/-! ## Media rules -/

theorem scopes_addRules {progress : Progress} {query : String} {read : List Rule}
    {outer : List Scope} (scopes : progress.scopes = .media query read :: outer)
    (rules : List Rule) :
    (progress.addRules rules).scopes = .media query (rules.reverse ++ read) :: outer ∧
      (progress.addRules rules).rules = progress.rules := by
  induction rules generalizing progress read with
  | nil => exact ⟨scopes, rfl⟩
  | cons rule rules ih =>
      have added : (progress.addRule rule).scopes = .media query (rule :: read) :: outer ∧
          (progress.addRule rule).rules = progress.rules := by simp [addRule, scopes]
      rcases ih added.1 with ⟨inner, complete⟩
      refine ⟨?_, complete.trans added.2⟩
      rw [List.reverse_cons, List.append_assoc]
      exact inner

theorem isInside_addRule {progress : Progress} (inside : progress.IsInside) (rule : Rule) :
    (progress.addRule rule).IsInside := by
  rcases List.exists_cons_of_ne_nil inside.2 with ⟨scope, outer, scopes⟩
  refine ⟨.inr (place_addRule progress rule), ?_⟩
  cases scope <;> simp [addRule, goto, scopes]

theorem isInside_addRules {progress : Progress} (inside : progress.IsInside)
    (rules : List Rule) : (progress.addRules rules).IsInside := by
  induction rules generalizing progress with
  | nil => exact inside
  | cons rule rules ih => exact ih (isInside_addRule inside rule)

theorem close?_addRules (progress : Progress) (query : String) (rules : List Rule) :
    ((progress.enter (.media query [])).addRules rules).close? =
      some (progress.addRule (.media query rules)) := by
  have opened : (progress.enter (.media query [])).scopes = .media query [] :: progress.scopes :=
    rfl
  rcases scopes_addRules opened rules with ⟨scopes, complete⟩
  rw [List.append_nil] at scopes
  simp only [close?, scopes, List.reverse_reverse]
  refine congrArg some (addRule_congr ?_ ?_ _)
  · rfl
  · exact complete

/-! ## At-rules -/

/-- Between the contents of an at-rule, around which and before which nothing has changed. -/
def IsInAtRule (progress outside : Progress) (name prelude : String) : Prop :=
  (progress.place = .body ∨ progress.place = .ruleEnd) ∧
    progress.scopes = .atRule name prelude :: outside.scopes ∧ progress.rules = outside.rules

namespace IsInAtRule

variable {progress outside : Progress} {name prelude : String}

theorem isInside (within : progress.IsInAtRule outside name prelude) : progress.IsInside :=
  ⟨within.1, by simp [within.2.1]⟩

theorem awaitsDeclaration (within : progress.IsInAtRule outside name prelude) :
    progress.AwaitsDeclaration :=
  ⟨within.1, by simp [allowsDeclaration, within.2.1]⟩

theorem awaitsRule (within : progress.IsInAtRule outside name prelude) : progress.AwaitsRule := by
  rcases within with ⟨place | place, scopes, -⟩
  · exact ⟨.inr (.inr place), by simp [place, scopes, Place.kinds, Scope.kinds, atRuleKinds]⟩
  · exact awaitsRule_of_ruleEnd place

theorem addDeclaration (within : progress.IsInAtRule outside name prelude)
    (declaration : Declaration) :
    (progress.addDeclaration declaration).IsInAtRule outside name prelude := by
  rcases within with ⟨-, scopes, rules⟩
  simp [Progress.addDeclaration, IsInAtRule, goto, scopes, rules]

theorem addRule (within : progress.IsInAtRule outside name prelude) (rule : Rule) :
    (progress.addRule rule).IsInAtRule outside name prelude := by
  rcases within with ⟨-, scopes, rules⟩
  simp [Progress.addRule, IsInAtRule, goto, scopes, rules]

theorem close? (within : progress.IsInAtRule outside name prelude) :
    progress.close? = some (outside.addRule (.atRule name prelude)) := by
  rcases within with ⟨-, scopes, rules⟩
  simp only [Progress.close?, scopes]
  refine congrArg some (addRule_congr ?_ ?_ _)
  · rfl
  · exact rules

end IsInAtRule

/-- What a semicolon or a brace does after the start of an at-rule. -/
theorem advance?_of_isAfterAtRule (progress : Progress) {place : Place} {name prelude : String}
    (after : place.IsAfterAtRule name prelude) (named : isAtRuleName name.toList = true) :
    (progress.goto place).advance? .semicolon = some (progress.addRule (.atRule name prelude)) ∧
      (progress.goto place).advance? .openBrace =
        some (progress.enter (.atRule name prelude)) := by
  have lower : atRuleName name.toList = name := by
    rw [atRuleName, lower_of_isLowerNameChar (all_isLowerNameChar_of_isAtRuleName named),
      String.ofList_toList]
  cases place
  case atKeyword read =>
    rcases after with ⟨rfl, rfl⟩
    simp only [Progress.advance?, goto, lower]
    exact ⟨rfl, rfl⟩
  case atPrelude read text =>
    rcases after with ⟨rfl, rfl⟩
    simp only [Progress.advance?, goto, lower]
    exact ⟨rfl, rfl⟩
  all_goals exact after.elim

theorem kinds_of_isAfterAtRule (scopes : List Scope) {place : Place} {name prelude : String}
    (after : place.IsAfterAtRule name prelude) :
    (∀ read, place ≠ .colon read) ∧ .semicolon ∈ place.kinds scopes ∧
      .openBrace ∈ place.kinds scopes := by
  cases place
  case atKeyword | atPrelude => simp [Place.kinds]
  all_goals exact after.elim

theorem Reads.statement {progress : Progress} (awaits : progress.AwaitsRule) (layout : Layout)
    (depth : Nat) {name prelude : String}
    (canonical : (Written.statement name prelude).isCanonical = true) (rest : List Char) :
    Reads progress (layout.rule depth (.statement name prelude) ++ rest)
      (progress.addRule (.atRule name prelude)) rest := by
  simp only [Written.isCanonical, Bool.and_eq_true] at canonical
  have mark : Token.isMark ';' = true := by decide
  obtain ⟨place, gap, after, start⟩ := Reads.atRule awaits canonical.1 canonical.2
    (layout.beforeItem depth) layout.beforeSemicolon mark rest
  rcases kinds_of_isAfterAtRule progress.scopes after with ⟨spaced, member, -⟩
  have ended := Reads.mark .semicolon rfl spaced member
    (advance?_of_isAfterAtRule progress after canonical.1).1 gap rest
  simpa [Layout.rule, Layout.semicolon] using start.trans ended

/-- The start of an at-rule with a body opens a block. -/
theorem Reads.blockStart {progress : Progress} (awaits : progress.AwaitsRule)
    {name prelude : String} (named : isAtRuleName name.toList = true)
    (canonical : isPrelude prelude.toList = true) (before after : Gap) (rest : List Char) :
    Reads progress (before.1 ++ (Layout.atRule name prelude ++ (after.1 ++ '\x7b' :: rest)))
      (progress.enter (.atRule name prelude)) rest := by
  have mark : Token.isMark '\x7b' = true := by decide
  rcases Reads.atRule awaits named canonical before after mark rest with
    ⟨place, gap, reached, start⟩
  rcases kinds_of_isAfterAtRule progress.scopes reached with ⟨spaced, -, member⟩
  exact start.trans (Reads.mark .openBrace rfl spaced member
    (advance?_of_isAfterAtRule progress reached named).2 gap rest)

/-! ## Rules in rules -/

mutual

/-- A canonical rule is read and added to the block it stands in. -/
theorem reads_rule (layout : Layout) :
    (rule : Written) → rule.isCanonical = true →
    (depth : Nat) → (progress : Progress) → progress.AwaitsRule → (rest : List Char) →
    Reads progress (layout.rule depth rule ++ rest) (progress.addRule rule.toRule) rest
  | .style _ _, canonical, depth, _, awaits, rest =>
      Reads.style awaits layout depth canonical rest
  | .statement _ _, canonical, depth, _, awaits, rest =>
      Reads.statement awaits layout depth canonical rest
  | .media query rules, canonical, depth, progress, awaits, rest => by
      simp only [Written.isCanonical, Bool.and_eq_true, Bool.not_eq_true'] at canonical
      have start := Reads.mediaQuery awaits canonical.1.1 canonical.1.2 (layout.beforeItem depth)
        layout.beforeBlock
        (layout.rules (depth + 1) rules ++ ((layout.beforeClose depth).1 ++ '\x7d' :: rest))
      have content := reads_rules layout rules canonical.2 (depth + 1) _
        (awaitsRule_enter_media progress query []) ((layout.beforeClose depth).1 ++ '\x7d' :: rest)
      have opened : (progress.enter (.media query [])).IsInside := ⟨.inl rfl, by simp [enter]⟩
      have ended := Reads.closeBrace (isInside_addRules opened (Written.toRules rules))
        (close?_addRules progress query _) (layout.beforeClose depth) rest
      simpa [Layout.rule, Layout.block, Written.toRule] using start.trans (content.trans ended)
  | .block name prelude body, canonical, depth, progress, awaits, rest => by
      simp only [Written.isCanonical, Bool.and_eq_true] at canonical
      have start := Reads.blockStart awaits canonical.1.1 canonical.1.2 (layout.beforeItem depth)
        layout.beforeBlock
        (layout.body (depth + 1) body ++ ((layout.beforeClose depth).1 ++ '\x7d' :: rest))
      have opened : (progress.enter (.atRule name prelude)).IsInAtRule progress name prelude :=
        ⟨.inl rfl, rfl, rfl⟩
      obtain ⟨last, within, content⟩ := reads_body layout body canonical.2 (depth + 1) _ progress
        opened ((layout.beforeClose depth).1 ++ '\x7d' :: rest)
      have ended := Reads.closeBrace within.isInside within.close? (layout.beforeClose depth) rest
      simpa [Layout.rule, Layout.block, Written.toRule] using start.trans (content.trans ended)

/-- Canonical rules are read and added to the block they stand in. -/
theorem reads_rules (layout : Layout) :
    (rules : List Written) → Written.areCanonical rules = true →
    (depth : Nat) → (progress : Progress) → progress.AwaitsRule → (rest : List Char) →
    Reads progress (layout.rules depth rules ++ rest)
      (progress.addRules (Written.toRules rules)) rest
  | [], _, _, progress, _, rest => Reads.refl progress rest
  | rule :: rules, canonical, depth, progress, awaits, rest => by
      simp only [Written.areCanonical, Bool.and_eq_true] at canonical
      have first := reads_rule layout rule canonical.1 depth progress awaits
        (layout.rules depth rules ++ rest)
      have others := reads_rules layout rules canonical.2 depth _
        (awaitsRule_addRule progress rule.toRule) rest
      rw [Layout.rules, List.append_assoc]
      exact first.trans others

/-- Canonical declarations and rules of an at-rule are read, and nothing is kept of them. -/
theorem reads_body (layout : Layout) :
    (body : List (Declaration ⊕ Written)) → Written.isCanonicalBody body = true →
    (depth : Nat) → (progress outside : Progress) → {name prelude : String} →
    progress.IsInAtRule outside name prelude → (rest : List Char) →
    ∃ next : Progress, next.IsInAtRule outside name prelude ∧
      Reads progress (layout.body depth body ++ rest) next rest
  | [], _, _, progress, _, _, _, within, rest => ⟨progress, within, Reads.refl progress rest⟩
  | .inl declaration :: items, canonical, depth, progress, outside, _, _, within, rest => by
      simp only [Written.isCanonicalBody, Bool.and_eq_true] at canonical
      have first := Reads.declarationSemicolon within.awaitsDeclaration layout depth canonical.1
        (layout.body depth items ++ rest)
      obtain ⟨next, inside, others⟩ := reads_body layout items canonical.2 depth _ outside
        (within.addDeclaration declaration) rest
      refine ⟨next, inside, ?_⟩
      simpa [Layout.body] using first.trans others
  | .inr rule :: items, canonical, depth, progress, outside, _, _, within, rest => by
      simp only [Written.isCanonicalBody, Bool.and_eq_true] at canonical
      have first := reads_rule layout rule canonical.1 depth progress within.awaitsRule
        (layout.body depth items ++ rest)
      obtain ⟨next, inside, others⟩ := reads_body layout items canonical.2 depth _ outside
        (within.addRule rule.toRule) rest
      refine ⟨next, inside, ?_⟩
      simpa [Layout.body] using first.trans others

end

/-! ## The end of the text -/

theorem finish?_addRules {progress : Progress} (outside : progress.scopes = [])
    (place : progress.place = .start ∨ progress.place = .ruleEnd) (rules : List Rule) :
    (progress.addRules rules).finish? = some (progress.rules.reverse ++ rules) ∧
      ∀ name, (progress.addRules rules).place ≠ .colon name := by
  induction rules generalizing progress with
  | nil => rcases place with place | place <;> simp [addRules, finish?, outside, place]
  | cons rule rules ih =>
      have added : (progress.addRule rule).scopes = [] ∧
          (progress.addRule rule).rules = rule :: progress.rules := by simp [addRule, outside]
      rcases ih added.1 (.inr (place_addRule progress rule)) with ⟨complete, spaced⟩
      rw [added.2, List.reverse_cons, List.append_assoc] at complete
      exact ⟨complete, spaced⟩

theorem run_gap {progress : Progress} {rules : Stylesheet}
    (complete : progress.finish? = some rules) (spaced : ∀ name, progress.place ≠ .colon name)
    (gap : Gap) (last : List Char) : progress.run last gap.1 = .ok rules := by
  have none : ([] : List Char).head?.any Token.isSpace = false := rfl
  have skipped := Place.skipSpaces_append spaced gap none
  rw [List.append_nil] at skipped
  rw [run]
  simp [skipped, complete]

end Progress

/-! ## The whole text -/

/-- Reading inverts writing: whatever the layout, the text of a canonical written stylesheet is
read as the rules that the tree stands for, with their declarations, in their order. -/
theorem parse_print (layout : Layout) {rules : List Written}
    (canonical : Written.areCanonical rules = true) :
    Stylesheet.parse (layout.print rules) = .ok (Written.toRules rules) := by
  have awaits : (⟨.start, [], []⟩ : Progress).AwaitsRule := ⟨.inl rfl, by decide⟩
  have text : '/' ∉ layout.rules 0 rules ++ (layout.beforeClose 0).1 := by
    simp [not_mem_rules layout rules canonical 0, not_mem_gap]
  have outside : (⟨.start, [], []⟩ : Progress).scopes = [] := rfl
  rcases Progress.finish?_addRules outside (.inl rfl) (Written.toRules rules) with
    ⟨complete, spaced⟩
  obtain ⟨last, reading⟩ := Progress.reads_rules layout rules canonical 0 _ awaits
    (layout.beforeClose 0).1 (layout.rules 0 rules ++ (layout.beforeClose 0).1)
  have result := reading.trans (Progress.run_gap complete spaced (layout.beforeClose 0) last)
  simp only [parse, Layout.print, String.toList_ofList, strip_of_not_mem text, read, result]
  rfl

/-- A selector with a pseudo-class is told apart from a declaration inside of a media rule, after a
rule, and in the body of an at-rule. -/
theorem parse_print_indented :
    Stylesheet.parse (Layout.indented.print [
      .media "screen and (min-width: 10px)" [
        .style ["a:hover", ".b > .c"] [⟨"--gap", "1px  2px"⟩, ⟨"color", "red"⟩],
        .style ["a:focus"] []],
      .block "supports" "(display: grid)" [
        .inl ⟨"a", "hover"⟩, .inr (.style ["a:hover"] [⟨"color", "red"⟩])],
      .statement "import" "theme.css"]) =
    .ok [
      .media "screen and (min-width: 10px)" [
        .style ["a:hover", ".b > .c"] [⟨"--gap", "1px  2px"⟩, ⟨"color", "red"⟩],
        .style ["a:focus"] []],
      .atRule "supports" "(display: grid)",
      .atRule "import" "theme.css"] :=
  parse_print Layout.indented (by decide +kernel)

end StyleObjects.Stylesheet
