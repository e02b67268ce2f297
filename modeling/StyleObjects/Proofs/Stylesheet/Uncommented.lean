import StyleObjects.Proofs.Stylesheet.Canonical

/-!
# Texts without comments

A text without slashes has no comment, and removing comments leaves it as it is.  The text of a
canonical written stylesheet has no slash in any layout.
-/

namespace StyleObjects.Stylesheet

/-- A text in which no comment begins has none. -/
theorem strip_of_not_infix {cs : List Char} (absent : ¬['/', '*'] <:+: cs) :
    Comment.strip cs = cs := by
  induction cs with
  | nil => rw [Comment.strip]
  | cons c cs ih =>
      have others : ¬['/', '*'] <:+: cs := mt (List.infix_cons (a := c)) absent
      rw [Comment.strip.eq_def]
      split
      · rename_i rest same
        exact absurd ⟨[], rest, same.symm⟩ absent
      · rename_i same
        cases same
        rw [ih others]
      · rename_i same
        cases same

theorem strip_of_not_mem {cs : List Char} (absent : '/' ∉ cs) : Comment.strip cs = cs :=
  strip_of_not_infix fun found => absent (found.subset (List.mem_cons_self ..))

theorem not_mem_gap (gap : Gap) : '/' ∉ gap.1 :=
  Lists.not_mem_of_all gap.2 (by decide)

theorem not_mem_isLowerName {cs : List Char} (lower : cs.all isLowerNameChar = true) : '/' ∉ cs :=
  Lists.not_mem_of_all lower (by decide)

theorem not_mem_selectors (layout : Layout) {selectors : List String}
    (canonical : selectors.all (fun selector => isSelector selector.toList) = true) :
    '/' ∉ layout.selectors selectors := by
  have other : (layout.selectors selectors).all (· != '/') = true := by
    apply all_selectors _ (by decide) _ layout canonical
    · intro c space
      simp only [Token.isSpace, Bool.or_eq_true, beq_iff_eq] at space
      rcases space with (((rfl | rfl) | rfl) | rfl) | rfl <;> decide
    · intro c character
      simpa using (isPlain_of_isSelectorChar character).2.2
  exact Lists.not_mem_of_all other (by decide)

theorem not_mem_declaration (layout : Layout) (depth : Nat) {declaration : Declaration}
    (canonical : isCanonicalDeclaration declaration = true) :
    '/' ∉ layout.declaration depth declaration := by
  simp only [isCanonicalDeclaration, isValue, Bool.and_eq_true] at canonical
  have name := not_mem_isLowerName (all_isLowerNameChar_of_isPropertyName canonical.1)
  have value : '/' ∉ declaration.value.toList := Lists.not_mem_of_all canonical.2.2 (by decide)
  simp [Layout.declaration, not_mem_gap, name, value]

theorem not_mem_semicolon (layout : Layout) : '/' ∉ layout.semicolon := by
  simp [Layout.semicolon, not_mem_gap]

theorem not_mem_declarations (layout : Layout) (depth : Nat) {declarations : List Declaration}
    (canonical : declarations.all isCanonicalDeclaration = true) :
    '/' ∉ layout.declarations depth declarations := by
  induction declarations with
  | nil => exact List.not_mem_nil
  | cons declaration others ih =>
      simp only [List.all_cons, Bool.and_eq_true] at canonical
      have first := not_mem_declaration layout depth canonical.1
      have last := not_mem_semicolon layout
      cases others with
      | nil => cases ends : layout.endsLast <;> simp [Layout.declarations, ends, first, last]
      | cons other others =>
          simp only [Layout.declarations, List.mem_append, not_or]
          exact ⟨first, last, ih canonical.2⟩

theorem not_mem_block (layout : Layout) (depth : Nat) {content : List Char}
    (absent : '/' ∉ content) : '/' ∉ layout.block depth content := by
  simp [Layout.block, not_mem_gap, absent]

theorem not_mem_atRule {name prelude : String} (named : name.toList.all isLowerNameChar = true)
    (canonical : isPrelude prelude.toList = true) : '/' ∉ Layout.atRule name prelude := by
  simp only [isPrelude, Bool.and_eq_true] at canonical
  have text : '/' ∉ prelude.toList := Lists.not_mem_of_all canonical.2 (by decide)
  have word := not_mem_isLowerName named
  unfold Layout.atRule
  split <;> simp [text, word]

mutual

/-- No comment starts in a canonical rule. -/
theorem not_mem_rule (layout : Layout) :
    (rule : Written) → rule.isCanonical = true → (depth : Nat) → '/' ∉ layout.rule depth rule
  | .style selectors declarations, canonical, depth => by
      simp only [Written.isCanonical, Bool.and_eq_true] at canonical
      have names := not_mem_selectors layout canonical.1.2
      have body := not_mem_declarations layout (depth + 1) canonical.2
      simp [Layout.rule, not_mem_gap, names, not_mem_block layout depth body]
  | .media query rules, canonical, depth => by
      simp only [Written.isCanonical, Bool.and_eq_true] at canonical
      have word : "media".toList.all isLowerNameChar = true := by decide
      have start := not_mem_atRule word canonical.1.2
      have body := not_mem_rules layout rules canonical.2 (depth + 1)
      simp [Layout.rule, not_mem_gap, start, not_mem_block layout depth body]
  | .statement name prelude, canonical, depth => by
      simp only [Written.isCanonical, Bool.and_eq_true] at canonical
      have start := not_mem_atRule (all_isLowerNameChar_of_isAtRuleName canonical.1) canonical.2
      simp [Layout.rule, not_mem_gap, start, not_mem_semicolon]
  | .block name prelude body, canonical, depth => by
      simp only [Written.isCanonical, Bool.and_eq_true] at canonical
      have start := not_mem_atRule (all_isLowerNameChar_of_isAtRuleName canonical.1.1)
        canonical.1.2
      have content := not_mem_body layout body canonical.2 (depth + 1)
      simp [Layout.rule, not_mem_gap, start, not_mem_block layout depth content]

/-- No comment starts in canonical rules. -/
theorem not_mem_rules (layout : Layout) :
    (rules : List Written) → Written.areCanonical rules = true → (depth : Nat) →
    '/' ∉ layout.rules depth rules
  | [], _, _ => List.not_mem_nil
  | rule :: rules, canonical, depth => by
      simp only [Written.areCanonical, Bool.and_eq_true] at canonical
      simp [Layout.rules, not_mem_rule layout rule canonical.1 depth,
        not_mem_rules layout rules canonical.2 depth]

/-- No comment starts in the body of a canonical at-rule. -/
theorem not_mem_body (layout : Layout) :
    (body : List (Declaration ⊕ Written)) → Written.isCanonicalBody body = true → (depth : Nat) →
    '/' ∉ layout.body depth body
  | [], _, _ => List.not_mem_nil
  | .inl declaration :: items, canonical, depth => by
      simp only [Written.isCanonicalBody, Bool.and_eq_true] at canonical
      simp [Layout.body, not_mem_declaration layout depth canonical.1, not_mem_semicolon,
        not_mem_body layout items canonical.2 depth]
  | .inr rule :: items, canonical, depth => by
      simp only [Written.isCanonicalBody, Bool.and_eq_true] at canonical
      simp [Layout.body, not_mem_rule layout rule canonical.1 depth,
        not_mem_body layout items canonical.2 depth]

end

end StyleObjects.Stylesheet
