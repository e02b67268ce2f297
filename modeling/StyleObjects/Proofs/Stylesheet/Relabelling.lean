import StyleObjects.Proofs.Stylesheet.Comments
import StyleObjects.Proofs.Stylesheet.Composition

/-!
# A rule with other selectors

What stands in the block of a style rule is read without regard to its selectors, and what follows
the rule without regard to the rule.  So the declarations of a rule stay what they are if the rule
gets another selector.
-/

namespace StyleObjects

namespace Stylesheet

namespace Progress

/-! ## Behind a rule -/

/-- A text that is accepted after other rules is accepted alone, with the rules that it adds. -/
theorem Accepts.of_after {progress : Progress} {cs : List Char} {before rules : Stylesheet}
    (accepted : (progress.after before).Accepts cs rules) :
    ∃ others, rules = before ++ others ∧ progress.Accepts cs others := by
  generalize started : progress.after before = reached at accepted
  induction accepted generalizing progress with
  | finish blank complete =>
      subst started
      rcases eq_of_finish? complete with ⟨place, scopes, same⟩
      refine ⟨progress.rules.reverse, ?_, .finish blank ?_⟩
      · rw [← same]
        simp [Progress.after]
      · have outside : progress.scopes = [] := scopes
        rcases place with start | ruleEnd
        · have start : progress.place = .start := start
          simp [finish?, start, outside]
        · have ruleEnd : progress.place = .ruleEnd := ruleEnd
          simp [finish?, ruleEnd, outside]
  | step taken advanced others ih =>
      subst started
      rw [advance?_after] at advanced
      rcases Option.map_eq_some_iff.mp advanced with ⟨next, own, moved⟩
      rcases ih moved with ⟨added, rfl, following⟩
      exact ⟨added, rfl, .step taken own following⟩

/-! ## Inside a rule -/

/-- Between declarations there are names of properties, semicolons, and the brace that ends them. -/
theorem cases_of_takeFirst?_style {cs rest : List Char} {token : Token}
    (taken : Token.takeFirst? [.property, .closeBrace, .semicolon] cs = some (token, rest)) :
    (∃ name, token = .property name) ∨ token = .closeBrace ∨ token = .semicolon := by
  rcases List.exists_of_findSome?_eq_some taken with ⟨kind, member, found⟩
  simp only [List.mem_cons, List.not_mem_nil, or_false] at member
  rcases member with rfl | rfl | rfl
  · rcases Option.map_eq_some_iff.mp found with ⟨⟨name, after⟩, -, same⟩
    cases same
    exact .inl ⟨name, rfl⟩
  · exact .inr (.inl (Token.eq_cons_of_takeMark? found).2)
  · exact .inr (.inr (Token.eq_cons_of_takeMark? found).2)

/-- The rest of a rule, and what follows it, is read in the same way if the rule has other
selectors.  The declarations that have been read come first in it. -/
theorem Accepts.relabel {place : Place} {selectors : List String} {declarations : List Declaration}
    {cs : List Char} {rules : Stylesheet}
    (accepted : (⟨place, [.style selectors declarations], []⟩ : Progress).Accepts cs rules)
    (inside : place = .body ∨ ∃ name, place.property? = some name) (others : List String) :
    ∃ own following, rules = .style selectors (declarations.reverse ++ own) :: following ∧
      (⟨place, [.style others declarations], []⟩ : Progress).Accepts cs
        (.style others (declarations.reverse ++ own) :: following) := by
  generalize started : (⟨place, [.style selectors declarations], []⟩ : Progress) = progress
    at accepted
  induction accepted generalizing place declarations with
  | finish blank complete =>
      subst started
      cases (eq_of_finish? complete).2.1
  | step taken advanced later ih =>
      rename_i reached next cs rest token rules
      subst started
      cases place with
      | body =>
          rcases cases_of_takeFirst?_style taken with ⟨name, rfl⟩ | rfl | rfl
          · cases advanced
            rcases ih (.inr ⟨name, rfl⟩) rfl with ⟨own, following, same, relabelled⟩
            exact ⟨own, following, same, .step taken rfl relabelled⟩
          · cases advanced
            -- The rule is complete, and what follows is read as it is alone.
            have complete : ((⟨.ruleEnd, [], []⟩ : Progress).after
                [.style selectors declarations.reverse]).Accepts rest rules := later
            rcases complete.of_after with ⟨following, same, alone⟩
            refine ⟨[], following, ?_⟩
            rw [List.append_nil]
            exact ⟨same, .step taken rfl (alone.after [.style others declarations.reverse])⟩
          · cases advanced
            rcases ih (.inl rfl) rfl with ⟨own, following, same, relabelled⟩
            exact ⟨own, following, same, .step taken rfl relabelled⟩
      | property name =>
          cases token with
          | colon =>
              cases advanced
              rcases ih (.inr ⟨name, rfl⟩) rfl with ⟨own, following, same, relabelled⟩
              exact ⟨own, following, same, .step taken rfl relabelled⟩
          | _ => cases advanced
      | colon name =>
          cases token with
          | value text =>
              cases advanced
              rcases ih (.inl rfl) rfl with ⟨own, following, same, relabelled⟩
              rw [List.reverse_cons, List.append_assoc] at same relabelled
              exact ⟨_, following, same, .step taken rfl relabelled⟩
          | _ => cases advanced
      | start | ruleEnd | prelude | mediaKeyword | mediaQuery | atKeyword | atPrelude =>
          simp [Place.property?] at inside

/-! ## The selector of a rule -/

/-- A selector and the brace after it are read, and open the block of a rule. -/
theorem Reads.selector {selector : String} (canonical : isSelector selector.toList = true)
    (rest : List Char) :
    Reads ⟨.start, [], []⟩ (selector.toList ++ ' ' :: '\x7b' :: rest)
      ⟨.body, [.style [selector] []], []⟩ rest := by
  have awaits : (⟨.start, [], []⟩ : Progress).AwaitsRule := ⟨.inl rfl, by decide⟩
  have filled : [selector] ≠ [] := List.cons_ne_nil _ _
  exact Reads.selectors awaits Layout.indented filled (by simpa using canonical) ⟨[], rfl⟩
    ⟨[' '], rfl⟩ rest

end Progress

/-- A text that starts with a rule is read if and only if the text behind its brace is. -/
theorem parse_rule_iff {selector : String} (canonical : isSelector selector.toList = true)
    (rest : String) (rules : Stylesheet) :
    parse (selector ++ " \x7b" ++ rest) = .ok rules ↔
      (⟨.body, [.style [selector] []], []⟩ : Progress).Accepts
        (Comment.strip rest.toList) rules := by
  have name : '/' ∉ selector.toList :=
    not_mem_selectors Layout.indented (by simpa using canonical : [selector].all _ = true)
  have bare : '/' ∉ selector.toList ++ [' ', '\x7b'] := by
    simp only [List.mem_append, not_or]
    exact ⟨name, by decide⟩
  have stripped := Comment.strip_surrounded bare List.not_mem_nil rest.toList
  have text : (selector ++ " \x7b" ++ rest).toList =
      selector.toList ++ [' ', '\x7b'] ++ (rest.toList ++ []) := by
    simp
  rw [parse_ok_iff, text, stripped, List.append_nil, List.append_assoc]
  exact (Progress.Reads.selector canonical _).accepts_iff

/-- **The selector of a rule has no bearing on what is read.**  If a text that starts with a rule
is read, then with another selector the rule has the same declarations and is followed by the same
rules. -/
theorem parse_relabel {selector other : String} (canonical : isSelector selector.toList = true)
    (replacing : isSelector other.toList = true) {rest : String} {rules : Stylesheet}
    (parsed : parse (selector ++ " \x7b" ++ rest) = .ok rules) :
    ∃ own following, rules = .style [selector] own :: following ∧
      parse (other ++ " \x7b" ++ rest) = .ok (.style [other] own :: following) := by
  have accepted := (parse_rule_iff canonical rest rules).mp parsed
  rcases accepted.relabel (.inl rfl) [other] with ⟨own, following, same, relabelled⟩
  exact ⟨own, following, same, (parse_rule_iff replacing rest _).mpr relabelled⟩

end Stylesheet

end StyleObjects
