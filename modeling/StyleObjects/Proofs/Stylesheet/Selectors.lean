import StyleObjects.Proofs.Stylesheet.Built
import StyleObjects.Proofs.Text.Splitting

/-!
# Selectors of a stylesheet that has been read

A selector list is read up to the next mark and cut into selectors in which single spaces stand for
runs of white space.  So no selector of a stylesheet, at whatever depth its rule stands, has a
brace, a semicolon, or white space other than the space itself.
-/

namespace StyleObjects

open Text

/-! ## The text of a selector -/

/-- Text without marks, and with no white space but spaces. -/
def Selector.isTidy (cs : List Char) : Bool :=
  cs.all fun c => !Token.isMark c && (c == ' ' || !isBlank c)

/-- Collapsing keeps visible characters and writes spaces for the others. -/
theorem Text.eq_or_mem_of_mem_collapse {cs : List Char} {c : Char} (member : c ∈ collapse cs) :
    c = ' ' ∨ (c ∈ cs ∧ isBlank c = false) := by
  induction cs with
  | nil => simp [collapse] at member
  | cons d cs ih =>
      rw [collapse] at member
      grind

theorem Text.normalize_subset (cs : List Char) : normalize cs ⊆ collapse cs := by
  intro c member
  have trailing := List.mem_reverse.mp ((List.dropWhile_suffix isBlank).subset
    (List.mem_reverse.mp member))
  exact (List.dropWhile_suffix isBlank).subset trailing

/-- The selectors of a text without marks are tidy. -/
theorem Selector.isTidy_of_mem_selectorsOf {text : List Char} {selector : String}
    (unmarked : text.all (!Token.isMark ·) = true)
    (member : selector ∈ Stylesheet.selectorsOf text) : isTidy selector.toList = true := by
  rcases List.mem_map.mp member with ⟨cs, listed, rfl⟩
  rcases List.mem_map.mp (List.mem_filter.mp listed).1 with ⟨piece, cut, rfl⟩
  rw [String.toList_ofList, isTidy, List.all_eq_true]
  intro c inside
  rcases eq_or_mem_of_mem_collapse (normalize_subset piece inside) with rfl | ⟨visible, plain⟩
  · rfl
  · have mark := List.all_eq_true.mp unmarked c (subset_of_mem_splitScanning cut visible)
    simp_all

/-! ## The selectors of rules -/

/-- A selector of a style rule, or of a rule in a media rule at any depth. -/
inductive Rule.HasSelector : Rule → String → Prop where
  | style {selectors : List String} {selector : String} (declarations : List Declaration)
      (member : selector ∈ selectors) : HasSelector (.style selectors declarations) selector
  | media {rules : List Rule} {rule : Rule} {selector : String} (query : String)
      (member : rule ∈ rules) (inside : HasSelector rule selector) :
      HasSelector (.media query rules) selector

/-- All selectors of a rule are tidy. -/
def Rule.Tidy (rule : Rule) : Prop :=
  ∀ selector, rule.HasSelector selector → Selector.isTidy selector.toList = true

theorem Rule.Built.tidy {rule : Rule} (built : rule.Built) : rule.Tidy := by
  induction built with
  | style unmarked =>
      rintro selector (⟨-, member⟩ | _)
      exact Selector.isTidy_of_mem_selectorsOf unmarked member
  | media text nested ih =>
      rintro selector (_ | ⟨-, member, inside⟩)
      exact ih _ member selector inside
  | atRule name prelude => rintro selector ⟨⟩

/-- All rules that are read are tidy. -/
theorem Stylesheet.tidy_of_parse {source : String} {rules : Stylesheet}
    (parsed : parse source = .ok rules) : ∀ rule ∈ rules, rule.Tidy :=
  fun rule member => (built_of_parse parsed rule member).tidy

end StyleObjects
