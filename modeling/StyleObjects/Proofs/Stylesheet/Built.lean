import StyleObjects.Proofs.Stylesheet.Accepted
import StyleObjects.Proofs.Stylesheet.Properties

/-!
# How the rules of a stylesheet are built

Reading takes the text of a rule up to the next mark and makes the selectors or the query of the
rule of it.  So every rule that is read, at whatever depth it stands, has its texts from texts of
the source: this is kept token by token, for the rules that are complete and for the open blocks.
-/

namespace StyleObjects

open Stylesheet

/-- A declaration is made of the name of a property and some text. -/
def Declaration.Built (declaration : Declaration) : Prop :=
  ∃ name value, name.all Token.isNameChar = true ∧ declaration = declarationOf name value

/-- The texts of a rule, and those of the rules in it, are made of texts of a source; the text of a
selector list has no mark. -/
inductive Rule.Built : Rule → Prop where
  | style {text : List Char} (unmarked : text.all (!Token.isMark ·) = true)
      {declarations : List Declaration}
      (declared : ∀ declaration ∈ declarations, declaration.Built) :
      Built (.style (selectorsOf text) declarations)
  | media (text : List Char) {rules : List Rule} (nested : ∀ rule ∈ rules, Built rule) :
      Built (.media (preludeOf text) rules)
  | atRule (name prelude : String) : Built (.atRule name prelude)

theorem Rule.Built.declared {selectors : List String} {declarations : List Declaration}
    (built : (Rule.style selectors declarations).Built) :
    ∀ declaration ∈ declarations, declaration.Built := by
  cases built with
  | style _ declared => exact declared

namespace Stylesheet

/-- The rule of an open block is built, wherever the block ends. -/
def Scope.Built : Scope → Prop
  | .style selectors declarations =>
      (∃ text : List Char, text.all (!Token.isMark ·) = true ∧ selectors = selectorsOf text) ∧
        ∀ declaration ∈ declarations, declaration.Built
  | .media query rules => (∃ text, query = preludeOf text) ∧ ∀ rule ∈ rules, rule.Built
  | .atRule .. => True

/-- All that has been read of rules is built, the list that is being read has no mark, and the name
of the declaration that has begun is one. -/
structure Progress.Built (progress : Progress) : Prop where
  prelude : ∀ text, progress.place = .prelude text → text.all (!Token.isMark ·) = true
  property : ∀ name, progress.place.property? = some name → name.all Token.isNameChar = true
  scopes : ∀ scope ∈ progress.scopes, scope.Built
  rules : ∀ rule ∈ progress.rules, rule.Built

namespace Progress.Built

variable {progress next : Progress}

theorem goto (built : progress.Built) {place : Place}
    (unmarked : ∀ text, place = .prelude text → text.all (!Token.isMark ·) = true)
    (named : ∀ name, place.property? = some name → name.all Token.isNameChar = true) :
    (progress.goto place).Built :=
  ⟨unmarked, named, built.scopes, built.rules⟩

theorem enter (built : progress.Built) {scope : Scope} (opened : scope.Built) :
    (progress.enter scope).Built :=
  ⟨by simp [Progress.enter], by simp [Progress.enter, Place.property?],
    List.forall_mem_cons.mpr ⟨opened, built.scopes⟩, built.rules⟩

theorem addRule (built : progress.Built) {rule : Rule} (added : rule.Built) :
    (progress.addRule rule).Built := by
  have scopes := built.scopes
  unfold Progress.addRule
  split
  · exact ⟨by simp, by simp [Place.property?], scopes,
      List.forall_mem_cons.mpr ⟨added, built.rules⟩⟩
  · rename_i query rules outer opened
    rw [opened, List.forall_mem_cons] at scopes
    have block : (Scope.media query (rule :: rules)).Built :=
      ⟨scopes.1.1, List.forall_mem_cons.mpr ⟨added, scopes.1.2⟩⟩
    exact ⟨by simp, by simp [Place.property?], List.forall_mem_cons.mpr ⟨block, scopes.2⟩,
      built.rules⟩
  · exact built.goto (by simp) (by simp [Place.property?])

theorem addDeclaration (built : progress.Built) {declaration : Declaration}
    (added : declaration.Built) : (progress.addDeclaration declaration).Built := by
  have scopes := built.scopes
  unfold Progress.addDeclaration
  split
  · rename_i selectors declarations outer opened
    rw [opened, List.forall_mem_cons] at scopes
    have block : (Scope.style selectors (declaration :: declarations)).Built :=
      ⟨scopes.1.1, List.forall_mem_cons.mpr ⟨added, scopes.1.2⟩⟩
    exact ⟨by simp, by simp [Place.property?], List.forall_mem_cons.mpr ⟨block, scopes.2⟩,
      built.rules⟩
  · exact built.goto (by simp) (by simp [Place.property?])

/-- The rule of a block that is closed is built. -/
theorem close? (built : progress.Built) (closed : progress.close? = some next) : next.Built := by
  have scopes := built.scopes
  unfold Progress.close? at closed
  split at closed
  · cases closed
  all_goals
    rename_i outer opened
    cases closed
    rw [opened, List.forall_mem_cons] at scopes
    have outside : ({ progress with scopes := outer } : Progress).Built :=
      ⟨built.prelude, built.property, scopes.2, built.rules⟩
  · rcases scopes.1 with ⟨⟨text, unmarked, rfl⟩, declared⟩
    exact outside.addRule
      (.style unmarked fun declaration member => declared declaration (List.mem_reverse.mp member))
  · rcases scopes.1 with ⟨⟨text, rfl⟩, nested⟩
    exact outside.addRule (.media text fun rule member => nested rule (List.mem_reverse.mp member))
  · exact outside.addRule (.atRule _ _)

/-- A token keeps what has been read built. -/
theorem of_moves {token : Token} (built : progress.Built) (moved : progress.Moves token next)
    (unmarked : ∀ text, token = .prelude text → text.all (!Token.isMark ·) = true)
    (spelled : ∀ name, token = .property name → name.all Token.isNameChar = true) :
    next.Built := by
  cases moved with
  | goto _ listed named =>
      apply built.goto (fun text place => unmarked text (listed text place))
      intro name place
      rcases named name place with taken | begun
      · exact spelled name taken
      · exact built.property name begun
  | style named => exact built.enter ⟨⟨_, built.prelude _ named, rfl⟩, List.forall_mem_nil _⟩
  | media text => exact built.enter ⟨⟨text, rfl⟩, List.forall_mem_nil _⟩
  | atRule name prelude => exact built.enter trivial
  | statement name prelude => exact built.addRule (.atRule name prelude)
  | declaration token named value =>
      exact built.addDeclaration ⟨_, value, built.property _ named, rfl⟩
  | close closed => exact built.close? closed

end Progress.Built

/-- The text of a selector list has no marks. -/
theorem unmarked_of_takeFirst? {kinds : List Token.Kind} {cs rest text : List Char}
    (taken : Token.takeFirst? kinds cs = some (.prelude text, rest)) :
    text.all (!Token.isMark ·) = true := by
  rcases List.exists_of_findSome?_eq_some taken with ⟨kind, -, found⟩
  cases kind <;> simp only [Token.Kind.take?, Option.map_eq_some_iff, Prod.mk.injEq, reduceCtorEq,
    false_and, and_false, exists_const, Token.prelude.injEq] at found
  case prelude =>
    rcases found with ⟨⟨text, after⟩, spelled, rfl, -⟩
    exact (Token.leaves_of_takeAtPrelude? (Token.takeAtPrelude?_of_takePrelude? spelled)).2
  all_goals cases (Token.eq_cons_of_takeMark? found).2

/-- The name of a property is made of characters of names. -/
theorem all_isNameChar_of_takeFirst? {kinds : List Token.Kind} {cs rest name : List Char}
    (taken : Token.takeFirst? kinds cs = some (.property name, rest)) :
    name.all Token.isNameChar = true := by
  rcases List.exists_of_findSome?_eq_some taken with ⟨kind, -, found⟩
  cases kind <;> simp only [Token.Kind.take?, Option.map_eq_some_iff, Prod.mk.injEq, reduceCtorEq,
    false_and, and_false, exists_const, Token.property.injEq] at found
  case property =>
    rcases found with ⟨⟨name, after⟩, spelled, rfl, -⟩
    exact Token.all_isNameChar_of_takeProperty? spelled
  all_goals cases (Token.eq_cons_of_takeMark? found).2

/-- The rules of an accepted text are built. -/
theorem Progress.Accepts.built {progress : Progress} {cs : List Char} {rules : Stylesheet}
    (accepted : progress.Accepts cs rules) (built : progress.Built) :
    ∀ rule ∈ rules, rule.Built := by
  induction accepted with
  | finish blank complete =>
      rw [← (eq_of_finish? complete).2.2]
      exact fun rule member => built.rules rule (List.mem_reverse.mp member)
  | step taken advanced others ih =>
      exact ih (built.of_moves (moves_of_advance? advanced)
        (fun text same => unmarked_of_takeFirst? (same ▸ taken))
        fun name same => all_isNameChar_of_takeFirst? (same ▸ taken))

/-- All rules that are read are built. -/
theorem built_of_parse {source : String} {rules : Stylesheet} (parsed : parse source = .ok rules) :
    ∀ rule ∈ rules, rule.Built :=
  (parse_ok_iff.mp parsed).built
    ⟨by simp, by simp [Place.property?], List.forall_mem_nil _, List.forall_mem_nil _⟩

end Stylesheet

end StyleObjects
