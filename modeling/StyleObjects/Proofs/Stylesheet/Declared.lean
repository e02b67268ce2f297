import StyleObjects.Proofs.Stylesheet.Relabelling

/-!
# A rule with one declaration

The text of a rule with one declaration is read up to the colon whatever the value is, as long as
the value can end there.  The declaration that the rule then starts with is made of what is taken as
the value, and it is the only one if all of the value is taken.
-/

namespace StyleObjects

/-- The text of a rule with one declaration. -/
def Declaration.ruleText (declaration : Declaration) (selector : String) : String :=
  selector ++ " \x7b " ++ declaration.property ++ ": " ++ declaration.value ++ " \x7d"

namespace Declaration

theorem ruleText_eq (declaration : Declaration) (selector : String) :
    declaration.ruleText selector = selector ++ " \x7b" ++
      (" " ++ declaration.property ++ ": " ++ declaration.value ++ " \x7d") := by
  apply String.ext
  simp [ruleText]

/-- A declaration that is read in a class is read in a frame. -/
theorem parse_ruleText {declaration : Declaration}
    (parsed : Stylesheet.parse (declaration.ruleText ".a") = .ok [.style [".a"] [declaration]]) :
    Stylesheet.parse (declaration.ruleText "from") = .ok [.style ["from"] [declaration]] := by
  have ruled : Stylesheet.isSelector ".a".toList = true := by decide
  have framed : Stylesheet.isSelector "from".toList = true := by decide
  -- Only the selector differs, so the rest of the rule is read in the same way.
  rw [ruleText_eq] at parsed ⊢
  rcases Stylesheet.parse_relabel ruled framed parsed with ⟨own, following, same, relabelled⟩
  cases same
  exact relabelled

end Declaration

namespace Stylesheet

namespace Progress

variable {name : List Char} {selectors : List String} {declarations : List Declaration}

/-- After the colon a value is taken, and the declaration of it follows those that have been
read. -/
theorem Accepts.exists_value {text : List Char} {rules : Stylesheet}
    (accepted : (⟨.colon name, [.style selectors declarations], []⟩ : Progress).Accepts text
      rules) :
    ∃ own following, rules = .style selectors (declarations.reverse ++
      declarationOf name (Token.takeValue text).1 :: own) :: following := by
  cases accepted with
  | finish blank complete => cases (eq_of_finish? complete).2.1
  | step taken advanced later =>
      rcases List.exists_of_findSome?_eq_some taken with ⟨kind, member, found⟩
      obtain rfl := List.mem_singleton.mp member
      rcases Option.map_eq_some_iff.mp found with ⟨⟨value, rest⟩, given, same⟩
      cases same
      cases advanced
      have value : (Token.takeValue text).1 = value := by
        unfold Token.takeValue? at given
        split at given
        · cases given
        · exact congrArg Prod.fst (Option.some.inj given)
      rcases later.relabel (.inl rfl) selectors with ⟨own, following, same, -⟩
      refine ⟨own, following, ?_⟩
      rw [same, value, List.reverse_cons, List.append_assoc]
      rfl

/-- A value that ends before the last brace ends the declaration and the rule. -/
theorem accepts_of_takeValue {text value : List Char}
    (taken : Token.takeValue text = (value, ['\x7d'])) (filled : value ≠ []) :
    (⟨.colon name, [.style selectors declarations], []⟩ : Progress).Accepts text
      [.style selectors (declarations.reverse ++ [declarationOf name value])] := by
  have some : Token.takeFirst? [.value] text = some (.value value, ['\x7d']) := by
    apply Token.takeFirst?_cons
    rw [Token.Kind.take?, Token.takeValue?, taken]
    split
    · rename_i empty
      cases empty
      exact absurd rfl filled
    · rfl
  have closed : (⟨.body, [.style selectors (declarationOf name value :: declarations)], []⟩ :
      Progress).Accepts ['\x7d'] [.style selectors
        (declarationOf name value :: declarations).reverse] :=
    .step rfl rfl (.finish rfl rfl)
  rw [List.reverse_cons] at closed
  exact .step some rfl closed

end Progress

variable {declaration : Declaration} {selector : String} {cs : List Char}

/-- A rule with one declaration is read if and only if it is read from the value on. -/
theorem parse_ruleText_iff (canonical : isSelector selector.toList = true)
    (named : isPropertyName declaration.property.toList = true)
    (stripped : Comment.strip declaration.value.toList = cs)
    (reaches : Token.reachesEnd (' ' :: (cs ++ [' ', '\x7d'])) = true) (rules : Stylesheet) :
    parse (declaration.ruleText selector) = .ok rules ↔
      (⟨.colon declaration.property.toList, [.style [selector] []], []⟩ : Progress).Accepts
        (' ' :: (cs ++ [' ', '\x7d'])) rules := by
  have name : '/' ∉ declaration.property.toList :=
    not_mem_isLowerName (all_isLowerNameChar_of_isPropertyName named)
  have first : '/' ∉ ' ' :: (declaration.property.toList ++ [':', ' ']) := by simp [name]
  have last : '/' ∉ [' ', '\x7d'] := by decide
  have bare := Comment.strip_surrounded first last declaration.value.toList
  rw [stripped] at bare
  have text : (" " ++ declaration.property ++ ": " ++ declaration.value ++ " \x7d").toList =
      ' ' :: (declaration.property.toList ++ [':', ' ']) ++
        (declaration.value.toList ++ [' ', '\x7d']) := by
    simp
  have awaits : (⟨.body, [.style [selector] []], []⟩ : Progress).AwaitsDeclaration :=
    ⟨.inl rfl, rfl⟩
  have reads := Progress.Reads.propertyColon awaits ⟨[' '], rfl⟩ named reaches
  rw [Declaration.ruleText_eq, parse_rule_iff canonical, text, bare]
  simpa [Progress.goto] using reads.accepts_iff

end Stylesheet

end StyleObjects
