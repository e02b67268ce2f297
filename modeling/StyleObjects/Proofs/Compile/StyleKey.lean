import StyleObjects.Proofs.Compile.Account
import StyleObjects.Proofs.Stylesheet.Selectors

/-!
# The shape of the keys of styles

Styles are kept under the keys of accepted selectors.  Whatever the source text, such a key is not
empty, has no white space and no character that could combine selectors or belong to the structure
of a stylesheet, and has a colon only if it is `:root` or ends in a part.
-/

namespace StyleObjects

open Text

/-! ## Keys of accepted selectors -/

/-- Characters that no key has, white space aside. -/
def isStructural (c : Char) : Bool :=
  c == '[' || c == '~' || c == '>' || c == '+' || Token.isMark c

/-- A text that ends in a colon, `part`, and a name in parentheses. -/
def EndsInPart (cs : List Char) : Prop :=
  ∃ name, name ≠ [] ∧ ')' ∉ name ∧ ':' :: ("part(".toList ++ name ++ [')']) <:+ cs

/-- The shape of the key under which styles are kept. -/
structure IsStyleKey (partSelectors : Bool) (key : String) : Prop where
  filled : key ≠ ""
  visible : ∀ c ∈ key.toList, isBlank c = false
  plain : ∀ c ∈ key.toList, isStructural c = false
  notExport : key ≠ Selector.exportSelector
  colon : ':' ∈ key.toList →
    key = Selector.rootSelector ∨ (partSelectors = true ∧ EndsInPart key.toList)

namespace Selector

/-- The characters of a key are those of its selector, without a dot at the start. -/
theorem suffix_key (selector : String) : (key selector).toList <:+ selector.toList := by
  unfold key
  split
  · rename_i name same
    rw [String.toList_ofList, same]
    exact List.suffix_cons '.' name
  · exact List.suffix_rfl

/-- A call of a part is one with a name in parentheses. -/
theorem exists_of_isPartCall {cs : List Char} (called : isPartCall cs = true) :
    ∃ name, name ≠ [] ∧ ')' ∉ name ∧ cs = "part(".toList ++ name ++ [')'] := by
  unfold isPartCall at called
  split at called
  · rename_i rest
    rw [Bool.and_eq_true, beq_iff_eq] at called
    have whole := List.takeWhile_append_dropWhile (p := (· != ')')) (l := rest)
    rw [called.2] at whole
    refine ⟨rest.takeWhile (· != ')'), ?_, ?_, ?_⟩
    · intro empty
      rw [empty, List.nil_append] at whole
      simp [← whole] at called
    · intro member
      have other := List.mem_takeWhile_imp member
      simp at other
    · rw [List.append_assoc, whole]
      rfl
  · cases called

/-- What follows a class at the start of a selector ends its key. -/
theorem suffix_key_of_skipClass? {selector : String} {rest : List Char}
    (skipped : skipClass? selector.toList = some rest) : rest <:+ (key selector).toList := by
  unfold skipClass? at skipped
  unfold key
  split at skipped
  · rw [Option.ite_none_right_eq_some, Option.some.injEq] at skipped
    rw [String.toList_ofList, ← skipped.2]
    exact List.dropWhile_suffix _
  · rw [Option.some.injEq] at skipped
    exact skipped ▸ List.suffix_rfl

/-- The key of a part ends in it. -/
theorem endsInPart_of_isPart {selector : String} (part : isPart selector.toList = true) :
    EndsInPart (key selector).toList := by
  unfold isPart at part
  split at part
  · rename_i rest skipped
    rcases exists_of_isPartCall part with ⟨name, filled, inner, rfl⟩
    exact ⟨name, filled, inner,
      (List.suffix_cons ':' _).trans (suffix_key_of_skipClass? skipped)⟩
  · rename_i rest _ skipped
    rcases exists_of_isPartCall part with ⟨name, filled, inner, rfl⟩
    exact ⟨name, filled, inner, suffix_key_of_skipClass? skipped⟩
  · cases part

/-- What a selector is, if it is neither `:root` nor `:export` and is accepted: it has no character
that combines selectors, and it is a part or a class, which has no colon. -/
theorem cases_of_kindOf {partSelectors : Bool} {cs : List Char}
    (accepted : (kindOf partSelectors cs).isAccepted = true) :
    cs.any combines = false ∧
      ((partSelectors = true ∧ isPart cs = true) ∨
        ∃ name, name ≠ [] ∧ ':' ∉ name ∧ cs = '.' :: name) := by
  unfold kindOf at accepted
  split at accepted
  · cases accepted
  · rename_i single
    refine ⟨by simpa using single, ?_⟩
    split at accepted
    · rename_i part
      exact .inl (by simpa using part)
    · split at accepted
      · split at accepted
        · cases accepted
        · rename_i plain
          simp only [Bool.or_eq_true, List.isEmpty_iff, List.contains_iff_mem, not_or] at plain
          exact .inr ⟨_, plain.1, plain.2, rfl⟩
      · cases accepted

/-- A key of a tidy selector that combines nothing has visible and plain characters. -/
theorem visible_and_plain_of_isTidy {selector : String} (tidy : isTidy selector.toList = true)
    (single : selector.toList.any combines = false) {c : Char}
    (member : c ∈ (key selector).toList) : isBlank c = false ∧ isStructural c = false := by
  have inside := (suffix_key selector).subset member
  have clean := List.all_eq_true.mp tidy c inside
  have alone := List.any_eq_false.mp single c inside
  simp only [combines, Bool.or_eq_true, beq_iff_eq, not_or] at alone
  simp only [Bool.and_eq_true, Bool.or_eq_true, Bool.not_eq_true', beq_iff_eq] at clean
  refine ⟨clean.2.resolve_left alone.1.1.2, ?_⟩
  simp [isStructural, alone, clean.1]

/-- Keys of tidy selectors that are accepted have the shape of keys. -/
theorem isStyleKey_key {partSelectors : Bool} {selector : String}
    (tidy : isTidy selector.toList = true)
    (accepted : (classify partSelectors selector).isAccepted = true) :
    IsStyleKey partSelectors (key selector) := by
  unfold classify at accepted
  split at accepted
  · cases accepted
  split at accepted
  · rename_i root
    subst root
    have same : key rootSelector = rootSelector := by decide
    rw [same]
    have clean : rootSelector.toList.all (fun c => !isBlank c && !isStructural c) = true := by
      decide
    simp only [List.all_eq_true, Bool.and_eq_true, Bool.not_eq_true'] at clean
    exact ⟨by decide, fun c member => (clean c member).1, fun c member => (clean c member).2,
      by decide, fun _ => .inl rfl⟩
  · rcases cases_of_kindOf accepted with ⟨single, kind⟩
    have characters : ∀ c ∈ (key selector).toList, isBlank c = false ∧ isStructural c = false :=
      fun c member => visible_and_plain_of_isTidy tidy single member
    have visible := fun c member => (characters c member).1
    have plain := fun c member => (characters c member).2
    rcases kind with ⟨enabled, part⟩ | ⟨name, filled, colonless, same⟩
    · have ends := endsInPart_of_isPart part
      refine ⟨?_, visible, plain, ?_, fun _ => .inr ⟨enabled, ends⟩⟩
      · intro empty
        rcases ends with ⟨name, -, -, suffix⟩
        simp [empty] at suffix
      · intro exporting
        rcases ends with ⟨name, -, -, front, whole⟩
        -- A part ends in a parenthesis, and `:export` does not.
        have last : exportSelector.toList.getLast? = some ')' := by
          rw [← exporting, ← whole, ← List.cons_append, ← List.append_assoc, List.getLast?_concat]
        exact absurd last (by decide)
    · have spelled : (key selector).toList = name := by simp [key, same]
      have absent : ':' ∉ (key selector).toList := spelled ▸ colonless
      refine ⟨?_, visible, plain, ?_, fun colon => absurd colon absent⟩
      · intro empty
        rw [empty] at spelled
        exact filled spelled.symm
      · intro exporting
        rw [exporting] at absent
        exact absent (by decide)

end Selector

/-! ## Keys of an output -/

/-- A selector that a rule has in a place is one of its selectors. -/
theorem Rule.hasSelector_of_mem_selectorsIn {options : Options} {place : Option String}
    {rule : Rule} {selector : String} (member : selector ∈ rule.selectorsIn options place) :
    rule.HasSelector selector := by
  unfold selectorsIn at member
  split at member
  · exact .style _ member
  · rename_i rules
    split at member
    · rcases List.mem_flatMap.mp member with ⟨rule, inside, own⟩
      cases rule with
      | style selectors declarations => exact .media _ inside (.style declarations own)
      | media | atRule => cases own
    · cases member
  · cases member

/-- Every key of the styles at the top, and of every block of styles in a media rule, has the shape
of a key. -/
theorem compile_isStyleKey {options : Options} {source : String} {output : Output}
    (compiled : compile options source = .ok output) :
    (∀ key ∈ output.classes.keys, IsStyleKey options.partSelectors key) ∧
      ∀ block ∈ output.media.values, ∀ key ∈ block.keys,
        IsStyleKey options.partSelectors key := by
  rcases compile_ok_iff.mp compiled with ⟨rules, parsed, -⟩
  have shape : ∀ place, ∀ key ∈ output.keysIn place, IsStyleKey options.partSelectors key := by
    intro place key member
    rw [compile_keysIn parsed compiled, List.mem_eraseDups, Options.keysOf, List.mem_map] at member
    rcases member with ⟨selector, remaining, rfl⟩
    rw [List.mem_filter, List.mem_flatMap, Options.accepts, Bool.and_eq_true] at remaining
    rcases remaining with ⟨⟨rule, sorted, own⟩, accepted, -⟩
    have inside := (Stylesheet.sort_perm rules).mem_iff.mp sorted
    have tidy := Stylesheet.tidy_of_parse parsed rule inside selector
      (Rule.hasSelector_of_mem_selectorsIn own)
    exact Selector.isStyleKey_key tidy accepted
  refine ⟨shape none, fun block member key own => ?_⟩
  rcases List.mem_map.mp member with ⟨entry, entered, rfl⟩
  have found := Table.get?_of_mem entered
  apply shape (some entry.1)
  simpa [Output.keysIn, found] using own

/-- A text with a part, and the root and another part in a media rule. -/
def partedText : CompiledText { mediaQueries := true, partSelectors := true } where
  source := ".a::part(x),\n.b\x7b\x7d@media all\x7b:root,::part(y)\x7b\x7d\x7d"
  rules := [.style [".a::part(x)", ".b"] [], .media "all" [.style [":root", "::part(y)"] []]]
  output := {
    classes := .ofList [("a::part(x)", .empty), ("b", .empty)],
    media := .ofList [("@media all", .ofList [(":root", .empty), ("::part(y)", .empty)])],
    queries := .ofList [("@media all", [⟨false, "all", []⟩])] }
  parsed := ok_of_toOption (by decide +kernel)
  ran := by decide +kernel

theorem compile_isStyleKey_of_partedText :
    compile { mediaQueries := true, partSelectors := true } partedText.source =
        .ok partedText.output ∧
      partedText.output.classes.keys = ["a::part(x)", "b"] ∧ IsStyleKey true "a::part(x)" ∧
      partedText.output.media.values.map Table.keys = [[":root", "::part(y)"]] ∧
      IsStyleKey true "::part(y)" := by
  have shapes := compile_isStyleKey partedText.compiled
  exact ⟨partedText.compiled, rfl, shapes.1 _ (List.mem_cons_self ..), rfl,
    shapes.2 _ (List.mem_singleton_self _) _ (by decide)⟩

end StyleObjects

