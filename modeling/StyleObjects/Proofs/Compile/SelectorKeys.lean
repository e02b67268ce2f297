import StyleObjects.Proofs.Compile.StyleKey

/-!
# Selectors told apart by their keys

The key of an accepted selector is the selector without a dot at its start.  A selector without that
dot starts with a colon, and no class name does, so a key shows whether a dot has been dropped.  The
selector can be read back from the key, and distinct selectors have distinct entries of styles.
-/

namespace StyleObjects.Selector

variable {partSelectors : Bool} {selector other : String}

/-! ## How accepted selectors start -/

/-- A selector starts with a colon, or with a dot and a class name, which starts with no colon. -/
def IsHeaded (cs : List Char) : Prop :=
  (∃ rest, cs = ':' :: rest) ∨ ∃ c rest, c ≠ ':' ∧ cs = '.' :: c :: rest

/-- A part has a class name before it, or nothing. -/
theorem isHeaded_of_isPart {cs : List Char} (part : isPart cs = true) : IsHeaded cs := by
  have colon : ∃ rest, skipClass? cs = some (':' :: rest) := by
    unfold isPart at part
    split at part
    · exact ⟨_, ‹_›⟩
    · exact ⟨_, ‹_›⟩
    · cases part
  rcases colon with ⟨rest, skipped⟩
  unfold skipClass? at skipped
  split at skipped
  · rename_i name
    rw [Option.ite_none_right_eq_some, Option.any_eq_true] at skipped
    rcases skipped with ⟨⟨c, start, named⟩, -⟩
    rcases List.head?_eq_some_iff.mp start with ⟨after, rfl⟩
    exact .inr ⟨c, after, by simpa using named, rfl⟩
  · exact .inl ⟨rest, Option.some.inj skipped⟩

theorem isHeaded_of_isAccepted (accepted : (classify partSelectors selector).isAccepted = true) :
    IsHeaded selector.toList := by
  unfold classify at accepted
  split at accepted
  · cases accepted
  · split at accepted
    · rename_i root
      exact .inl ⟨['r', 'o', 'o', 't'], by rw [root]; rfl⟩
    · rcases (cases_of_kindOf accepted).2 with ⟨-, part⟩ | ⟨name, filled, colonless, same⟩
      · exact isHeaded_of_isPart part
      · rcases List.exists_cons_of_ne_nil filled with ⟨c, rest, rfl⟩
        rw [List.mem_cons, not_or] at colonless
        exact .inr ⟨c, rest, Ne.symm colonless.1, same⟩

/-! ## Selectors read back from keys -/

/-- The selector that has a key. -/
def ofKey (key : String) : String :=
  if key.toList.head? = some ':' then key else String.ofList ('.' :: key.toList)

theorem ofKey_key (headed : IsHeaded selector.toList) : ofKey (key selector) = selector := by
  rcases headed with ⟨rest, same⟩ | ⟨c, rest, other, same⟩
  · have whole : key selector = selector := by simp [key, same]
    have coloned : selector.toList.head? = some ':' := by rw [same, List.head?_cons]
    rw [whole, ofKey, if_pos coloned]
  · have named : key selector = String.ofList (c :: rest) := by simp [key, same]
    have dotted : (c :: rest).head? ≠ some ':' := by simpa using other
    rw [named, ofKey, String.toList_ofList, if_neg dotted, ← same, String.ofList_toList]

/-- Accepted selectors have the same key only if they are equal. -/
theorem key_eq_key_iff (accepted : (classify partSelectors selector).isAccepted = true)
    (others : (classify partSelectors other).isAccepted = true) :
    key selector = key other ↔ selector = other := by
  refine ⟨fun same => ?_, congrArg key⟩
  rw [← ofKey_key (isHeaded_of_isAccepted accepted), same,
    ofKey_key (isHeaded_of_isAccepted others)]

theorem key_eq_key_iff_of_parts :
    (classify true ".a::part(b)").isAccepted = true ∧
      (classify true "::part(b)").isAccepted = true ∧
      key ".a::part(b)" ≠ key "::part(b)" := by
  have classed : (classify true ".a::part(b)").isAccepted = true := by decide
  have bare : (classify true "::part(b)").isAccepted = true := by decide
  exact ⟨classed, bare, mt (key_eq_key_iff classed bare).mp (by decide)⟩

end StyleObjects.Selector
