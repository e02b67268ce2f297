/-!
# Stylesheets

A stylesheet is a list of rules in the order in which they stand.  The body of an at-rule other
than `@media` plays no part and is not kept.
-/

namespace StyleObjects

/-- A property with its value, both as they are written. -/
structure Declaration where
  property : String
  value : String
  deriving DecidableEq, Repr

/-- A rule of a stylesheet. -/
inductive Rule where
  /-- Selectors that share a block of declarations. -/
  | style (selectors : List String) (declarations : List Declaration)
  /-- Rules for the media that a query describes. -/
  | media (query : String) (rules : List Rule)
  /-- Any other at-rule, by its name and the text before its body. -/
  | atRule (name prelude : String)
  deriving Repr

namespace Rule

mutual

/-- Rules are equal or not. -/
def decideEq : (left right : Rule) → Decidable (left = right)
  | .style selectors declarations, .style others more =>
    if same : selectors = others ∧ declarations = more then isTrue (by rw [same.1, same.2])
    else isFalse (by simpa using same)
  | .media query rules, .media other more =>
    match decideEqList rules more with
    | isTrue same =>
      if named : query = other then isTrue (by rw [named, same])
      else isFalse (by simp [named])
    | isFalse different => isFalse (by simp [different])
  | .atRule name prelude, .atRule other more =>
    if same : name = other ∧ prelude = more then isTrue (by rw [same.1, same.2])
    else isFalse (by simpa using same)
  | .style .., .media .. | .style .., .atRule .. | .media .., .style .. | .media .., .atRule ..
  | .atRule .., .style .. | .atRule .., .media .. => isFalse (by simp)

/-- Lists of rules are equal or not. -/
def decideEqList : (left right : List Rule) → Decidable (left = right)
  | [], [] => isTrue rfl
  | left :: lefts, right :: rights =>
    match decideEq left right, decideEqList lefts rights with
    | isTrue head, isTrue tail => isTrue (by rw [head, tail])
    | isFalse different, _ => isFalse (by simp [different])
    | _, isFalse different => isFalse (by simp [different])
  | [], _ :: _ | _ :: _, [] => isFalse (by simp)

end

instance : DecidableEq Rule := decideEq

end Rule

/-- Rules in the order in which they stand. -/
abbrev Stylesheet := List Rule

end StyleObjects
