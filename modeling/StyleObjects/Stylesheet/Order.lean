import StyleObjects.Stylesheet.Basic
import StyleObjects.Stylesheet.Selector

/-!
# The order of rules

Rules are compiled in three groups, and in each in the order in which they stand: style rules, then
media rules, then rules that export values, so that every class name is known before a name is
exported.  At-rules come last.
-/

namespace StyleObjects

/-- The groups of rules, in the order in which they are compiled. -/
inductive RuleGroup where
  | style
  | media
  | valueExport
  | other
  deriving DecidableEq, Repr

/-- The group of a rule. -/
def Rule.group : Rule → RuleGroup
  | .style selectors _ =>
    if selectors.contains Selector.exportSelector then .valueExport else .style
  | .media .. => .media
  | .atRule .. => .other

/-- The rules in the order in which they are compiled. -/
def Stylesheet.sort (rules : Stylesheet) : Stylesheet :=
  let ofGroup (group : RuleGroup) := rules.filter (·.group = group)
  ofGroup .style ++ ofGroup .media ++ ofGroup .valueExport ++ ofGroup .other

end StyleObjects
