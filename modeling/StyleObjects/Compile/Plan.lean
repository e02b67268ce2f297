import StyleObjects.Compile.Options
import StyleObjects.Compile.Step
import StyleObjects.Media.Validation
import StyleObjects.Stylesheet.Order

/-!
# The steps of a stylesheet

The steps of every rule are known before the first one is taken: no rule depends on what another one
gives.
-/

namespace StyleObjects.Plan

/-- The steps of a selector that names a style object. -/
def entrySteps (entry : Entry) (declarations : List Declaration) : List Step :=
  .touch entry :: declarations.map (.declare entry)

/-- The steps of an export block. -/
def exportSteps (declarations : List Declaration) : List Step :=
  declarations.map fun declaration => .exportValue declaration.property declaration.value

/-- The entry of a key, at the top or in a media rule. -/
def entryOf (media : Option String) (key : String) : Entry :=
  match media with
  | none => .top key
  | some media => .inMedia media key

/-- The steps of a selector of a rule, at the top or in a media rule, where nothing is exported. -/
def selectorSteps (options : Options) (media : Option String) (declarations : List Declaration)
    (selector : String) : List Step :=
  match Selector.classify options.partSelectors selector with
  | .valueExport =>
    if media.isSome then [.skip ⟨selector, .exportInMedia, media⟩] else exportSteps declarations
  | .rejected => [.skip ⟨selector, .unsupportedSelector, media⟩]
  | .root | .styleClass | .part =>
    if options.ignores selector then [.skip ⟨selector, .ignored, media⟩]
    else entrySteps (entryOf media (Selector.key selector)) declarations

/-- The steps of a style rule. -/
def styleSteps (options : Options) (media : Option String) (selectors : List String)
    (declarations : List Declaration) : List Step :=
  selectors.flatMap (selectorSteps options media declarations)

/-- The steps of a rule in a media rule. -/
def nestedSteps (options : Options) (media : String) : Rule → List Step
  | .style selectors declarations => styleSteps options (some media) selectors declarations
  | .media query _ => [.skip ⟨MediaQuery.keyOf query, .unsupportedRule, some media⟩]
  | .atRule name _ => [.skip ⟨"@" ++ name, .unsupportedRule, some media⟩]

/-- The steps of a media rule. -/
def mediaSteps (options : Options) (query : String) (rules : List Rule) : List Step :=
  match MediaQuery.parseAccepted query with
  | .error error => [.fail error]
  | .ok queries =>
    let media := MediaQuery.keyOf query
    .recordQueries media queries :: rules.flatMap (nestedSteps options media)

/-- The steps of a rule. -/
def ruleSteps (options : Options) : Rule → List Step
  | .style selectors declarations => styleSteps options none selectors declarations
  | .media query rules =>
    if options.mediaQueries then mediaSteps options query rules
    else [.skip ⟨MediaQuery.keyOf query, .mediaDisabled, none⟩]
  | .atRule name _ => [.skip ⟨"@" ++ name, .unsupportedRule, none⟩]

/-- The steps of a stylesheet. -/
def steps (options : Options) (rules : Stylesheet) : List Step :=
  rules.sort.flatMap (ruleSteps options)

end StyleObjects.Plan
