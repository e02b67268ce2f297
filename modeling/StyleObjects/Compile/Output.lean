import StyleObjects.Media.Match
import StyleObjects.Style.Value

/-!
# What a compilation gives

Styles by selector, the same for every accepted media rule, the queries of those rules, exported
values, whether a length refers to the viewport, and what has been left out and why.
-/

namespace StyleObjects

/-- Why a selector or a rule is left out. -/
inductive SkipReason where
  | unsupportedSelector
  | ignored
  | exportInMedia
  | unsupportedRule
  | mediaDisabled
  deriving DecidableEq, Repr

/-- The words for a reason. -/
def SkipReason.text : SkipReason → String
  | .unsupportedSelector => "unsupported selector"
  | .ignored => "ignored by ignore_rule"
  | .exportInMedia => ":export inside @media"
  | .unsupportedRule => "unsupported rule"
  | .mediaDisabled => "media query parsing disabled"

/-- A selector or a rule that has been left out, with the key of the media rule it stands in. -/
structure Skipped where
  selector : String
  reason : SkipReason
  media : Option String
  deriving DecidableEq, Repr

/-- The words that report what has been left out. -/
def Skipped.text (skipped : Skipped) : String :=
  let place := match skipped.media with
    | some media => if media.isEmpty then "" else " [" ++ media ++ "]"
    | none => ""
  skipped.selector ++ place ++ ": " ++ skipped.reason.text

/-- Where styles are kept: under a selector's key, at the top or in a media rule. -/
inductive Entry where
  | top (key : String)
  | inMedia (media key : String)
  deriving DecidableEq, Repr

/-- Everything that a compilation gives. -/
structure Output where
  classes : Table Styles := .empty
  media : Table (Table Styles) := .empty
  queries : Table (List MediaQuery) := .empty
  exports : Table String := .empty
  usesViewport : Bool := false
  skipped : List Skipped := []
  deriving DecidableEq, Repr

namespace Output

/-- Change the styles of an entry, which is made if it is not there. -/
def alter (output : Output) (entry : Entry) (change : Styles → Styles) : Output :=
  match entry with
  | .top key => { output with classes := output.classes.alter key .empty change }
  | .inMedia media key =>
    { output with media := output.media.alter media .empty (·.alter key .empty change) }

/-- Make an entry if it is not there. -/
def touch (output : Output) (entry : Entry) : Output :=
  output.alter entry id

/-- Note that something has been left out. -/
def skip (output : Output) (skipped : Skipped) : Output :=
  { output with skipped := output.skipped ++ [skipped] }

/-- Add the styles of a key in one media rule, if its queries hold. -/
def addMedia (output : Output) (key : String) (environment : Environment) (styles : Styles)
    (block : String × Table Styles) : Except MatchFault Styles :=
  match block.2.get? key with
  | none => .ok styles
  | some added => do
    let queries := (output.queries.get? block.1).getD []
    if ← MediaQuery.matchAny environment queries then return styles.merge added else return styles

/-- The styles of a key in an environment: those at the top, and those of the media rules that
match, in their order.  Without an environment there are only those at the top. -/
def stylesFor (output : Output) (key : String) (environment : Option Environment) :
    Except MatchFault Styles :=
  let styles := (output.classes.get? key).getD .empty
  match environment with
  | none => .ok styles
  | some environment => output.media.entries.foldlM (output.addMedia key environment) styles

end Output

end StyleObjects
