import Mathlib.Data.List.Forall2
import StyleObjects.Proofs.Compile.Occurrence

/-!
# Style rules at the top and in a media rule

Style rules that export nothing are compiled in a media rule as they are at the top.  Each step of
the one run has its counterpart in the other, and corresponding steps fail with the same error or
keep the block of the media rule equal to the styles at the top.
-/

namespace StyleObjects

/-! ## Corresponding outputs -/

/-- The same in a media rule. -/
def Skipped.within (media : String) (skipped : Skipped) : Skipped :=
  { skipped with media := some media }

/-- The block of a media rule is what another output has at the top, and both outputs have left out
the same and seen the same lengths. -/
structure Output.Mirrors (media : String) (top nested : Output) : Prop where
  block : (nested.media.get? media).getD .empty = top.classes
  viewport : nested.usesViewport = top.usesViewport
  skipped : nested.skipped = top.skipped.map (Skipped.within media)

namespace Output.Mirrors

variable {media : String} {top nested : Output}

theorem alter (mirrors : Mirrors media top nested) (key : String) (change : Styles → Styles) :
    Mirrors media (top.alter (.top key) change) (nested.alter (.inMedia media key) change) where
  block := by
    simp only [Output.alter, Table.get?_alter, ↓reduceIte, Option.getD_some, mirrors.block]
  viewport := mirrors.viewport
  skipped := mirrors.skipped

theorem skip (mirrors : Mirrors media top nested) (skipped : Skipped) :
    Mirrors media (top.skip skipped) (nested.skip (skipped.within media)) where
  block := mirrors.block
  viewport := mirrors.viewport
  skipped := by
    simp only [Output.skip, mirrors.skipped, List.map_append, List.map_cons, List.map_nil]

theorem seeViewport (mirrors : Mirrors media top nested) (seen : Bool) :
    Mirrors media (if seen then { top with usesViewport := true } else top)
      (if seen then { nested with usesViewport := true } else nested) := by
  cases seen with
  | true => exact ⟨mirrors.block, rfl, mirrors.skipped⟩
  | false => exact mirrors

theorem recordQueries (mirrors : Mirrors media top nested) (queries : Table (List MediaQuery)) :
    Mirrors media top { nested with queries } :=
  ⟨mirrors.block, mirrors.viewport, mirrors.skipped⟩

/-- A declaration for corresponding entries fails with the same error, if it does. -/
theorem declare (mirrors : Mirrors media top nested) (context : Context) (key : String)
    (declaration : Declaration) :
    Mirrors media (top.declare context (.top key) declaration).1
        (nested.declare context (.inMedia media key) declaration).1 ∧
      (nested.declare context (.inMedia media key) declaration).2 =
        (top.declare context (.top key) declaration).2 := by
  unfold Output.declare
  cases context.convert declaration with
  | error error => exact ⟨mirrors, rfl⟩
  | ok declaration =>
      simp only
      cases Context.guardLineHeight declaration with
      | error error => exact ⟨mirrors, rfl⟩
      | ok _ =>
          simp only
          -- A viewport length is noted in both outputs or in none.
          have noted := mirrors.seeViewport (Measure.isViewportLength declaration.value)
          cases context.lower declaration with
          | error error => exact ⟨noted, rfl⟩
          | ok styles => exact ⟨noted.alter key _, rfl⟩

end Output.Mirrors

/-! ## Corresponding steps -/

/-- What a step at the top is in a media rule. -/
inductive Step.MovesTo (media : String) : Step → Step → Prop where
  | skip (selector : String) (reason : SkipReason) :
      MovesTo media (.skip ⟨selector, reason, none⟩) (.skip ⟨selector, reason, some media⟩)
  | touch (key : String) : MovesTo media (.touch (.top key)) (.touch (.inMedia media key))
  | declare (key : String) (declaration : Declaration) :
      MovesTo media (.declare (.top key) declaration) (.declare (.inMedia media key) declaration)

/-- Corresponding steps keep outputs corresponding, and fail with the same error, if they do. -/
theorem Step.MovesTo.apply {media : String} {step moved : Step} {top nested : Output}
    (moves : Step.MovesTo media step moved) (mirrors : Output.Mirrors media top nested)
    (context : Context) :
    Output.Mirrors media (step.apply context top).1 (moved.apply context nested).1 ∧
      (moved.apply context nested).2 = (step.apply context top).2 := by
  cases moves with
  | skip selector reason => exact ⟨mirrors.skip _, rfl⟩
  | touch key => exact ⟨mirrors.alter key id, rfl⟩
  | declare key declaration => exact mirrors.declare context key declaration

/-- Runs of corresponding steps end in corresponding outputs, with the same error if they fail. -/
theorem Run.mirrors_of_movesTo {media : String} {steps moved : List Step} {top nested : Output}
    (moves : List.Forall₂ (Step.MovesTo media) steps moved)
    (mirrors : Output.Mirrors media top nested) (context : Context) :
    Output.Mirrors media (Run.of context steps top).output (Run.of context moved nested).output ∧
      (Run.of context moved nested).error = (Run.of context steps top).error := by
  induction moves generalizing top nested with
  | nil => exact ⟨mirrors, rfl⟩
  | cons first rest ih =>
      rename_i step other steps others
      have applied := first.apply mirrors context
      rcases top₁ : step.apply context top with ⟨top', _ | error⟩ <;>
        rcases nested₁ : other.apply context nested with ⟨nested', _ | error'⟩ <;>
        simp only [top₁, nested₁, reduceCtorEq, and_false, Option.some.injEq] at applied
      · simp only [Run.of, top₁, nested₁]
        exact ih applied.1
      · simp only [Run.of, top₁, nested₁]
        exact ⟨applied.1, congrArg some applied.2⟩

namespace Plan

theorem movesTo_entrySteps (media key : String) (declarations : List Declaration) :
    List.Forall₂ (Step.MovesTo media) (entrySteps (.top key) declarations)
      (entrySteps (.inMedia media key) declarations) := by
  refine .cons (.touch key) ?_
  rw [List.forall₂_map_left_iff, List.forall₂_map_right_iff, List.forall₂_same]
  exact fun declaration _ => .declare key declaration

/-- The steps of a selector that exports nothing. -/
theorem movesTo_selectorSteps (options : Options) (media : String)
    (declarations : List Declaration) {selector : String}
    (silent : selector ≠ Selector.exportSelector) :
    List.Forall₂ (Step.MovesTo media) (selectorSteps options none declarations selector)
      (selectorSteps options (some media) declarations selector) := by
  unfold selectorSteps
  cases classified : Selector.classify options.partSelectors selector with
  | valueExport => exact absurd (Selector.classify_eq_valueExport_iff.mp classified) silent
  | rejected => exact .cons (.skip selector _) .nil
  | root | styleClass | part =>
      cases options.ignores selector with
      | true => exact .cons (.skip selector _) .nil
      | false => exact movesTo_entrySteps media (Selector.key selector) declarations

/-- The steps of a style rule that exports nothing. -/
theorem movesTo_styleSteps (options : Options) (media : String) {selectors : List String}
    (silent : Selector.exportSelector ∉ selectors) (declarations : List Declaration) :
    List.Forall₂ (Step.MovesTo media) (styleSteps options none selectors declarations)
      (styleSteps options (some media) selectors declarations) := by
  refine List.rel_flatMap (R := fun left right => left = right ∧ left ∈ selectors)
    (List.forall₂_same.mpr fun selector member => ⟨rfl, member⟩) ?_
  rintro selector _ ⟨rfl, member⟩
  exact movesTo_selectorSteps options media declarations fun same => silent (same ▸ member)

/-- The steps of style rules that export nothing. -/
theorem movesTo_nestedSteps (options : Options) (media : String) {rules : List Rule}
    (silent : ∀ rule ∈ rules, rule.group = .style) :
    List.Forall₂ (Step.MovesTo media) (rules.flatMap (ruleSteps options))
      (rules.flatMap (nestedSteps options media)) := by
  refine List.rel_flatMap (R := fun left right => left = right ∧ left.group = .style)
    (List.forall₂_same.mpr fun rule member => ⟨rfl, silent rule member⟩) ?_
  rintro rule _ ⟨rfl, grouped⟩
  cases rule with
  | style selectors declarations =>
      apply movesTo_styleSteps options media
      simpa [Rule.group] using grouped
  | media | atRule => cases grouped

end Plan

/-! ## Whole media rules -/

/-- Style rules that export nothing, compiled in a media rule and one after the other at the top,
fail with the same error or give the same: the block of the media rule is what the styles at the
top are, the same lengths have been seen, and the same has been left out, which is told of the media
rule. -/
theorem Run.mediaSteps_agree (options : Options) (context : Context) {query : String}
    {queries : List MediaQuery} (accepted : MediaQuery.parseAccepted query = .ok queries)
    {rules : List Rule} (silent : ∀ rule ∈ rules, rule.group = .style) :
    let media := MediaQuery.keyOf query
    let nested := Run.of context (Plan.mediaSteps options query rules) {}
    let top := Run.of context (rules.flatMap (Plan.ruleSteps options)) {}
    nested.error = top.error ∧
      (nested.output.media.get? media).getD .empty = top.output.classes ∧
      nested.output.usesViewport = top.output.usesViewport ∧
      nested.output.skipped = top.output.skipped.map (Skipped.within media) := by
  intro media nested top
  have start : Output.Mirrors media {} {} := ⟨rfl, rfl, rfl⟩
  have moves := Plan.movesTo_nestedSteps options media silent
  have run := Run.mirrors_of_movesTo moves
    (start.recordQueries (Table.empty.insert media queries)) context
  simp only [nested, Plan.mediaSteps, accepted]
  exact ⟨run.2, run.1.block, run.1.viewport, run.1.skipped⟩

/-- Style rules of which the second one fails at its last declaration. -/
def failingRules : List Rule :=
  [.style [".a", "b > c"] [⟨"width", "1vw"⟩],
    .style [".b", ".c"] [⟨"color", "red"⟩, ⟨"line-height", "normal"⟩]]

theorem Run.mediaSteps_agree_of_failingRules :
    ∃ queries, MediaQuery.parseAccepted "print" = .ok queries ∧
      (∀ rule ∈ failingRules, rule.group = .style) ∧
      let nested := Run.of ⟨.empty, .ok (.ofInt 16)⟩ (Plan.mediaSteps {} "print" failingRules) {}
      let top := Run.of ⟨.empty, .ok (.ofInt 16)⟩
        (failingRules.flatMap (Plan.ruleSteps {})) {}
      top.error = some (.inexpressible "line-height" "normal") ∧ nested.error = top.error ∧
        (nested.output.media.get? "@media print").getD .empty = top.output.classes ∧
        nested.output.usesViewport = top.output.usesViewport ∧
        nested.output.skipped = top.output.skipped.map (Skipped.within "@media print") := by
  have accepted : MediaQuery.parseAccepted "print" = .ok [⟨false, "print", []⟩] := by
    decide +kernel
  have silent : ∀ rule ∈ failingRules, rule.group = .style := by decide
  exact ⟨_, accepted, silent, by decide +kernel,
    Run.mediaSteps_agree {} ⟨.empty, .ok (.ofInt 16)⟩ accepted silent⟩

end StyleObjects
