import StyleObjects.Proofs.Compile.Media

/-!
# The place of every step

What a step leaves out, makes or changes stands at the top or in one media rule.  Steps that stand
in a media rule come from a rule with that text, whose queries are accepted and recorded, and media
rules are the only ones that can fail on purpose.
-/

namespace StyleObjects

/-- A step leaves something out, or makes or changes an entry, in a place.  Values are exported at
the top only. -/
def Step.StandsIn (place : Option String) : Step → Prop
  | .skip skipped => skipped.media = place
  | .touch entry | .declare entry _ => entry.place = place
  | .exportValue .. => place = none
  | .recordQueries .. | .fail _ => False

/-- A step stands in one place at most. -/
theorem Step.StandsIn.unique {step : Step} {place other : Option String}
    (stands : step.StandsIn place) (again : step.StandsIn other) : place = other := by
  cases step with
  | skip | touch | declare => exact stands.symm.trans again
  | exportValue name value => exact stands.trans again.symm
  | recordQueries | fail => cases stands

namespace Plan

theorem standsIn_selectorSteps {options : Options} {media : Option String}
    {declarations : List Declaration} {selector : String} {step : Step}
    (member : step ∈ selectorSteps options media declarations selector) : step.StandsIn media := by
  have placed := ((entryOf_eq_iff media (Selector.key selector) _).mp rfl).1
  rcases selectorSteps_cases options media declarations selector with
    ⟨-, steps⟩ | ⟨-, -, rfl, steps⟩ | ⟨-, -, reason, steps⟩ <;> rw [steps] at member
  · rcases List.mem_cons.mp member with rfl | member
    · exact placed
    · rcases List.mem_map.mp member with ⟨declaration, -, rfl⟩
      exact placed
  · rcases List.mem_map.mp member with ⟨declaration, -, rfl⟩
    rfl
  · rw [List.mem_singleton.mp member]
    rfl

theorem standsIn_styleSteps {options : Options} {media : Option String}
    {selectors : List String} {declarations : List Declaration} {step : Step}
    (member : step ∈ styleSteps options media selectors declarations) : step.StandsIn media := by
  rcases List.mem_flatMap.mp member with ⟨selector, -, own⟩
  exact standsIn_selectorSteps own

theorem standsIn_nestedSteps {options : Options} {media : String} {rule : Rule} {step : Step}
    (member : step ∈ nestedSteps options media rule) : step.StandsIn (some media) := by
  cases rule with
  | style selectors declarations => exact standsIn_styleSteps member
  | media | atRule =>
      rw [List.mem_singleton.mp member]
      rfl

/-- All the steps that a rule can have. -/
inductive RuleStep (options : Options) : Rule → Step → Prop where
  | top {rule : Rule} {step : Step} (stands : step.StandsIn none) : RuleStep options rule step
  | refuse {text : String} {nested : List Rule} {error : Error}
      (asked : options.mediaQueries = true)
      (refused : MediaQuery.parseAccepted text = .error error) :
      RuleStep options (.media text nested) (.fail error)
  | record {text : String} {nested : List Rule} {queries : List MediaQuery}
      (asked : options.mediaQueries = true)
      (accepted : MediaQuery.parseAccepted text = .ok queries) :
      RuleStep options (.media text nested) (.recordQueries (MediaQuery.keyOf text) queries)
  | inside {text : String} {nested : List Rule} {queries : List MediaQuery} {step : Step}
      (asked : options.mediaQueries = true)
      (accepted : MediaQuery.parseAccepted text = .ok queries)
      (stands : step.StandsIn (some (MediaQuery.keyOf text))) :
      RuleStep options (.media text nested) step

theorem ruleStep_of_mem {options : Options} {rule : Rule} {step : Step}
    (member : step ∈ ruleSteps options rule) : RuleStep options rule step := by
  cases rule with
  | style selectors declarations => exact .top (standsIn_styleSteps member)
  | media text nested =>
      rw [ruleSteps] at member
      split at member
      · rename_i asked
        unfold mediaSteps at member
        split at member
        · rename_i error refused
          rw [List.mem_singleton.mp member]
          exact .refuse asked refused
        · rename_i queries accepted
          rcases List.mem_cons.mp member with rfl | member
          · exact .record asked accepted
          · rcases List.mem_flatMap.mp member with ⟨rule, -, own⟩
            exact .inside asked accepted (standsIn_nestedSteps own)
      · rw [List.mem_singleton.mp member]
        exact .top rfl
  | atRule name prelude =>
      rw [List.mem_singleton.mp member]
      exact .top rfl

/-- Every step of a stylesheet is a step of one of its rules. -/
theorem exists_ruleStep_of_mem {options : Options} {rules : Stylesheet} {step : Step}
    (member : step ∈ steps options rules) : ∃ rule ∈ rules, RuleStep options rule step := by
  rcases mem_steps.mp member with ⟨rule, inside, own⟩
  exact ⟨rule, inside, ruleStep_of_mem own⟩

/-- A step that stands in a media rule comes from a media rule with that key, which is accepted. -/
theorem exists_media_of_standsIn {options : Options} {rules : Stylesheet} {step : Step}
    {media : String} (member : step ∈ steps options rules) (stands : step.StandsIn (some media)) :
    options.mediaQueries = true ∧ ∃ text nested, Rule.media text nested ∈ rules ∧
      MediaQuery.keyOf text = media := by
  rcases exists_ruleStep_of_mem member with ⟨rule, inside, own⟩
  cases own with
  | top other => cases stands.unique other
  | refuse | record => cases stands
  | inside asked accepted other =>
      exact ⟨asked, _, _, inside, Option.some.inj (other.unique stands)⟩

end Plan

end StyleObjects
