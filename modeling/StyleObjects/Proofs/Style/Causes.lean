import StyleObjects.Style.Translation

/-!
# Causes for which a translation fails

A declaration that has no styles is reported with its property and its value, and the body of
keyframes that is no stylesheet with the position where reading stops.  No translation fails for
another cause; in particular none fails for a number that is out of range.
-/

namespace StyleObjects

namespace Error

/-- The error is reported to the user in words: it is any but a number that is out of range. -/
def isReported : Error → Bool
  | .number _ => false
  | _ => true

/-- The error comes from a translation. -/
def isOfTranslation : Error → Bool
  | .unreadable _ | .inexpressible .. => true
  | _ => false

theorem isReported_of_isOfTranslation {error : Error} (cause : error.isOfTranslation = true) :
    error.isReported = true := by
  cases error with
  | number fault => cases cause
  | _ => rfl

end Error

/-! ## Results that fail for known causes -/

/-- A result can fail only for causes of some kind. -/
def FailsOnly {ε α : Type} (causes : ε → Prop) (result : Except ε α) : Prop :=
  ∀ error, result = .error error → causes error

namespace FailsOnly

variable {ε α β : Type} {causes : ε → Prop}

theorem ok (value : α) : FailsOnly causes (.ok value) := by
  intro error failed
  cases failed

theorem error {cause : ε} (known : causes cause) :
    FailsOnly causes (.error cause : Except ε α) := by
  intro error failed
  cases failed
  exact known

theorem mono {others : ε → Prop} {result : Except ε α} (known : FailsOnly causes result)
    (implied : ∀ error, causes error → others error) : FailsOnly others result := by
  intro error failed
  exact implied error (known error failed)

instance [DecidablePred causes] (result : Except ε α) : Decidable (FailsOnly causes result) :=
  match result with
  | .ok value => isTrue (.ok value)
  | .error cause => decidable_of_iff (causes cause) ⟨.error, fun known => known cause rfl⟩

theorem bind {result : Except ε α} {next : α → Except ε β} (first : FailsOnly causes result)
    (others : ∀ value, FailsOnly causes (next value)) : FailsOnly causes (result >>= next) := by
  cases result with
  | error cause => exact .error (first cause rfl)
  | ok value => exact others value

theorem map {result : Except ε α} (known : FailsOnly causes result) (image : α → β) :
    FailsOnly causes (result.map image) := by
  cases result with
  | error cause => exact .error (known cause rfl)
  | ok value => exact .ok _

theorem foldlM {step : β → α → Except ε β}
    (known : ∀ state item, FailsOnly causes (step state item)) (items : List α) (state : β) :
    FailsOnly causes (items.foldlM step state) := by
  induction items generalizing state with
  | nil => exact .ok state
  | cons item items ih =>
      rw [List.foldlM_cons]
      exact (known state item).bind ih

theorem mapM {image : α → Except ε β} (known : ∀ item, FailsOnly causes (image item))
    (items : List α) : FailsOnly causes (items.mapM image) := by
  induction items with
  | nil => exact .ok []
  | cons item items ih =>
      rw [List.mapM_cons]
      exact (known item).bind fun value => ih.bind fun values => .ok _

end FailsOnly

/-! ## Animations -/

namespace Animation

variable {ε : Type} {causes : ε → Prop} {frames : String → Except ε (Option Frames)}
  {rejected : ε}

theorem failsOnly_bind (looked : ∀ name, FailsOnly causes (frames name)) (name : String) :
    FailsOnly causes (bind frames name) :=
  (looked name).map _

/-- A part goes under its key, unless the key is taken. -/
theorem failsOnly_enter (rejection : causes rejected) (styles : Styles) (key : String)
    (value : Value) :
    FailsOnly causes (if styles.contains key then .error rejected
      else .ok (styles.insert key value)) := by
  split
  · exact .error rejection
  · exact .ok _

theorem failsOnly_place (rejection : causes rejected)
    (looked : ∀ name, FailsOnly causes (frames name)) (styles : Styles) (word : String) :
    FailsOnly causes (place rejected frames styles word) := by
  unfold place
  cases part? styles word with
  | some part => exact failsOnly_enter rejection styles part.1 part.2
  | none =>
      exact ((failsOnly_bind looked word).map _).bind fun part =>
        failsOnly_enter rejection styles part.1 part.2

theorem failsOnly_single (rejection : causes rejected)
    (looked : ∀ name, FailsOnly causes (frames name)) (item : String) :
    FailsOnly causes (single rejected frames item) :=
  .foldlM (failsOnly_place rejection looked) _ _

theorem failsOnly_animation (rejection : causes rejected)
    (looked : ∀ name, FailsOnly causes (frames name)) (value : String) :
    FailsOnly causes (animation rejected frames value) := by
  refine .bind (.mapM (failsOnly_single rejection looked) _) fun animations => ?_
  split
  · exact .error rejection
  · exact .ok _
  · exact .ok _

theorem failsOnly_animationName (rejection : causes rejected)
    (looked : ∀ name, FailsOnly causes (frames name)) (value : String) :
    FailsOnly causes (animationName rejected frames value) := by
  refine .bind (.mapM (failsOnly_bind looked) _) fun names => ?_
  split
  · exact .error rejection
  · exact .ok _
  · exact .ok _

end Animation

/-! ## Translations -/

/-- A result can fail only for causes that are reported. -/
abbrev Reports {α : Type} (result : Except Error α) : Prop :=
  FailsOnly (fun error => error.isReported = true) result

/-- A result can fail only for causes of a translation. -/
abbrev FailsInTranslation {α : Type} (result : Except Error α) : Prop :=
  FailsOnly (fun error => error.isOfTranslation = true) result

theorem FailsInTranslation.reports {α : Type} {result : Except Error α}
    (failing : FailsInTranslation result) : Reports result :=
  failing.mono fun _ => Error.isReported_of_isOfTranslation

namespace Translation

/-- One declaration fails for its own rejection, or where the frames of a name cannot be had. -/
theorem failsOnly_translateOne {causes : Error → Prop} {frames : FrameLookup}
    {declaration : Declaration}
    (rejection : causes (.inexpressible declaration.property (Text.stripped declaration.value)))
    (looked : ∀ name, FailsOnly causes (frames name)) :
    FailsOnly causes (translateOne frames declaration) := by
  unfold translateOne
  dsimp only
  split
  · rename_i named
    exact Animation.failsOnly_animation (named ▸ rejection) looked _
  · rename_i named
    exact Animation.failsOnly_animationName (named ▸ rejection) looked _
  · split
    · exact .ok _
    · exact .error rejection

theorem failsInTranslation_translateAll {frames : FrameLookup}
    (looked : ∀ name, FailsInTranslation (frames name)) (declarations : List Declaration) :
    FailsInTranslation (translateAll frames declarations) := by
  refine .foldlM (fun styles declaration => .map ?_ _) _ _
  exact failsOnly_translateOne (by rfl) looked

theorem failsInTranslation_addFrames (frames : Frames) (rule : Rule) :
    FailsInTranslation (addFrames frames rule) := by
  cases rule with
  | style selectors declarations =>
      exact (failsInTranslation_translateAll (fun name => .ok none) declarations).map _
  | media | atRule => exact .ok frames

end Translation

theorem failsInTranslation_readFrames (body : String) : FailsInTranslation (readFrames body) := by
  refine .bind ?_ fun rules => .foldlM Translation.failsInTranslation_addFrames _ _
  cases Stylesheet.parse body with
  | error position => exact .error rfl
  | ok rules => exact .ok rules

/-- A translation fails only for causes of its own. -/
theorem failsInTranslation_translateDeclarations (declarations : List Declaration) :
    FailsInTranslation (translateDeclarations declarations) := by
  apply Translation.failsInTranslation_translateAll
  intro name
  unfold Translation.framesOf
  split
  · exact (failsInTranslation_readFrames _).map _
  · exact .ok none

end StyleObjects
