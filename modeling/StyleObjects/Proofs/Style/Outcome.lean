import StyleObjects.Proofs.Number.Whole
import StyleObjects.Proofs.Style.Causes
import StyleObjects.Proofs.Style.Keys

/-!
# The outcome of one declaration

A declaration on its own has styles, or it is rejected as a whole: with its property and with its
trimmed value, whichever of its words is at fault.  Nothing else can go wrong on the way, as every
text that is converted is a number and no number is divided by zero.
-/

namespace StyleObjects

/-! ## Conversions -/

/-- A measure is a number, which the reader of numbers reads as a whole text, and its unit. -/
theorem Measure.exists_number_of_read? {text : String} {measure : Measure}
    (read : read? text = some measure) :
    ∃ number, withoutLineBreak text.toList = number ++ measure.unit ∧
      Number.readReal? (String.ofList number) = some measure.number.toBinary64 := by
  rcases Option.map_eq_some_iff.mp read with ⟨⟨signed, unit⟩, taken, rfl⟩
  exact SignedNumeral.readReal?_of_take? taken

/-- A ratio to zero is no ratio. -/
theorem Single.aspectRatio?_eq_none {value width height : String} {divisor : Binary64}
    (parts : words (spaceSlashes value) = [width, "/", height])
    (read : number? height = some divisor) (zero : divisor.isZero = true) :
    aspectRatio? value = none := by
  rw [aspectRatio?, parts]
  cases number? width <;> simp [read, zero]

/-! ## One declaration -/

namespace Translation

variable {declaration : Declaration}

/-- A declaration of styles gives no body of keyframes, so there are no frames to be had. -/
theorem framesOf_bodies_singleton (unmarked : keyframesName? declaration = none) (name : String) :
    framesOf (bodies [declaration]) name = .ok none := by
  have none : bodies [declaration] = .empty := by
    rw [bodies, List.filterMap_cons, unmarked]
    rfl
  rw [framesOf, none, Table.get?_empty]

end Translation

/-- A declaration on its own is translated or rejected as a whole. -/
theorem failsOnly_translateDeclarations_singleton {declaration : Declaration}
    (unmarked : Translation.keyframesName? declaration = none) :
    FailsOnly (· = .inexpressible declaration.property (Text.stripped declaration.value))
      (translateDeclarations [declaration]) := by
  have alone := translateDeclarations_append_singleton (List.forall_mem_nil _) unmarked
  rw [List.nil_append] at alone
  rw [alone]
  refine .map ?_ _
  refine Translation.failsOnly_translateOne (by rfl) fun name => ?_
  rw [Translation.framesOf_bodies_singleton unmarked]
  exact .ok none

/-- A declaration that is no body of keyframes either has styles or is rejected with its property
and its trimmed value.  The numbers in it are all read: the number of a measure is a whole number
text, and a ratio to zero is rejected before anything is divided. -/
theorem translateDeclarations_singleton_cases (property value : String)
    (plain : ¬ Translation.keyframesMark.toList <+: property.toList) :
    ((∃ styles, translateDeclarations [⟨property, value⟩] = .ok styles) ∨
      translateDeclarations [⟨property, value⟩] =
        .error (.inexpressible property (Text.stripped value))) ∧
    (∀ text measure, Measure.read? text = some measure →
      ∃ number, Measure.withoutLineBreak text.toList = number ++ measure.unit ∧
        Number.readReal? (String.ofList number) = some measure.number.toBinary64) ∧
    (property = "aspect-ratio" → ∀ width height divisor,
      words (Single.spaceSlashes (Text.stripped value)) = [width, "/", height] →
        Single.number? height = some divisor → divisor.isZero = true →
          translateDeclarations [⟨property, value⟩] =
            .error (.inexpressible property (Text.stripped value))) := by
  have unmarked : Translation.keyframesName? ⟨property, value⟩ = none := by
    rw [← Option.not_isSome_iff_eq_none, Context.keyframesName?_isSome, List.isPrefixOf_iff_prefix]
    exact plain
  refine ⟨?_, fun text measure => Measure.exists_number_of_read?, ?_⟩
  · cases outcome : translateDeclarations [⟨property, value⟩] with
    | ok styles => exact .inl ⟨styles, rfl⟩
    | error cause =>
        exact .inr (congrArg _ (failsOnly_translateDeclarations_singleton unmarked cause outcome))
  · rintro rfl width height divisor parts read zero
    have unlisted : "aspect-ratio" ≠ "animation" ∧ "aspect-ratio" ≠ "animation-name" := by decide
    have refused : Translation.expand? "aspect-ratio" (Text.stripped value) = none := by
      simp only [Translation.expand?]
      exact Single.aspectRatio?_eq_none parts read zero
    rw [translateDeclarations_singleton unmarked unlisted, refused]

/-- A ratio to zero, whose numbers have digits of another script and a power. -/
theorem translateDeclarations_singleton_cases_of_zeroRatio :
    ¬ Translation.keyframesMark.toList <+: "aspect-ratio".toList ∧
      translateDeclarations [⟨"aspect-ratio", " ١٦/0e999 "⟩] =
        .error (.inexpressible "aspect-ratio" "١٦/0e999") := by
  have plain : ¬ Translation.keyframesMark.toList <+: "aspect-ratio".toList := by decide
  rcases translateDeclarations_singleton_cases "aspect-ratio" " ١٦/0e999 " plain with
    ⟨-, -, rejected⟩
  exact ⟨plain, rejected rfl "١٦" "0e999" (.zero false) (by decide +kernel) (by decide +kernel) rfl⟩

end StyleObjects
