import StyleObjects.Proofs.Compile.Replacement
import StyleObjects.Proofs.Style.Conversion

/-!
# Line heights

What may be a line height is looked at twice: before a declaration is lowered, and when its value is
read as a length.  The two looks agree.  A length in root font sizes, which only the first one takes,
is not left in a value by the time, and a unit that the renderer has not is refused by the second.
-/

namespace StyleObjects

open Text (stripped)

/-! ## Measures without root font sizes -/

namespace Rem

theorem take?_sign {sign : Char} (mark : sign ∈ ['-', '+']) (rest : List Char) :
    take? (sign :: rest) = none := by
  have signs : ['-', '+'].all (!Text.isDecimalDigit ·) = true := by decide
  have digitless : Text.isDecimalDigit sign = false := by
    simpa using List.all_eq_true.mp signs sign mark
  have pointless : sign ≠ '.' := by
    rintro rfl
    exact absurd mark (by decide)
  have none : Numeral.takeUnsigned? (sign :: rest) = none := by
    simp [Numeral.takeUnsigned?, Numeral.takeMantissa?, Numeral.takeDigits, digitless, pointless]
  rw [take?, none]

/-- A text that starts with a length has that one first. -/
theorem lengths_of_take? {cs rest : List Char} {number : Numeral}
    (taken : take? cs = some (number, rest)) : lengths false cs = number :: lengths true rest := by
  cases cs with
  | nil => cases taken
  | cons c cs => exact lengths_length (by rwa [if_neg Bool.false_ne_true])

/-- A text has the same lengths with a sign before it. -/
theorem lengths_takeSign (cs : List Char) :
    lengths false (Numeral.takeSign cs).2 = lengths false cs := by
  have unsigned {sign : Char} (mark : sign ∈ ['-', '+']) (rest : List Char) :
      lengths false rest = lengths false (sign :: rest) := by
    have signs : ['-', '+'].all (!joins ·) = true := by decide
    have apart : joins sign = false := by simpa using List.all_eq_true.mp signs sign mark
    rw [lengths_other (by rw [take?_sign mark, ite_self]), apart]
  unfold Numeral.takeSign
  split
  · exact unsigned List.mem_cons_self _
  · exact unsigned (List.mem_cons_of_mem _ List.mem_cons_self) _
  · rfl

/-- A trimmed text without lengths is not one itself, with or without a sign. -/
theorem hasUnit_rem_eq_false {text : String} (trimmed : stripped text = text)
    (bare : lengths false text.toList = []) : Measure.hasUnit ["rem"] text = false := by
  rw [Bool.eq_false_iff, Ne, Measure.hasUnit_singleton_iff]
  rintro ⟨signed, taken⟩
  have whole : Measure.withoutLineBreak text.toList = text.toList := by
    rw [← trimmed]
    exact Measure.withoutLineBreak_stripped text
  rw [whole] at taken
  obtain ⟨⟨number, unsigned⟩, numeral, same⟩ := Option.map_eq_some_iff.mp taken
  obtain ⟨-, rfl⟩ := Prod.mk.inj same
  have length : take? (Numeral.takeSign text.toList).2 = some (number, []) :=
    take?_eq_some_iff.mpr ⟨numeral, rfl⟩
  rw [← lengths_takeSign, lengths_of_take? length] at bare
  cases bare

end Rem

/-- Without root font sizes, the lengths and percentages of a stylesheet are those that the renderer
has. -/
theorem Scalar.isLengthWord_eq {word : String} (bare : Measure.hasUnit ["rem"] word = false) :
    isLengthWord word = (Measure.isLength word || Measure.isPercentage word ||
      Measure.isViewportLength word) := by
  have length : Measure.isLength word = (Measure.isPixels word || Measure.isNumber word) := by
    have units := Measure.hasUnit_append ["", "px"] ["rem"] word
    rw [bare, Bool.or_false] at units
    have apart := Measure.hasUnit_append [""] ["px"] word
    exact units.trans (apart.trans (Bool.or_comm _ _))
  rw [length]
  rfl

/-! ## The declaration -/

namespace Context

/-- A trimmed height is read as a length. -/
theorem lower_lineHeight (context : Context) {value : String} (trimmed : stripped value = value) :
    context.lower ⟨"line-height", value⟩ =
      match Scalar.readLength? value with
      | some scalar => .ok (.ofList [("lineHeight", .scalar scalar)])
      | none => .error (.inexpressible "line-height" value) := by
  have apart : ¬Translation.keyframesMark.toList.isPrefixOf "line-height".toList = true := by decide
  have unmarked : Translation.keyframesName? ⟨"line-height", value⟩ = none := if_neg apart
  have plain : "line-height" ∉ borderShorthands ++ ["animation", "animation-name"] := by decide
  have unruled : "line-height" ∉ Translation.ruledProperties ++ ["animation", "animation-name"] := by
    decide
  rw [lower_of_plain context plain, translateDeclarations_of_scalar unmarked unruled, trimmed]
  rfl

/-- A line height is a length, a percentage or a length of the viewport, after its lengths have been
converted. -/
theorem stylesOf_lineHeight {context : Context} {value inPixels : String}
    (trimmed : stripped value = value)
    (converted : Rem.toPixels context.remSize value = .ok inPixels) :
    context.stylesOf ⟨"line-height", value⟩ =
      if Measure.isLength inPixels || Measure.isPercentage inPixels ||
          Measure.isViewportLength inPixels then
        .ok (.ofList [("lineHeight", .scalar (.read inPixels))])
      else .error (.inexpressible "line-height" inPixels) := by
  have kept := Rem.stripped_of_toPixels trimmed converted
  have bare := Rem.hasUnit_rem_eq_false kept (Rem.lengths_of_toPixels converted)
  have known := Scalar.isLengthWord_eq bare
  have guarded : isLineHeight inPixels =
      (Scalar.isLengthWord inPixels || Measure.isUnsupported inPixels) := by
    rw [known, isLineHeight, Bool.or_right_comm (Measure.isLength inPixels)]
  rw [stylesOf, convert, converted]
  simp only [bind, Except.bind]
  rw [guardLineHeight, lower_lineHeight context kept, guarded, ← known]
  cases length : Scalar.isLengthWord inPixels with
  | true => simp [Scalar.readLength?, length]
  | false =>
      -- What passes the guard here has a unit that the renderer has not.
      cases unsupported : Measure.isUnsupported inPixels with
      | true => simp [Scalar.readLength?_eq_none unsupported]
      | false => simp

end Context

namespace Session

variable {output : Output}

/-- One declaration gives an entry without styles its own ones, or it fails and gives it none. -/
theorem addDeclarations_singleton (context : Context) (entry : Entry) (declaration : Declaration)
    (blank : (output.styles? entry).getD .empty = .empty) :
    let run := addDeclarations context entry [declaration] output
    (run.error, run.stylesOf entry) =
      match context.stylesOf declaration with
      | .ok styles => (none, styles)
      | .error cause => (some cause, .empty) := by
  intro run
  cases given : context.stylesOf declaration with
  | ok styles =>
      obtain ⟨accepted, own⟩ :=
        (addDeclarations_eq_ok_iff blank).mp (Context.extend_singleton_eq_ok_iff.mpr given)
      exact Prod.ext accepted own
  | error cause =>
      have failed : addDeclarations context entry [declaration] output =
          ⟨(output.touch entry).noteViewport context declaration, some cause, [.touch entry]⟩ := by
        simp [addDeclarations, Plan.entrySteps, Run.of, Step.apply, Output.declare_fails given]
      simp only [run, failed, Run.stylesOf]
      rw [Output.styles?_noteViewport, Output.touch, Output.styles?_alter, if_pos rfl, blank]
      rfl

/-- A trimmed line height is accepted if and only if it is a length, a percentage or a length of the
viewport after its conversion, and it is the only style of the entry then.  Any other is refused with
the converted value, and the entry has no styles. -/
theorem addDeclarations_lineHeight (context : Context) (entry : Entry) {value inPixels : String}
    (blank : (output.styles? entry).getD .empty = .empty) (trimmed : stripped value = value)
    (converted : Rem.toPixels context.remSize value = .ok inPixels) :
    let run := addDeclarations context entry [⟨"line-height", value⟩] output
    let accepted := Measure.isLength inPixels || Measure.isPercentage inPixels ||
      Measure.isViewportLength inPixels
    (run.error = none ↔ accepted = true) ∧
      (accepted = true →
        run.stylesOf entry = .ofList [("lineHeight", .scalar (.read inPixels))]) ∧
      (accepted = false →
        run.error = some (.inexpressible "line-height" inPixels) ∧ run.stylesOf entry = .empty) := by
  intro run accepted
  have single := addDeclarations_singleton context entry ⟨"line-height", value⟩ blank
  rw [Context.stylesOf_lineHeight trimmed converted] at single
  cases length : accepted with
  | true =>
      rw [if_pos length, Prod.mk.injEq] at single
      refine ⟨iff_of_true single.1 rfl, fun _ => single.2, ?_⟩
      intro refused
      cases refused
  | false =>
      rw [if_neg (Bool.eq_false_iff.mp length), Prod.mk.injEq] at single
      have stopped : run.error ≠ none := by
        rw [single.1]
        exact Option.some_ne_none _
      refine ⟨iff_of_false stopped Bool.false_ne_true, ?_, fun _ => single⟩
      intro accepted
      cases accepted

/-- A height in root font sizes is one in pixels.  Two heights, and one in a unit that the renderer
has not, are refused in an output with other entries. -/
theorem addDeclarations_lineHeight_of_units :
    let context : Context := ⟨.empty, .ok (.ofInt 10)⟩
    let entry := Entry.inMedia "@media print" "a"
    let output : Output := { classes := .ofList [("a", .ofList [("color", .text "red")])] }
    let run (value : String) := addDeclarations context entry [⟨"line-height", value⟩] output
    ((run "-1.5rem").error = none ∧
        (run "-1.5rem").stylesOf entry = .ofList [("lineHeight", .integer (-15))]) ∧
      ((run "1 2rem").error = some (.inexpressible "line-height" "1 20px") ∧
        (run "1 2rem").stylesOf entry = .empty) ∧
      ((run "2em").error = some (.inexpressible "line-height" "2em") ∧
        (run "2em").stylesOf entry = .empty) := by
  intro context entry output run
  have blank : (output.styles? entry).getD .empty = .empty := by decide +kernel
  have height (value inPixels : String) (trimmed : stripped value = value)
      (converted : Rem.toPixels context.remSize value = .ok inPixels) :=
    addDeclarations_lineHeight context entry blank trimmed converted
  refine ⟨?_, ?_, ?_⟩
  · obtain ⟨accepted, own, -⟩ := height "-1.5rem" "-15px" (by decide +kernel) (by decide +kernel)
    exact ⟨accepted.mpr (by decide +kernel), own (by decide +kernel)⟩
  · obtain ⟨-, -, refused⟩ :=
      height "1 2rem" "1 20px" (by decide +kernel) (by decide +kernel)
    exact refused (by decide +kernel)
  · obtain ⟨-, -, refused⟩ := height "2em" "2em" (by decide +kernel) (by decide +kernel)
    exact refused (by decide +kernel)

end Session

end StyleObjects
