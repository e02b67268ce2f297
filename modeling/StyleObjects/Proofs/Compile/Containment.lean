import StyleObjects.Proofs.Compile.Place
import StyleObjects.Proofs.Style.Causes
import StyleObjects.Proofs.Style.Rem

/-!
# Errors that are reported

A compilation ends with the error of the first step that fails.  All errors are reported in words
but one: a length in root font sizes that has no finite number of pixels.  So a stylesheet compiles
or is reported if and only if the run comes to no declaration with such a length.
-/

namespace StyleObjects

/-! ## The first step that fails -/

theorem Takes.error_append {context : Context} {before : List Step} {output reached : Output}
    (taken : Takes context before output reached) (rest : List Step) :
    (Run.of context (before ++ rest) output).error = (Run.of context rest reached).error := by
  rw [taken.run_append]

/-- A run ends with an error if and only if all steps before some step can be taken, and that step
fails with the error. -/
theorem Run.error_eq_some_iff {context : Context} {steps : List Step} {output : Output}
    {error : Error} :
    (Run.of context steps output).error = some error ↔
      ∃ before step after reached, steps = before ++ step :: after ∧
        Takes context before output reached ∧ (step.apply context reached).2 = some error := by
  constructor
  · induction steps generalizing output with
    | nil => simp [Run.of]
    | cons step steps ih =>
        intro failed
        rcases applied : step.apply context output with ⟨next, _ | cause⟩
        · simp only [Run.of, applied] at failed
          rcases ih failed with ⟨before, failing, after, reached, rfl, taken, reason⟩
          exact ⟨step :: before, failing, after, reached, rfl,
            .cons (Step.takes_iff.mpr applied) taken, reason⟩
        · simp only [Run.of, applied] at failed
          exact ⟨[], step, steps, output, rfl, .nil output, by rw [applied, failed]⟩
  · rintro ⟨before, step, after, reached, rfl, taken, failed⟩
    rw [taken.error_append]
    rcases applied : step.apply context reached with ⟨next, reason⟩
    rw [applied] at failed
    cases failed
    simp [Run.of, applied]

/-- A stylesheet does not compile if it cannot be read, or if its run ends with an error. -/
theorem compile_error_iff {options : Options} {source : String} {error : Error} :
    compile options source = .error error ↔
      (∃ position, Stylesheet.parse (Compilation.cutOf options source).text = .error position ∧
        error = .unreadable position) ∨
      ∃ rules, Stylesheet.parse (Compilation.cutOf options source).text = .ok rules ∧
        (Run.of (Compilation.contextOf options (Compilation.cutOf options source))
          (Plan.steps options rules) {}).error = some error := by
  simp only [compile, Compilation.of]
  cases Stylesheet.parse (Compilation.cutOf options source).text with
  | error position => simp [eq_comm]
  | ok rules =>
      simp only [reduceCtorEq, false_and, exists_false, Except.ok.injEq, exists_eq_left', false_or]
      cases (Run.of (Compilation.contextOf options (Compilation.cutOf options source))
          (Plan.steps options rules) {}).error with
      | some cause => simp
      | none => simp

/-! ## Declarations -/

/-- Every length of a declaration in root font sizes has a finite number of pixels. -/
def Declaration.HasFiniteLengths (size : Binary64) (declaration : Declaration) : Prop :=
  ∀ number ∈ Rem.lengths false declaration.value.toList,
    ((number.toBinary64 false).mul size).isFinite = true

namespace Context

theorem failsInTranslation_guardLineHeight (declaration : Declaration) :
    FailsInTranslation (guardLineHeight declaration) := by
  unfold guardLineHeight
  split
  · exact .error rfl
  · exact .ok ()

theorem failsInTranslation_lower (context : Context) (declaration : Declaration) :
    FailsInTranslation (context.lower declaration) := by
  unfold lower
  split
  · exact (failsInTranslation_translateDeclarations _).map _
  · exact failsInTranslation_translateDeclarations _
  · exact failsInTranslation_translateDeclarations _

/-- Whatever its lengths are in pixels, a declaration fails only in translation. -/
theorem failsInTranslation_of_convert (context : Context) (converted : Declaration) :
    FailsInTranslation (do
      guardLineHeight converted
      context.lower converted) :=
  (failsInTranslation_guardLineHeight converted).bind fun _ =>
    failsInTranslation_lower context converted

/-- A declaration fails only for causes that are reported if and only if its lengths are finite. -/
theorem reports_stylesOf_iff {context : Context} {size : Binary64}
    (sized : context.remSize = .ok size) (declaration : Declaration) :
    Reports (context.stylesOf declaration) ↔ declaration.HasFiniteLengths size := by
  rw [Declaration.HasFiniteLengths, ← Rem.toPixels_succeeds_iff, stylesOf, convert, sized]
  cases Rem.toPixels (.ok size) declaration.value with
  | error fault =>
      simp only [reduceCtorEq, exists_false, iff_false]
      intro reported
      cases reported _ rfl
  | ok value =>
      simp only [Except.ok.injEq, exists_eq', iff_true]
      exact (FailsOnly.ok { declaration with value }).bind fun converted =>
        (failsInTranslation_of_convert context converted).reports

end Context

theorem Output.declare_eq_some_iff {context : Context} {entry : Entry} {declaration : Declaration}
    {output : Output} {error : Error} :
    (output.declare context entry declaration).2 = some error ↔
      context.stylesOf declaration = .error error := by
  cases lowered : context.stylesOf declaration with
  | error cause => simp [declare_error lowered]
  | ok styles => simp [declare_ok lowered]

/-! ## Media rules -/

/-- The error comes from the queries of a media rule. -/
def Error.isOfMedia : Error → Bool
  | .mediaQuery _ | .mediaType _ | .mediaFeature _ | .mediaExpression _ => true
  | _ => false

theorem Error.isReported_of_isOfMedia {error : Error} (cause : error.isOfMedia = true) :
    error.isReported = true := by
  cases error with
  | number fault => cases cause
  | _ => rfl

namespace MediaQuery

theorem isOfMedia_of_expressionError? {expression : MediaExpression} {error : Error}
    (failed : expressionError? expression = some error) : error.isOfMedia = true := by
  unfold expressionError? at failed
  split at failed
  · cases failed
    rfl
  · split at failed <;> cases failed
    rfl

theorem isOfMedia_of_error? {query : MediaQuery} {error : Error}
    (failed : error? query = some error) : error.isOfMedia = true := by
  unfold error? at failed
  split at failed
  · cases failed
    rfl
  · rcases List.exists_of_findSome?_eq_some failed with ⟨expression, -, own⟩
    exact isOfMedia_of_expressionError? own

/-- Queries are refused only for causes of their own. -/
theorem failsOnly_parseAccepted (text : String) :
    FailsOnly (fun error => error.isOfMedia = true) (parseAccepted text) := by
  unfold parseAccepted
  split
  · exact .error rfl
  · split
    · rename_i failed
      rcases List.exists_of_findSome?_eq_some failed with ⟨query, -, own⟩
      exact .error (isOfMedia_of_error? own)
    · exact .ok _

end MediaQuery

/-- A stylesheet fails on purpose only with errors that are reported. -/
theorem Plan.isReported_of_fail_mem {options : Options} {rules : Stylesheet} {error : Error}
    (member : .fail error ∈ steps options rules) : error.isReported = true := by
  rcases exists_ruleStep_of_mem member with ⟨rule, -, own⟩
  cases own with
  | top stands | inside asked accepted stands => cases stands
  | refuse asked refused =>
      exact Error.isReported_of_isOfMedia (MediaQuery.failsOnly_parseAccepted _ error refused)

/-! ## Whole stylesheets -/

/-- A run of steps from the empty output comes to a declaration for some entry. -/
def Reaches (context : Context) (steps : List Step) (declaration : Declaration) : Prop :=
  ∃ before entry after reached, steps = before ++ .declare entry declaration :: after ∧
    Takes context before {} reached

/-- A run of a stylesheet ends with an error that is reported, if with any, if and only if it comes
to no declaration with a length that is out of range. -/
theorem Plan.isReported_of_run_iff (options : Options) {context : Context} {size : Binary64}
    (sized : context.remSize = .ok size) (rules : Stylesheet) :
    (∀ error, (Run.of context (steps options rules) {}).error = some error →
        error.isReported = true) ↔
      ∀ declaration, Reaches context (steps options rules) declaration →
        declaration.HasFiniteLengths size := by
  simp only [Run.error_eq_some_iff]
  constructor
  · rintro reported declaration ⟨before, entry, after, reached, split, taken⟩
    refine (Context.reports_stylesOf_iff sized declaration).mp fun error failed => ?_
    exact reported error ⟨before, _, after, reached, split, taken,
      Output.declare_eq_some_iff.mpr failed⟩
  · rintro finite error ⟨before, step, after, reached, split, taken, failed⟩
    cases step with
    | declare entry declaration =>
        have lengths := finite declaration ⟨before, entry, after, reached, split, taken⟩
        exact (Context.reports_stylesOf_iff sized declaration).mpr lengths error
          (Output.declare_eq_some_iff.mp failed)
    | exportValue name value =>
        simp only [Step.apply, Output.exportValue] at failed
        split at failed <;> cases failed
        rfl
    | fail cause =>
        cases failed
        exact isReported_of_fail_mem (by rw [split]; simp)
    | skip | touch | recordQueries => cases failed

/-- A stylesheet compiles, or fails with an error that is reported, if and only if its run comes to
no declaration with a length in root font sizes that has no finite number of pixels. -/
theorem compile_reports_iff {options : Options} {size : Binary64}
    (sized : options.remSize = .ok size) (source : String) :
    Reports (compile options source) ↔
      ∀ rules, Stylesheet.parse (Compilation.cutOf options source).text = .ok rules →
        ∀ declaration,
          Reaches (Compilation.contextOf options (Compilation.cutOf options source))
            (Plan.steps options rules) declaration →
          declaration.HasFiniteLengths size := by
  have inContext : (Compilation.contextOf options (Compilation.cutOf options source)).remSize =
    .ok size := sized
  have run := Plan.isReported_of_run_iff options inContext
  constructor
  · intro reported rules parsed
    refine (run rules).mp fun error failed => ?_
    exact reported error (compile_error_iff.mpr (.inr ⟨rules, parsed, failed⟩))
  · intro finite error failed
    rcases compile_error_iff.mp failed with ⟨position, -, rfl⟩ | ⟨rules, parsed, ended⟩
    · rfl
    · exact (run rules).mpr (finite rules parsed) error ended

/-- A length whose number of root font sizes is beyond the range of numbers. -/
def overflowingText : String := ".a\x7bwidth:1e400rem\x7d"

/-- The length is infinite in pixels, and that is not reported. -/
theorem not_reports_of_overflowingText :
    (Binary64.ofInt 16).isFinite = true ∧ ({} : Options).remSize = .ok (.ofInt 16) ∧
      ¬Reports (compile {} overflowingText) :=
  ⟨by decide, rfl, by decide +kernel⟩

/-- The same length in a rule that is left out, and one that is in range. -/
def leftOutText : String := "b\x7bwidth:1e400rem\x7d.a\x7bmargin:1e-9rem 2rem\x7d"

theorem compile_reports_iff_of_leftOutText :
    ({} : Options).remSize = .ok (.ofInt 16) ∧ Reports (compile {} leftOutText) ∧
      ∀ rules, Stylesheet.parse (Compilation.cutOf {} leftOutText).text = .ok rules →
        ∀ declaration,
          Reaches (Compilation.contextOf {} (Compilation.cutOf {} leftOutText))
            (Plan.steps {} rules) declaration →
          declaration.HasFiniteLengths (.ofInt 16) := by
  have reported : Reports (compile {} leftOutText) := by decide +kernel
  exact ⟨rfl, reported, (compile_reports_iff rfl leftOutText).mp reported⟩

end StyleObjects
