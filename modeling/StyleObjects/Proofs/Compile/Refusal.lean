import StyleObjects.Compile.Session
import StyleObjects.Proofs.Compile.Containment
import StyleObjects.Proofs.Media.Lists

/-!
# Media rules that fail

A media rule is refused before it changes anything, or it records its queries first.  Causes tell
which of the two has happened: queries are refused for causes of their own, and the declarations in
the rule fail for others.  A rule that fails at a declaration has changed nothing outside of its
block but its queries, the note on lengths of the viewport and what has been left out.
-/

namespace StyleObjects

/-! ## Causes apart from those of queries -/

theorem Error.isOfMedia_of_isOfTranslation {error : Error} (cause : error.isOfTranslation = true) :
    error.isOfMedia = false := by
  cases error with
  | unreadable | inexpressible => rfl
  | _ => cases cause

/-- A declaration never fails for a cause of queries. -/
theorem Context.failsOnly_stylesOf (context : Context) (declaration : Declaration) :
    FailsOnly (fun error => error.isOfMedia = false) (context.stylesOf declaration) := by
  rw [stylesOf]
  refine .bind ?lengths fun converted => ?styles
  case lengths =>
    unfold convert
    split
    · exact .ok _
    · exact .error rfl
  case styles =>
    exact (failsInTranslation_of_convert context converted).mono fun _ =>
      Error.isOfMedia_of_isOfTranslation

/-! ## What stays outside of a media rule -/

/-- An output has the classes, the exports and the queries of an earlier one. -/
structure Output.SameOutside (output later : Output) : Prop where
  classes : later.classes = output.classes
  exports : later.exports = output.exports
  queries : later.queries = output.queries

namespace Output.SameOutside

theorem refl (output : Output) : output.SameOutside output := ⟨rfl, rfl, rfl⟩

theorem trans {output middle later : Output} (first : output.SameOutside middle)
    (second : middle.SameOutside later) : output.SameOutside later where
  classes := second.classes.trans first.classes
  exports := second.exports.trans first.exports
  queries := second.queries.trans first.queries

theorem alter {entry : Entry} {media : String} (placed : entry.place = some media)
    (output : Output) (change : Styles → Styles) : output.SameOutside (output.alter entry change) := by
  cases entry with
  | top key => cases placed
  | inMedia => exact ⟨rfl, rfl, rfl⟩

theorem declare {entry : Entry} {media : String} (placed : entry.place = some media)
    (output : Output) (context : Context) (declaration : Declaration) :
    output.SameOutside (output.declare context entry declaration).1 := by
  have noted : output.SameOutside (output.noteViewport context declaration) := ⟨rfl, rfl, rfl⟩
  cases lowered : context.stylesOf declaration with
  | error error =>
      rw [declare_fails lowered]
      exact noted
  | ok styles =>
      rw [declare_ok lowered]
      exact noted.trans (alter placed _ _)

end Output.SameOutside

variable {context : Context} {media : String} {output : Output}

/-- A step in a media rule keeps what is outside, whether or not it fails. -/
theorem Step.StandsIn.sameOutside {step : Step} (stands : step.StandsIn (some media))
    (context : Context) (output : Output) : output.SameOutside (step.apply context output).1 := by
  cases step with
  | skip skipped => exact ⟨rfl, rfl, rfl⟩
  | touch entry => exact .alter stands output id
  | declare entry declaration => exact .declare stands output context declaration
  | exportValue | recordQueries | fail => cases stands

/-- A step in a media rule never fails for a cause of queries. -/
theorem Step.StandsIn.isOfMedia_eq_false {step : Step} {error : Error}
    (stands : step.StandsIn (some media)) (failed : (step.apply context output).2 = some error) :
    error.isOfMedia = false := by
  cases step with
  | declare entry declaration =>
      exact context.failsOnly_stylesOf declaration error (Output.declare_eq_some_iff.mp failed)
  | skip | touch => cases failed
  | exportValue | recordQueries | fail => cases stands

/-- A run in a media rule keeps what is outside, up to the step at which it ends. -/
theorem Run.sameOutside_of {steps : List Step}
    (stand : ∀ step ∈ steps, step.StandsIn (some media)) (context : Context) (output : Output) :
    output.SameOutside (Run.of context steps output).output := by
  induction steps generalizing output with
  | nil => exact .refl output
  | cons step steps ih =>
      rw [List.forall_mem_cons] at stand
      have first := stand.1.sameOutside context output
      rcases applied : step.apply context output with ⟨next, _ | error⟩
      · rw [applied] at first
        simp only [Run.of, applied]
        exact first.trans (ih stand.2 next)
      · rw [applied] at first
        simp only [Run.of, applied]
        exact first

/-- A run in a media rule never fails for a cause of queries. -/
theorem Run.isOfMedia_eq_false {steps : List Step} {error : Error}
    (stand : ∀ step ∈ steps, step.StandsIn (some media))
    (failed : (Run.of context steps output).error = some error) : error.isOfMedia = false := by
  obtain ⟨before, step, after, reached, rfl, -, reason⟩ := Run.error_eq_some_iff.mp failed
  exact (stand step (by simp)).isOfMedia_eq_false reason

/-! ## Refused and interrupted media rules -/

theorem Plan.standsIn_of_mem_nested {options : Options} {rules : List Rule} {step : Step}
    (member : step ∈ rules.flatMap (nestedSteps options media)) : step.StandsIn (some media) := by
  rcases List.mem_flatMap.mp member with ⟨rule, -, own⟩
  exact standsIn_nestedSteps own

namespace Session

/-- A media rule that fails for a cause of queries has refused its text and leaves the output as it
was.  One that fails for another cause has kept the classes and the exports and holds the queries
that its text describes. -/
theorem mediaRule_refused_or_recorded (options : Options) (context : Context) (query : String)
    (rules : List Rule) (output : Output) :
    let run := Operation.run options context output (.mediaRule query rules)
    ∀ error, run.error = some error →
      (error.isOfMedia = true →
        MediaQuery.parseAccepted query = .error error ∧ run.output = output) ∧
      (error.isOfMedia = false →
        run.output.classes = output.classes ∧ run.output.exports = output.exports ∧
        ∃ queries, MediaQuery.parse? query = some queries ∧
          run.output.queries.get? (MediaQuery.keyOf query) = some queries) := by
  intro run error failed
  cases accepted : MediaQuery.parseAccepted query with
  | error cause =>
      have refused : run = ⟨output, some cause, []⟩ := by
        simp only [run, Operation.run, Plan.mediaSteps, accepted]
        rfl
      rw [refused, Option.some.injEq] at failed
      subst failed
      have known := MediaQuery.failsOnly_parseAccepted query cause accepted
      refine ⟨fun _ => ⟨rfl, by rw [refused]⟩, fun other => ?_⟩
      rw [known] at other
      cases other
  | ok queries =>
      have stand : ∀ step ∈ rules.flatMap (Plan.nestedSteps options (MediaQuery.keyOf query)),
          step.StandsIn (some (MediaQuery.keyOf query)) := fun _ => Plan.standsIn_of_mem_nested
      -- What the rule does after it has recorded its queries.
      let inner := Run.of context (rules.flatMap (Plan.nestedSteps options (MediaQuery.keyOf query)))
        { output with queries := output.queries.insert (MediaQuery.keyOf query) queries }
      have reached : run.output = inner.output ∧ run.error = inner.error := by
        simp only [run, Operation.run, Plan.mediaSteps, accepted]
        exact ⟨rfl, rfl⟩
      have kept := Run.sameOutside_of stand context
        { output with queries := output.queries.insert (MediaQuery.keyOf query) queries }
      have cause : error.isOfMedia = false :=
        Run.isOfMedia_eq_false stand (reached.2.symm.trans failed)
      refine ⟨fun other => ?_, fun _ => ?_⟩
      · rw [cause] at other
        cases other
      · rw [reached.1]
        refine ⟨kept.classes, kept.exports, queries,
          (MediaQuery.parseAccepted_eq_ok_iff.mp accepted).1, ?_⟩
        rw [kept.queries, Table.get?_insert, if_pos rfl]

/-- An output with a class, an export and a block. -/
def startedOutput : Output where
  classes := .ofList [("a", .ofList [("color", .text "red")])]
  media := .ofList [("@media print", .ofList [("a", .empty)])]
  queries := .ofList [("@media print", [⟨false, "print", []⟩])]
  exports := .ofList [("b", "1")]

/-- A text whose second query asks for a width that is no length. -/
def refusedText : String := "print, screen and (width: 1em)"

/-- A rule in which the second selector fails at its last declaration. -/
def interruptedRules : List Rule :=
  [.style [".a", ".b"] [⟨"width", "1vw"⟩], .style [".c"] [⟨"line-height", "normal"⟩]]

theorem mediaRule_refused_or_recorded_of_startedOutput :
    let context : Context := ⟨.empty, .ok (.ofInt 16)⟩
    let refused := Operation.run {} context startedOutput (.mediaRule refusedText interruptedRules)
    let ended := Operation.run {} context startedOutput (.mediaRule "print" interruptedRules)
    (refused.error = some (.mediaExpression "(width: 1em)") ∧ refused.output = startedOutput) ∧
      ended.error = some (.inexpressible "line-height" "normal") ∧
      ended.output.classes = startedOutput.classes ∧
      ended.output.exports = startedOutput.exports ∧
      ended.output.media ≠ startedOutput.media ∧
      ∃ queries, MediaQuery.parse? "print" = some queries ∧
        ended.output.queries.get? "@media print" = some queries := by
  intro context refused ended
  have refusal : refused.error = some (.mediaExpression "(width: 1em)") := by decide +kernel
  have interruption : ended.error = some (.inexpressible "line-height" "normal") := by
    decide +kernel
  have unchanged := (mediaRule_refused_or_recorded {} context refusedText interruptedRules
    startedOutput _ refusal).1 rfl
  have recorded := (mediaRule_refused_or_recorded {} context "print" interruptedRules
    startedOutput _ interruption).2 rfl
  exact ⟨⟨refusal, unchanged.2⟩, interruption, recorded.1, recorded.2.1, by decide +kernel,
    recorded.2.2⟩

end Session

end StyleObjects
