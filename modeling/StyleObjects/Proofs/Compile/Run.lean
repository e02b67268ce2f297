import StyleObjects.Compile.Compilation

/-!
# Successful runs

A step that does not fail changes the output in one of five ways.  A run that takes all of its steps
is a chain of such changes, and a stylesheet compiles exactly when its text can be read and all of
its steps can be taken from the empty output.
-/

namespace StyleObjects

/-- A result that is there as an option is there. -/
theorem ok_of_toOption {ε α : Type} {result : Except ε α} {value : α}
    (given : result.toOption = some value) : result = .ok value := by
  cases result with
  | error error => simp [Except.toOption] at given
  | ok found =>
      cases given
      rfl

/-! ## The styles of declarations -/

namespace Context

/-- The styles of one declaration, once its lengths are in pixels and its line height is one. -/
def stylesOf (context : Context) (declaration : Declaration) : Except Error Styles := do
  let declaration ← context.convert declaration
  guardLineHeight declaration
  context.lower declaration

theorem property_of_convert {context : Context} {declaration inPixels : Declaration}
    (converted : context.convert declaration = .ok inPixels) :
    inPixels.property = declaration.property := by
  unfold convert at converted
  split at converted <;> cases converted
  rfl

theorem stylesOf_eq_ok_iff {context : Context} {declaration : Declaration} {styles : Styles} :
    context.stylesOf declaration = .ok styles ↔
      ∃ inPixels, context.convert declaration = .ok inPixels ∧
        guardLineHeight inPixels = .ok () ∧ context.lower inPixels = .ok styles := by
  unfold stylesOf
  cases converted : context.convert declaration with
  | error cause => simp [bind, Except.bind]
  | ok inPixels =>
      cases guarded : guardLineHeight inPixels with
      | error cause => simp [guarded, bind, Except.bind]
      | ok _ => simp [guarded, bind, Except.bind]

/-- A declaration has a length that refers to the viewport. -/
def seesViewport (context : Context) (declaration : Declaration) : Bool :=
  match context.convert declaration with
  | .ok declaration => Measure.isViewportLength declaration.value
  | .error _ => false

/-- The styles after a block of declarations, whose own styles are merged one after the other. -/
def extend (context : Context) (styles : Styles) (declarations : List Declaration) :
    Except Error Styles :=
  declarations.foldlM (fun styles declaration => (context.stylesOf declaration).map styles.merge)
    styles

end Context

/-- Note a viewport length of a declaration. -/
def Output.noteViewport (output : Output) (context : Context) (declaration : Declaration) :
    Output :=
  { output with usesViewport := output.usesViewport || context.seesViewport declaration }

/-- A declaration that has styles adds them to its entry and notes a viewport length. -/
theorem Output.declare_ok {context : Context} {declaration : Declaration} {styles : Styles}
    (lowered : context.stylesOf declaration = .ok styles) (entry : Entry) (output : Output) :
    output.declare context entry declaration =
      ((output.noteViewport context declaration).alter entry (·.merge styles), none) := by
  unfold Context.stylesOf at lowered
  unfold Output.declare Output.noteViewport Context.seesViewport
  cases converted : context.convert declaration with
  | error error => simp [converted, bind, Except.bind] at lowered
  | ok declaration =>
      simp only [converted, bind, Except.bind] at lowered
      cases guarded : Context.guardLineHeight declaration with
      | error error => simp [guarded] at lowered
      | ok _ =>
          simp only [guarded] at lowered
          simp only [guarded, lowered]
          cases Measure.isViewportLength declaration.value <;> simp

/-- A declaration that fails notes a viewport length and changes nothing else. -/
theorem Output.declare_fails {context : Context} {declaration : Declaration} {error : Error}
    (failed : context.stylesOf declaration = .error error) (entry : Entry) (output : Output) :
    output.declare context entry declaration =
      (output.noteViewport context declaration, some error) := by
  unfold Context.stylesOf at failed
  unfold Output.declare Output.noteViewport Context.seesViewport
  cases converted : context.convert declaration with
  | error cause =>
      simp only [converted, bind, Except.bind, Except.error.injEq] at failed
      simp [failed]
  | ok declaration =>
      simp only [converted, bind, Except.bind] at failed
      cases guarded : Context.guardLineHeight declaration with
      | error cause =>
          simp only [guarded, Except.error.injEq] at failed
          -- What is no line height is no viewport length, so there is nothing to note.
          have unseen : Measure.isViewportLength declaration.value = false := by
            simp only [Context.guardLineHeight, Context.isLineHeight] at guarded
            cases seen : Measure.isViewportLength declaration.value <;> simp_all
          simp [guarded, failed, unseen]
      | ok _ =>
          simp only [guarded] at failed
          simp only [guarded, failed]
          cases Measure.isViewportLength declaration.value <;> simp

/-- A declaration without styles fails. -/
theorem Output.declare_error {context : Context} {declaration : Declaration} {error : Error}
    (failed : context.stylesOf declaration = .error error) (entry : Entry) (output : Output) :
    (output.declare context entry declaration).2 = some error := by
  rw [declare_fails failed]

/-! ## Steps and runs -/

/-- What a step that does not fail makes of an output. -/
inductive Step.Takes (context : Context) (output : Output) : Step → Output → Prop where
  | skip (skipped : Skipped) : Step.Takes context output (.skip skipped) (output.skip skipped)
  | touch (entry : Entry) : Step.Takes context output (.touch entry) (output.touch entry)
  | declare {declaration : Declaration} {styles : Styles} (entry : Entry)
      (lowered : context.stylesOf declaration = .ok styles) :
      Step.Takes context output (.declare entry declaration)
        ((output.noteViewport context declaration).alter entry (·.merge styles))
  | exportValue {name : String} (value : String)
      (free : output.classes.contains name = true → output.exports.contains name = true) :
      Step.Takes context output (.exportValue name value)
        { output with exports := output.exports.insert name value }
  | recordQueries (media : String) (queries : List MediaQuery) :
      Step.Takes context output (.recordQueries media queries)
        { output with queries := output.queries.insert media queries }

/-- These are all the ways in which a step can succeed. -/
theorem Step.takes_iff {context : Context} {step : Step} {output next : Output} :
    Step.Takes context output step next ↔ step.apply context output = (next, none) := by
  constructor
  · intro taken
    cases taken with
    | skip skipped => rfl
    | touch entry => rfl
    | declare entry lowered => exact Output.declare_ok lowered entry output
    | exportValue value free =>
        rename_i name
        simp only [Step.apply, Output.exportValue]
        cases named : output.classes.contains name with
        | false => simp
        | true => simp [free named]
    | recordQueries media queries => rfl
  · intro applied
    cases step with
    | skip skipped =>
        cases applied
        exact .skip skipped
    | touch entry =>
        cases applied
        exact .touch entry
    | declare entry declaration =>
        simp only [Step.apply] at applied
        cases lowered : context.stylesOf declaration with
        | error error =>
            have failed := Output.declare_error lowered entry output
            simp [applied] at failed
        | ok styles =>
            rw [Output.declare_ok lowered] at applied
            cases applied
            exact .declare entry lowered
    | exportValue name value =>
        simp only [Step.apply, Output.exportValue] at applied
        split at applied
        · simp at applied
        · rename_i collides
          cases applied
          refine .exportValue value fun named => ?_
          simpa [named] using collides
    | recordQueries media queries =>
        cases applied
        exact .recordQueries media queries
    | fail error => simp [Step.apply] at applied

/-- All steps of a list can be taken from one output, and end in another. -/
inductive Takes (context : Context) : List Step → Output → Output → Prop where
  | nil (output : Output) : Takes context [] output output
  | cons {step : Step} {steps : List Step} {output next final : Output}
      (first : Step.Takes context output step next) (rest : Takes context steps next final) :
      Takes context (step :: steps) output final

/-- A run without error takes all of its steps. -/
theorem takes_iff {context : Context} {steps : List Step} {output final : Output} :
    Takes context steps output final ↔
      (Run.of context steps output).error = none ∧
        (Run.of context steps output).output = final := by
  constructor
  · intro taken
    induction taken with
    | nil output => exact ⟨rfl, rfl⟩
    | cons first rest ih => simpa [Run.of, Step.takes_iff.mp first] using ih
  · induction steps generalizing output with
    | nil =>
        intro found
        rcases found with ⟨-, rfl⟩
        exact .nil output
    | cons step steps ih =>
        intro found
        rcases found with ⟨succeeded, reached⟩
        rcases applied : step.apply context output with ⟨next, _ | error⟩
        · simp only [Run.of, applied] at succeeded reached
          exact .cons (Step.takes_iff.mpr applied) (ih ⟨succeeded, reached⟩)
        · simp [Run.of, applied] at succeeded

/-- After steps that can be taken, a run goes on as from the output that they reach. -/
theorem Takes.run_append {context : Context} {before : List Step} {output reached : Output}
    (taken : Takes context before output reached) (rest : List Step) :
    Run.of context (before ++ rest) output =
      { Run.of context rest reached with taken := before ++ (Run.of context rest reached).taken } := by
  induction taken with
  | nil output => rfl
  | cons first others ih =>
      rw [List.cons_append]
      simp only [Run.of, Step.takes_iff.mp first, ih, List.cons_append]

/-- Steps can be taken if and only if the first of them can, and the others from where those end. -/
theorem takes_append_iff {context : Context} {before rest : List Step} {output final : Output} :
    Takes context (before ++ rest) output final ↔
      ∃ reached, Takes context before output reached ∧ Takes context rest reached final := by
  constructor
  · intro taken
    induction before generalizing output with
    | nil => exact ⟨output, .nil output, taken⟩
    | cons step before ih =>
        cases taken with
        | cons first others =>
            obtain ⟨reached, earlier, later⟩ := ih others
            exact ⟨reached, .cons first earlier, later⟩
  · intro found
    obtain ⟨reached, earlier, later⟩ := found
    rw [takes_iff] at later ⊢
    rw [earlier.run_append]
    exact later

/-- A stylesheet compiles if and only if it can be read and all of its steps can be taken. -/
theorem compile_ok_iff {options : Options} {source : String} {output : Output} :
    compile options source = .ok output ↔
      ∃ rules, Stylesheet.parse (Compilation.cutOf options source).text = .ok rules ∧
        Takes (Compilation.contextOf options (Compilation.cutOf options source))
          (Plan.steps options rules) {} output := by
  simp only [compile, Compilation.of, takes_iff]
  cases Stylesheet.parse (Compilation.cutOf options source).text with
  | error position => simp
  | ok rules =>
      simp only [Except.ok.injEq, exists_eq_left']
      cases (Run.of (Compilation.contextOf options (Compilation.cutOf options source))
          (Plan.steps options rules) {}).error with
      | some error => simp
      | none => simp

/-- A stylesheet that compiles takes all of its steps. -/
theorem compile_takes {options : Options} {source : String} {rules : Stylesheet} {output : Output}
    (parsed : Stylesheet.parse (Compilation.cutOf options source).text = .ok rules)
    (compiled : compile options source = .ok output) :
    Takes (Compilation.contextOf options (Compilation.cutOf options source))
      (Plan.steps options rules) {} output := by
  rcases compile_ok_iff.mp compiled with ⟨others, again, taken⟩
  rw [parsed, Except.ok.injEq] at again
  exact again ▸ taken

/-- A text together with the rules as which it is read and the output to which it compiles. -/
structure CompiledText (options : Options) where
  source : String
  rules : Stylesheet
  output : Output
  parsed : Stylesheet.parse (Compilation.cutOf options source).text = .ok rules
  ran : (Run.of (Compilation.contextOf options (Compilation.cutOf options source))
      (Plan.steps options rules) {}).error = none ∧
    (Run.of (Compilation.contextOf options (Compilation.cutOf options source))
      (Plan.steps options rules) {}).output = output

theorem CompiledText.compiled {options : Options} (text : CompiledText options) :
    compile options text.source = .ok text.output :=
  compile_ok_iff.mpr ⟨text.rules, text.parsed, takes_iff.mpr text.ran⟩

end StyleObjects
