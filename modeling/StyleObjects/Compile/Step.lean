import StyleObjects.Compile.Lowering
import StyleObjects.Compile.Output

/-!
# Steps of a compilation

A compilation is a list of steps, each of which changes the output or fails.  A step that fails ends
the compilation; the output keeps what has been done until then.
-/

namespace StyleObjects

/-- One step of a compilation. -/
inductive Step where
  /-- Leave something out. -/
  | skip (skipped : Skipped)
  /-- Make an entry. -/
  | touch (entry : Entry)
  /-- Add the styles of a declaration to an entry. -/
  | declare (entry : Entry) (declaration : Declaration)
  /-- Export a value under a name. -/
  | exportValue (name value : String)
  /-- Keep the queries of a media rule. -/
  | recordQueries (media : String) (queries : List MediaQuery)
  /-- Fail. -/
  | fail (error : Error)
  deriving DecidableEq, Repr

namespace Output

/-- Add the styles of a declaration to an entry.  A length of the viewport is noted even if the
declaration has no styles. -/
def declare (context : Context) (entry : Entry) (declaration : Declaration) (output : Output) :
    Output × Option Error :=
  match context.convert declaration with
  | .error error => (output, some error)
  | .ok declaration =>
    match Context.guardLineHeight declaration with
    | .error error => (output, some error)
    | .ok () =>
      let output :=
        if Measure.isViewportLength declaration.value then { output with usesViewport := true }
        else output
      match context.lower declaration with
      | .error error => (output, some error)
      | .ok styles => (output.alter entry (·.merge styles), none)

/-- Export a value.  A name that is also a class can be exported only if it has been before. -/
def exportValue (name value : String) (output : Output) : Output × Option Error :=
  if output.classes.contains name && !output.exports.contains name then
    (output, some (.exportCollision name))
  else ({ output with exports := output.exports.insert name value }, none)

end Output

namespace Step

/-- Take a step: the output after it, and why it fails if it does. -/
def apply (context : Context) (output : Output) : Step → Output × Option Error
  | .skip skipped => (output.skip skipped, none)
  | .touch entry => (output.touch entry, none)
  | .declare entry declaration => output.declare context entry declaration
  | .exportValue name value => output.exportValue name value
  | .recordQueries media queries =>
    ({ output with queries := output.queries.insert media queries }, none)
  | .fail error => (output, some error)

end Step

/-- What a run of steps has come to. -/
structure Run where
  output : Output
  /-- Why the run ended before its last step. -/
  error : Option Error
  /-- The steps that did not fail. -/
  taken : List Step
  deriving DecidableEq, Repr

/-- Take steps from an output until one fails. -/
def Run.of (context : Context) : List Step → Output → Run
  | [], output => ⟨output, none, []⟩
  | step :: steps, output =>
    match step.apply context output with
    | (output, some error) => ⟨output, some error, []⟩
    | (output, none) =>
      let run := Run.of context steps output
      { run with taken := step :: run.taken }

end StyleObjects
