import StyleObjects.Compile.Log
import StyleObjects.Compile.Plan
import StyleObjects.Stylesheet.Keyframes

/-!
# Compiling a stylesheet

Keyframes are cut out of the text if they are asked for, the rest is read, its rules are put in
order, and their steps are taken.  The first error ends the compilation, which then gives nothing
but its log.
-/

namespace StyleObjects

/-- What a compilation has come to, and its log. -/
structure Compilation where
  result : Except Error Output
  log : List LogEvent

namespace Compilation

/-- The text without its keyframes, if they are asked for. -/
def cutOf (options : Options) (source : String) : KeyframeCut :=
  if options.keyframes then cutKeyframes source else ⟨source, []⟩

/-- What the log tells of keyframes. -/
def cutEvents (found : KeyframeCut) : List LogEvent :=
  found.blocks.map (fun block => .keyframesCut block.1)
    ++ (if found.blocks.isEmpty then [] else [.keyframesCounted found.table.size])

/-- What the declarations of a text depend on. -/
def contextOf (options : Options) (found : KeyframeCut) : Context :=
  ⟨found.table, options.remSize⟩

/-- Compile a stylesheet. -/
def of (options : Options) (source : String) : Compilation :=
  let found := cutOf options source
  match Stylesheet.parse found.text with
  | .error position => ⟨.error (.unreadable position), cutEvents found⟩
  | .ok rules =>
    let run := Run.of (contextOf options found) (Plan.steps options rules) {}
    let result := match run.error with
      | some error => .error error
      | none => .ok run.output
    ⟨result, cutEvents found ++ run.taken.filterMap Step.event?⟩

end Compilation

/-- Compile a stylesheet. -/
def compile (options : Options) (source : String) : Except Error Output :=
  (Compilation.of options source).result

end StyleObjects
