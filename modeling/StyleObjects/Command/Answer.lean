import StyleObjects.Command.Arguments
import StyleObjects.Command.Report
import StyleObjects.Compile.Compilation
import StyleObjects.Text.ControlSequence

/-!
# Answering a request

Once a file has been read, what the command prints and writes depends on its bytes alone.
-/

namespace StyleObjects.Command

/-- Why a command breaks off without a report to the user. -/
inductive Failure where
  /-- The file to read is a directory. -/
  | isDirectory
  /-- The file to read is no UTF-8 text. -/
  | notText
  /-- The directory of the file to write is missing. -/
  | noDirectory
  /-- The directory of the file to write is a file. -/
  | notDirectory
  /-- The path of the file to write is too long, or a name in it. -/
  | nameTooLong
  /-- A path has a null character. -/
  | nullInPath
  /-- An indentation is no machine integer. -/
  | indentationRange
  /-- An indentation does not fit into the memory. -/
  | indentationSize
  /-- A length is out of the range of numbers. -/
  | number (fault : NumberFault)
  deriving DecidableEq, Repr

/-- How a command ends. -/
inductive Ending where
  | success
  /-- The arguments are not understood, or name no usable file. -/
  | misuse
  /-- The stylesheet has an error, which is reported. -/
  | rejected (error : Error)
  | broken (failure : Failure)
  deriving DecidableEq, Repr

/-- The exit code of an ending. -/
def Ending.exitCode : Ending → Nat
  | .success => 0
  | .rejected _ | .broken _ => 1
  | .misuse => 2

/-- What a command prints and writes, and how it ends. -/
structure Answer where
  ending : Ending
  out : String := ""
  log : String := ""
  /-- The file to write, by its path and its text. -/
  file : Option (String × String) := none
  deriving DecidableEq, Repr

/-- The text with every kind of line break made a line feed. -/
def unifyLineBreaks : List Char → List Char
  | '\r' :: '\n' :: cs => '\n' :: unifyLineBreaks cs
  | c :: cs => (if c = '\r' then '\n' else c) :: unifyLineBreaks cs
  | [] => []

/-- The stylesheet that the bytes of a file write. -/
def decode? (bytes : ByteArray) : Option String :=
  (String.fromUTF8? bytes).map fun text => String.ofList (unifyLineBreaks text.toList)

/-- The line that reports an error. -/
def errorLine (error : Error) : String :=
  Text.legible ("Error: " ++ error.message ++ "\n")

/-- The answer to a task on a stylesheet, if it has an output. -/
def Task.answer (task : Task) (source : String) (respond : Output → Answer) : Answer :=
  let compilation := Compilation.of task.compileOptions source
  let log := if task.verbose then String.join (compilation.log.map LogEvent.line) else ""
  match compilation.result with
  | .error (.number fault) => { ending := .broken (.number fault), log }
  | .error error => { ending := .rejected error, log := log ++ errorLine error }
  | .ok output => { respond output with log }

/-- Why an indentation cannot be used: it is beyond 64 bits, or wider than any memory. -/
def indentFault? (indent : Int) : Option Failure :=
  if indent < -Int.pow 2 63 ∨ Int.pow 2 63 ≤ indent then some .indentationRange
  else if Int.pow 2 40 ≤ indent then some .indentationSize
  else none

/-- Print the wire format, or write it to the file that is named. -/
def Task.compileAnswer (task : Task) (output : Output) : Answer :=
  match indentFault? task.indent with
  | some failure => { ending := .broken failure }
  | none =>
    let text := indentedWire task.indent output ++ "\n"
    match task.output with
    | none | some "" => { ending := .success, out := text }
    | some path =>
      { ending := .success
        out := Text.legible ("Wrote " ++ path ++ "\n")
        file := some (path, text) }

/-- Print the summary. -/
def inspectAnswer (output : Output) : Answer :=
  { ending := .success, out := Text.legible (summary output) }

/-- The version of the command. -/
def versionText : String := "cssnative, version 0.1.0\n"

/-- How the command is called. -/
def helpText : String := unlines [
  "Usage: cssnative [OPTIONS] COMMAND [ARGS]...",
  "",
  "  cssnative - compile CSS into style objects for native renderers.",
  "",
  "Commands:",
  "  compile  Compile a CSS file into a JSON style object.",
  "  inspect  Compile a CSS file and display a summary of the result."]

/-- The answer to a task on the bytes of its file. -/
def Task.answerBytes (task : Task) (bytes : ByteArray) (respond : Output → Answer) : Answer :=
  match decode? bytes with
  | none => { ending := .broken .notText }
  | some source => task.answer source respond

end StyleObjects.Command
