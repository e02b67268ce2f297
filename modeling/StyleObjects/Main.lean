import StyleObjects.Command.Answer

/-!
# The command

The command reads its file, prints its answer and writes the file that the answer names.
-/

namespace StyleObjects.Command

/-- Print an answer, write its file, and give the exit code. -/
def deliver (answer : Answer) : IO UInt32 := do
  IO.eprint answer.log
  if let some (path, text) := answer.file then
    IO.FS.writeFile path text
  IO.print answer.out
  return answer.ending.exitCode.toUInt32

/-- Tell how the command is called. -/
def deliverUsage : IO UInt32 := do
  IO.eprint helpText
  return Ending.misuse.exitCode.toUInt32

/-- Answer a call. -/
def carryOut (call : Call) (respond : Task → Output → Answer) : IO UInt32 := do
  let some task := call.task? | deliverUsage
  try
    deliver (task.answerBytes (← IO.FS.readBinFile task.file) (respond task))
  catch error =>
    IO.eprintln error.toString
    return Ending.misuse.exitCode.toUInt32

end StyleObjects.Command

open StyleObjects.Command

/-- Run the command with arguments. -/
def main (arguments : List String) : IO UInt32 :=
  match Request.read? arguments with
  | none => deliverUsage
  | some .help => deliver { ending := .success, out := helpText }
  | some .version => deliver { ending := .success, out := versionText }
  | some (.compile call) => carryOut call Task.compileAnswer
  | some (.inspect call) => carryOut call fun _ => inspectAnswer
