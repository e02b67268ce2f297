import StyleObjects.Command.Answer
import StyleObjects.Text.Split

/-!
# Commands in a workspace

A workspace is a directory with files, some of them in directories of it.  A command reads one of
the files and may write one.  Of what lies outside of the workspace only little is known, and it is
taken to be empty.
-/

namespace StyleObjects.Command

/-- Files by their paths from the workspace, as lists of names. -/
structure Workspace where
  files : List (List String × ByteArray)

/-- What a path leads to. -/
inductive Place where
  | directory (path : List String)
  | file (path : List String) (bytes : ByteArray)
  /-- Nothing, in a directory that exists. -/
  | vacant (path : List String)
  /-- Nothing, since a directory on the way is missing. -/
  | missing
  /-- Nothing, since a directory on the way is a file. -/
  | blocked
  /-- Nothing, since the path or a name in it is too long. -/
  | tooLong
  /-- A directory outside of the workspace. -/
  | outerDirectory
  /-- Nothing, in a directory outside of the workspace. -/
  | outerVacant
  /-- The device that is empty and forgets what is written to it. -/
  | nullDevice

namespace Workspace

/-- A name of a file or directory has at most so many bytes. -/
def maxNameBytes : Nat := 255

/-- A path has at most so many bytes. -/
def maxPathBytes : Nat := 4095

/-- The names of a path; empty ones and those of the directory itself are left out. -/
def names (path : String) : List String :=
  ((Text.splitAt '/' path.toList).map String.ofList).filter fun name => name != "" && name != "."

/-- The path starts at the root of all directories. -/
def isAbsolute (path : String) : Bool :=
  path.toList.head? = some '/'

/-- What a name leads to in a directory of the workspace. -/
def child (workspace : Workspace) (directory : List String) (name : String) : Place :=
  let path := directory ++ [name]
  match workspace.files.lookup path with
  | some bytes => .file path bytes
  | none =>
    if workspace.files.any fun file => path.isPrefixOf file.1 then .directory path
    else .vacant path

/-- Where a name leads on from a place. -/
def enter (workspace : Workspace) (place : Place) (name : String) : Place :=
  match place with
  | .directory path =>
    if name = ".." then (if path.isEmpty then .outerDirectory else .directory path.dropLast)
    else if name.utf8ByteSize > maxNameBytes then .tooLong
    else workspace.child path name
  | .outerDirectory =>
    if name = ".." then .outerDirectory
    else if name.utf8ByteSize > maxNameBytes then .tooLong
    else .outerVacant
  | .file .. | .nullDevice | .blocked => .blocked
  | .vacant _ | .outerVacant | .missing => .missing
  | .tooLong => .tooLong

/-- What the names of an absolute path lead to. -/
def locateAbsolute (workspace : Workspace) : List String → Place
  | [] | ["dev"] | ["tmp"] => .outerDirectory
  | "dev" :: "null" :: names => names.foldl workspace.enter .nullDevice
  | "dev" :: names | "tmp" :: names | names => names.foldl workspace.enter .outerDirectory

/-- What a path leads to. -/
def locate (workspace : Workspace) (path : String) : Place :=
  let names := names path
  if ("/".intercalate names).utf8ByteSize > maxPathBytes then .tooLong
  else if isAbsolute path then workspace.locateAbsolute names
  else names.foldl workspace.enter (.directory [])

/-- What a path leads to that may end with a slash or a dot, which only one of a directory may. -/
def locateStrictly (workspace : Workspace) (path : String) : Place :=
  if path.isEmpty then .missing
  else if path.utf8ByteSize > maxPathBytes then .tooLong
  else
    match workspace.locate path, (Text.splitAt '/' path.toList).getLast? with
    | .file .., some [] | .file .., some ['.'] => .blocked
    | .nullDevice, some [] | .nullDevice, some ['.'] => .blocked
    | place, _ => place

/-- Write a file. -/
def write (workspace : Workspace) (path : List String) (text : String) : Workspace :=
  ⟨(path, text.toUTF8) :: workspace.files.filter (·.1 != path)⟩

/-- The text of a file. -/
def textOf? (workspace : Workspace) (path : String) : Option String :=
  match workspace.locate path with
  | .file _ bytes => String.fromUTF8? bytes
  | _ => none

/-- No path has a null character. -/
def checkPath (path : String) : Except Ending Unit :=
  if path.toList.contains '\x00' then .error (.broken .nullInPath) else .ok ()

/-- The file to write may not be a directory. -/
def checkOutput (workspace : Workspace) (path : String) : Except Ending Unit := do
  checkPath path
  match workspace.locateStrictly path with
  | .directory _ | .outerDirectory => throw .misuse
  | _ => return

/-- The file to read has to exist. -/
def checkFile (workspace : Workspace) (path : String) : Except Ending Unit := do
  checkPath path
  match workspace.locateStrictly path with
  | .file .. | .directory _ | .outerDirectory | .nullDevice => return
  | _ => throw .misuse

/-- What a setting says has to be usable; of settings of one kind that is what the last one says. -/
def checkSetting (workspace : Workspace) (call : Call) : Setting → Except Ending Unit
  | .remSize _ => if call.remSize?.isSome then .ok () else .error .misuse
  | .indent _ => if call.indent?.isSome then .ok () else .error .misuse
  | .output _ => call.output?.forM workspace.checkOutput
  | _ => .ok ()

/-- The task of a call, whose settings are checked before its file. -/
def check (workspace : Workspace) (call : Call) : Except Ending Task := do
  call.settings.forM (workspace.checkSetting call)
  call.arguments.head?.forM workspace.checkFile
  match call.task? with
  | some task => return task
  | none => throw .misuse

/-- Write the file of an answer. -/
def finish (workspace : Workspace) (answer : Answer) : Answer × Workspace :=
  let broken (failure : Failure) : Answer × Workspace :=
    ({ answer with ending := .broken failure, out := "" }, workspace)
  match answer.file with
  | none => (answer, workspace)
  | some (path, text) =>
    match workspace.locate path with
    | .file path _ | .vacant path => (answer, workspace.write path text)
    | .outerVacant | .nullDevice => (answer, workspace)
    | .blocked => broken .notDirectory
    | .tooLong => broken .nameTooLong
    | .directory _ | .outerDirectory => broken .isDirectory
    | .missing => broken .noDirectory

/-- Answer a call. -/
def perform (workspace : Workspace) (call : Call) (respond : Task → Output → Answer) :
    Answer × Workspace :=
  match workspace.check call with
  | .error ending => ({ ending }, workspace)
  | .ok task =>
    match workspace.locateStrictly task.file with
    | .file _ bytes => workspace.finish (task.answerBytes bytes (respond task))
    | .nullDevice => workspace.finish (task.answerBytes .empty (respond task))
    | _ => ({ ending := .broken .isDirectory }, workspace)

/-- Run the command with arguments. -/
def run (workspace : Workspace) (arguments : List String) : Answer × Workspace :=
  match Request.read? arguments with
  | none => ({ ending := .misuse }, workspace)
  | some .help => ({ ending := .success, out := helpText }, workspace)
  | some .version => ({ ending := .success, out := versionText }, workspace)
  | some (.compile call) => workspace.perform call Task.compileAnswer
  | some (.inspect call) => workspace.perform call fun _ => inspectAnswer

end Workspace

end StyleObjects.Command
