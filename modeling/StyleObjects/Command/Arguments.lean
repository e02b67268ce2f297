import StyleObjects.Compile.Options
import StyleObjects.Number.Reading
import StyleObjects.Text.Glob

/-!
# Arguments of the command line

The command has two subcommands, `compile` and `inspect`, each for one file.  Options may stand
before and after the file, long ones by their name and with a value after an equals sign or in the
next argument, short ones alone or together behind one hyphen.  Two hyphens end the options.
-/

namespace StyleObjects.Command

/-- What one option asks for. -/
inductive Setting where
  | help
  | version
  | keyframes
  | mediaQueries
  | partSelectors
  | verbose
  | ignore (pattern : String)
  | remSize (text : String)
  | indent (text : String)
  | output (path : String)
  deriving DecidableEq, Repr

/-- An option: one that stands alone, or one that takes a value. -/
inductive OptionForm where
  | alone (setting : Setting)
  | valued (setting : String → Setting)

/-- The options of a command by their names, each with its hyphens. -/
abbrev OptionTable := List (String × OptionForm)

/-- The options in front of the subcommand. -/
def mainOptions : OptionTable :=
  [("--version", .alone .version), ("--help", .alone .help)]

/-- The options of both subcommands. -/
def sharedOptions : OptionTable := [
  ("--keyframes", .alone .keyframes),
  ("--media-queries", .alone .mediaQueries),
  ("--part-selectors", .alone .partSelectors),
  ("--ignore", .valued .ignore),
  ("--rem-size", .valued .remSize),
  ("-v", .alone .verbose),
  ("--verbose", .alone .verbose),
  ("--help", .alone .help)]

/-- The options of `compile`. -/
def compileOptions : OptionTable :=
  sharedOptions ++ [
    ("--indent", .valued .indent), ("-o", .valued .output), ("--output", .valued .output)]

/-- The settings that an argument gives, and the setting of the next argument if it takes one. -/
abbrev Interpretation := List Setting × Option (String → Setting)

/-- Interpret the letters of short options behind one hyphen.  What follows the letter of an option
with a value is the value. -/
def interpretLetters? (table : OptionTable) : List Char → Option Interpretation
  | [] => some ([], none)
  | letter :: letters =>
    match table.lookup (String.ofList ['-', letter]) with
    | none => none
    | some (.alone setting) =>
      (interpretLetters? table letters).map fun (settings, next) => (setting :: settings, next)
    | some (.valued setting) =>
      if letters.isEmpty then some ([], some setting)
      else some ([setting (String.ofList letters)], none)

/-- Interpret a long option, which may have a value after an equals sign. -/
def interpretLong? (table : OptionTable) (argument : List Char) : Option Interpretation :=
  let name := String.ofList (argument.takeWhile (· != '='))
  match table.lookup name, argument.dropWhile (· != '=') with
  | some (.alone setting), [] => some ([setting], none)
  | some (.valued setting), [] => some ([], some setting)
  | some (.valued setting), _ :: value => some ([setting (String.ofList value)], none)
  | _, _ => none

/-- Interpret an argument that starts with a hyphen. -/
def interpret? (table : OptionTable) : List Char → Option Interpretation
  | '-' :: '-' :: name => interpretLong? table ('-' :: '-' :: name)
  | argument => interpretLetters? table (argument.drop 1)

/-- The argument is one of options: it starts with a hyphen that does not stand alone. -/
def isOption (argument : String) : Bool :=
  match argument.toList with
  | '-' :: _ :: _ => true
  | _ => false

/-- Read arguments: the settings of the options, and the other arguments.  With `mixed`, options are
read behind other arguments too. -/
def readArguments? (table : OptionTable) (mixed : Bool) :
    List String → Option (List Setting × List String)
  | [] => some ([], [])
  | argument :: rest =>
    if argument = "--" then some ([], rest)
    else if isOption argument then
      match interpret? table argument.toList with
      | none => none
      | some (settings, none) =>
        (readArguments? table mixed rest).map fun (more, others) => (settings ++ more, others)
      | some (settings, some setting) =>
        match rest with
        | [] => none
        | value :: rest =>
          (readArguments? table mixed rest).map fun (more, others) =>
            (settings ++ setting value :: more, others)
    else if mixed then
      (readArguments? table mixed rest).map fun (settings, others) => (settings, argument :: others)
    else some ([], argument :: rest)

/-- What a subcommand is asked to do with its file. -/
structure Task where
  file : String
  options : Options := {}
  patterns : List String := []
  verbose : Bool := false
  indent : Int := 2
  output : Option String := none

/-- A selector is ignored if one of the patterns matches it. -/
def ignoresAny (patterns : List String) (selector : String) : Bool :=
  patterns.any fun pattern => Text.Glob.isMatch pattern selector

/-- The options with the patterns of ignored selectors. -/
def Task.compileOptions (task : Task) : Options :=
  { task.options with ignores := ignoresAny task.patterns }

/-- The settings and the other arguments that a subcommand is called with. -/
structure Call where
  settings : List Setting
  arguments : List String
  deriving DecidableEq, Repr

namespace Call

/-- The number that the last of several texts writes, or a default if there are none.  A text that
a later one replaces need not be a number. -/
def lastNumber? {α : Type} (read? : String → Option α) (default : α) (texts : List String) :
    Option α :=
  (texts.getLast?.map read?).getD (some default)

/-- The pixels in a root font size; none if they are not given by a number. -/
def remSize? (call : Call) : Option Binary64 :=
  lastNumber? Number.readReal? (.ofInt 16)
    (call.settings.filterMap fun | .remSize text => some text | _ => none)

/-- The indentation; none if it is not given by an integer. -/
def indent? (call : Call) : Option Int :=
  lastNumber? Number.readInteger? 2
    (call.settings.filterMap fun | .indent text => some text | _ => none)

/-- The file to write, if there is one. -/
def output? (call : Call) : Option String :=
  (call.settings.filterMap fun | .output path => some path | _ => none).getLast?

/-- The task of a call; none if a text is no number where one is wanted, or if there is not exactly
one file. -/
def task? (call : Call) : Option Task := do
  let [file] := call.arguments | none
  let remSize ← call.remSize?
  let indent ← call.indent?
  return {
    file, indent
    options := {
      keyframes := call.settings.contains .keyframes
      mediaQueries := call.settings.contains .mediaQueries
      partSelectors := call.settings.contains .partSelectors
      remSize := .ok remSize }
    patterns := call.settings.filterMap fun | .ignore pattern => some pattern | _ => none
    verbose := call.settings.contains .verbose
    output := call.output? }

end Call

/-- What the command is asked to do. -/
inductive Request where
  | help
  | version
  | compile (call : Call)
  | inspect (call : Call)
  deriving DecidableEq, Repr

namespace Request

/-- The request of a subcommand's arguments. -/
def ofCall? (table : OptionTable) (request : Call → Request) (arguments : List String) :
    Option Request :=
  (readArguments? table true arguments).map fun (settings, others) =>
    if settings.contains .help then .help else request ⟨settings, others⟩

/-- The request of settings in front of the subcommand, if they make one. -/
def ofSettings? : List Setting → Option Request
  | .version :: _ => some .version
  | .help :: _ => some .help
  | _ => none

/-- The request of the command's arguments; none if they are not understood.  Options that two
hyphens keep from being options, so that they stand in place of the subcommand, are read as options
after all. -/
def read? (arguments : List String) : Option Request := do
  let (settings, others) ← readArguments? mainOptions false arguments
  (ofSettings? settings).orElse fun _ =>
    match others with
    | "compile" :: rest => ofCall? compileOptions .compile rest
    | "inspect" :: rest => ofCall? sharedOptions .inspect rest
    | _ => do
      let (settings, _) ← readArguments? mainOptions false others
      ofSettings? settings

end Request

end StyleObjects.Command
