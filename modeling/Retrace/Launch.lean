import Retrace.Console.Console
import Retrace.Console.Draft
import Retrace.Options
import Retrace.Settings.Document
/-!
# Retrace — the program as a whole

From the command line to the exit code. The settings are read and validated,
overridden by the options and validated again, and then the code is read; the
first of these that fails is reported. After that the console answers one line
of input after the other, until the operator quits or the input ends. The exit
code tells whether the run that was recorded ended in a fault. Files are
reached through a function, so that the whole is a value.
-/

namespace Retrace

/-! ## Sessions from settings -/

/-- The session that settings describe for a code. -/
def Session.ofSettings (code : Bytes) (settings : Settings) : Except Error Session := do
  settings.validate.mapError .settings
  let env ← settings.environment.mapError .hex
  let machine : Machine := ⟨⟨Program.load code, env⟩, settings.table⟩
  .ok (Session.start machine settings.stepLimit)

/-- The console that settings describe for a code. -/
def Console.ofSettings (code : Bytes) (settings : Settings) : Except Error Console := do
  let session ← Session.ofSettings code settings
  .ok (Console.start session settings.listingHeight settings.stackTop)

/-! ## The start -/

/-- How files are read. -/
abbrev Files := String → Except FileFault String

/-- The settings of the document at a path, or the defaults. -/
def Settings.load (files : Files) : Option String → Except Error Settings
  | none => .ok Settings.default
  | some path => do
    let document ← (files path).mapError (.missingDocument path)
    Settings.read document

/-- The code that the options name. -/
def CodeSource.load (files : Files) : CodeSource → Except Error Bytes
  | .text digits => (HexText.readBytes digits).mapError .code
  | .file path => do
    let digits ← (files path).mapError .file
    (HexText.readBytes digits).mapError .code

namespace Launch

/-- The console that the options ask for. -/
def console (files : Files) (options : Options) : Except Error Console := do
  let settings ← Settings.load files options.config
  let settings := options.override settings
  settings.validate.mapError .settings
  let code ← options.code.load files
  Console.ofSettings code settings

/-- What is printed before the first line of input is read. -/
def greeting (c : Console) : String :=
  "Loaded " ++ Text.decimal c.session.machine.program.size ++ " bytes of code, gas limit " ++
    Text.decimal c.session.machine.env.gasLimit ++ ".\n\n" ++ c.currentStep ++
    "\nType 'help' for available commands.\n\n"

/-- What is printed at the end. -/
def farewell (c : Console) : String :=
  match c.session.summary.halted with
  | some reason => "Execution halted: " ++ reason.message ++ "\n"
  | none => ""

/-- What is printed where the console cannot start. -/
def complaint (e : Error) : String := "Error: " ++ e.message ++ "\n"

/-! ## Lines of input -/

/-- The answer to a line of input. -/
inductive Answer where
  | silence
  /-- A text for the operator. -/
  | printed (text : String)
  /-- A complaint about the line. -/
  | rejected (text : String)
  | quit
  deriving DecidableEq

/-- Answer a line. Only a word that is no command is complained about. -/
def answer (c : Console) (line : String) : Console × Answer :=
  match Command.read line with
  | .error (.unknownWord word) =>
    (c, .rejected ("Unknown command: '" ++ word ++ "'. Type 'help' for available commands.\n"))
  | .error _ => (c, .silence)
  | .ok command =>
    match c.execute command with
    | (c, .text text) => (c, .printed (text ++ "\n"))
    | (c, .quit) => (c, .quit)

/-- All that a run of the program leaves behind. -/
structure Transcript where
  exitCode : Nat
  stdout : String
  stderr : String
  deriving DecidableEq

/-- Answer lines until the operator quits or there are no more: the console at the end, with what
was printed and what was complained about. -/
def converse (c : Console) : List String → Console × List String × List String
  | [] => (c, [], [])
  | line :: rest =>
    match answer c line with
    | (c, .silence) => converse c rest
    | (c, .printed text) =>
      let (c, out, err) := converse c rest
      (c, text :: out, err)
    | (c, .rejected text) =>
      let (c, out, err) := converse c rest
      (c, out, text :: err)
    | (c, .quit) => (c, [], [])

/-- The lines of an input, each as its backspaces leave it; the last need not be ended. -/
def inputLines (input : String) : List String :=
  let pieces := input.splitOn "\n"
  (if pieces.getLast? = some "" then pieces.dropLast else pieces).map Draft.settle

/-- Run the program on options and input. -/
def run (files : Files) (options : Options) (input : String) : Transcript :=
  match console files options with
  | .error e => ⟨1, "", complaint e⟩
  | .ok c =>
    let start := greeting c
    let (c, out, err) := converse c (inputLines input)
    ⟨c.session.summary.exitCode, start ++ String.join out ++ farewell c, String.join err⟩

end Launch

end Retrace
