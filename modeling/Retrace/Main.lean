import Retrace.Launch
/-!
# Retrace — the command line

The outer layer: arguments, files, the terminal and the exit code. All that is
decided is decided in `Launch`.
-/

namespace Retrace.CommandLine

/-- The variable of the surroundings that may name a document of settings. -/
def configVariable : String := "OPSTEP_CONFIG"

/-- What is printed where help is asked for. -/
def help : String := Text.lines
  ["Time-travel debugger for EVM-style bytecode",
   "",
   "Options:",
   "      --code <CODE>            Hex-encoded bytecode (with or without 0x prefix)",
   "      --code-file <PATH>       File containing hex-encoded bytecode",
   "      --calldata <CALLDATA>    Hex-encoded call data [default: a2e62045]",
   "      --callvalue <CALLVALUE>  Call value as a hex quantity [default: 0]",
   "      --gas-limit <GAS_LIMIT>  Initial gas allowance [default: 15000000]",
   "      --config <PATH>          TOML config file with a [debugger] table",
   "      --subroutines            Enable BEGINSUB, JUMPSUB and RETURNSUB",
   "      --height <HEIGHT>        Disassembly rows to show [default: 10]",
   "  -h, --help                   Print help"]

/-- The wording of a usage error. -/
def complaint : UsageError → String
  | .missingCode => "error: --code <CODE> or --code-file <PATH> is required"
  | .conflict => "error: an argument is repeated or excludes another"
  | .missingValue => "error: an option lacks its value"
  | .unknownArgument => "error: unexpected argument"
  | .malformedNumber => "error: a value is no number"
  | .unneededValue => "error: a flag takes no value"
  | .helpRequested => help

/-- The fault of a file that could not be read, in the words of the system. -/
def faultOf : IO.Error → FileFault
  | .noFileOrDirectory .. => .notFound
  | .inappropriateType _ code details | .permissionDenied _ code details
  | .invalidArgument _ code details =>
    .other (details ++ " (os error " ++ Text.decimal code.toNat ++ ")")
  | e => .other e.toString

/-- Read a file that holds text. -/
def readFile (path : String) : IO (Except FileFault String) := do
  match ← (IO.FS.readBinFile path).toBaseIO with
  | .ok bytes =>
    match String.fromUTF8? bytes with
    | some text => return .ok text
    | none => return .error (.other "stream did not contain valid UTF-8")
  | .error e => return .error (faultOf e)

/-- The paths that options name. -/
def paths (options : Options) : List String :=
  options.config.toList ++
    match options.code with
    | .file path => [path]
    | .text _ => []

/-- The files at the given paths. -/
def loadFiles (paths : List String) : IO Files := do
  let contents ← paths.mapM fun path => return (path, ← readFile path)
  return fun path => (contents.lookup path).getD (.error .notFound)

/-- Answer lines of input until the operator quits or the input ends. -/
partial def converse (isTerminal : Bool) (c : Console) : IO Console := do
  if isTerminal then
    let place := Text.decimal c.session.position ++ "/" ++ Text.decimal c.session.history.size
    IO.print ("(dbg " ++ place ++ ") ")
  (← IO.getStdout).flush
  let line ← (← IO.getStdin).getLine
  if line.isEmpty then return c
  match Launch.answer c (if isTerminal then line else Draft.settle line) with
  | (c, .silence) => converse isTerminal c
  | (c, .printed text) =>
    IO.print text
    converse isTerminal c
  | (c, .rejected text) =>
    IO.eprint text
    converse isTerminal c
  | (c, .quit) => return c

/-- Run the debugger on options. -/
def debug (options : Options) : IO UInt32 := do
  let files ← loadFiles (paths options)
  match Launch.console files options with
  | .error e =>
    IO.eprint (Launch.complaint e)
    return 1
  | .ok c =>
    IO.print (Launch.greeting c)
    let c ← converse (← (← IO.getStdin).isTty) c
    IO.print (Launch.farewell c)
    return UInt32.ofNat c.session.summary.exitCode

end Retrace.CommandLine

open Retrace CommandLine in
/-- Run the debugger on the words of the command line. -/
def main (words : List String) : IO UInt32 := do
  match Options.read words (← IO.getEnv configVariable) with
  | .ok options => debug options
  | .error .helpRequested =>
    IO.println help
    return 0
  | .error e =>
    IO.eprintln (complaint e)
    return 2
