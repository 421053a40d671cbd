import Retrace.Settings
import Retrace.Text.Numeral
/-!
# Retrace — command-line options

The words of a command line are read from left to right. A word `--name` or
`--name=value` names an option; the value of an option without one is the next
word, unless that begins with a dash. A value is settled, and checked, only when
the next option or the end comes; so a word that is no option at all is reported
before a bad value in front of it. Options may not be repeated, and the code is
given either as a text or as a file.
-/

namespace Retrace

/-- The options there are. -/
inductive Key where
  | code
  | codeFile
  | callData
  | callValue
  | gasLimit
  | config
  | subroutines
  | height
  deriving DecidableEq

namespace Key

/-- The name of an option. -/
def name : Key → String
  | .code => "code"
  | .codeFile => "code-file"
  | .callData => "calldata"
  | .callValue => "callvalue"
  | .gasLimit => "gas-limit"
  | .config => "config"
  | .subroutines => "subroutines"
  | .height => "height"

/-- All options. -/
def all : List Key :=
  [.code, .codeFile, .callData, .callValue, .gasLimit, .config, .subroutines, .height]

/-- The option with a name. -/
def ofName? (name : String) : Option Key := all.find? fun key => key.name == name

/-- Whether an option is a flag, which has no value. -/
def isFlag : Key → Bool
  | .subroutines => true
  | _ => false

/-- Whether the value of an option is a number. -/
def isNumber : Key → Bool
  | .gasLimit | .height => true
  | _ => false

/-- Whether the value of an option is the path of a file. -/
def isPath : Key → Bool
  | .codeFile | .config => true
  | _ => false

end Key

/-- What is wrong with a command line. -/
inductive UsageError where
  /-- No code is given. -/
  | missingCode
  /-- An option is repeated, or excludes another. -/
  | conflict
  /-- An option without its value. -/
  | missingValue
  | unknownArgument
  /-- A value that is no number where one is needed. -/
  | malformedNumber
  /-- A flag with a value. -/
  | unneededValue
  /-- Nothing is wrong: the operator asked for help. -/
  | helpRequested
  deriving DecidableEq

/-- Where the code comes from. -/
inductive CodeSource where
  | text (digits : String)
  | file (path : String)
  deriving DecidableEq

/-- The options of a command line. -/
structure Options where
  code : CodeSource
  callData : Option String
  callValue : Option String
  gasLimit : Option Nat
  /-- The path of a document of settings. -/
  config : Option String
  subroutines : Bool
  height : Option Nat
  deriving DecidableEq

namespace Options

/-! ## Reading words -/

/-- An option whose value has not been settled. -/
inductive Pending where
  | nothing
  | awaiting (key : Key)
  | holding (key : Key) (value : String)

/-- What has been read of a command line. -/
structure Scan where
  /-- The settled options with their values. -/
  settled : List (Key × String)
  pending : Pending
  /-- Whether `--` has been read, after which no word is an option. -/
  onlyWords : Bool

/-- Nothing has been read. -/
def Scan.start : Scan := ⟨[], .nothing, false⟩

/-- The value of a settled option. -/
def Scan.value? (scan : Scan) (key : Key) : Option String :=
  (scan.settled.find? fun entry => entry.1 == key).map (·.2)

/-- Whether an option admits a value. -/
def checkValue (key : Key) (value : String) : Except UsageError Unit :=
  if key.isNumber && (Text.decimalQuantity? value.toList).isNone then .error .malformedNumber
  else if key.isPath && value.isEmpty then .error .missingValue
  else .ok ()

/-- Settle an option with its value. -/
def Scan.settleValue (scan : Scan) (key : Key) (value : String) : Except UsageError Scan :=
  if (scan.value? key).isSome then .error .conflict
  else do
    checkValue key value
    .ok { scan with settled := (key, value) :: scan.settled }

/-- Settle the option that is pending, if there is one. -/
def Scan.settle (scan : Scan) : Except UsageError Scan :=
  match scan.pending with
  | .nothing => .ok scan
  | .awaiting _ => .error .missingValue
  | .holding key value => { scan with pending := .nothing }.settleValue key value

/-- Read an option with the value attached to it, if there is one. -/
def Scan.option (scan : Scan) (name : String) (attached : Option String) :
    Except UsageError Scan :=
  match Key.ofName? name, attached with
  | none, some _ => .error (if name = "help" then .unneededValue else .unknownArgument)
  | none, none =>
    if name = "help" then do
      let _ ← scan.settle
      .error .helpRequested
    else .error .unknownArgument
  | some key, some value =>
    if key.isFlag then .error .unneededValue
    else do
      let scan ← scan.settle
      scan.settleValue key value
  | some key, none => do
    let scan ← scan.settle
    if key.isFlag then scan.settleValue key "" else .ok { scan with pending := .awaiting key }

/-- Read a word that is no option. -/
def Scan.plainWord (scan : Scan) (word : String) : Except UsageError Scan :=
  match scan.pending with
  | .awaiting key => .ok { scan with pending := .holding key word }
  | _ => .error .unknownArgument

/-- The name of an option and the value attached to it, if there is one. -/
def splitAttached (body : List Char) : String × Option String :=
  let name := String.ofList (body.takeWhile (· ≠ '='))
  match body.dropWhile (· ≠ '=') with
  | _ :: value => (name, some (String.ofList value))
  | [] => (name, none)

/-- Read a word. -/
def Scan.word (scan : Scan) (word : String) : Except UsageError Scan :=
  if scan.onlyWords then .error .unknownArgument
  else
    match word.toList with
    | ['-', '-'] => .ok { scan with onlyWords := true }
    | '-' :: '-' :: body =>
      let (name, attached) := splitAttached body
      scan.option name attached
    | '-' :: letter :: _ =>
      if letter = 'h' then do
        let _ ← scan.settle
        .error .helpRequested
      else .error .unknownArgument
    | _ => scan.plainWord word

/-! ## Whole command lines -/

/-- The number that a settled option holds. -/
def Scan.number? (scan : Scan) (key : Key) : Option Nat :=
  (scan.value? key).bind fun value => Text.decimalQuantity? value.toList

/-- Where the code comes from: exactly one of the two options says so. -/
def Scan.codeSource (scan : Scan) : Except UsageError CodeSource :=
  match scan.value? .code, scan.value? .codeFile with
  | some _, some _ => .error .conflict
  | some digits, none => .ok (.text digits)
  | none, some path => .ok (.file path)
  | none, none => .error .missingCode

/-- Take the document of settings from the surroundings where the command line names none. -/
def Scan.withConfig (scan : Scan) (config : Option String) : Except UsageError Scan :=
  match scan.value? .config, config with
  | none, some path => scan.settleValue .config path
  | _, _ => .ok scan

/-- Read the words of a command line; a document of settings may be named by the surroundings. -/
def read (words : List String) (surroundings : Option String) : Except UsageError Options := do
  let scan ← words.foldlM Scan.word Scan.start
  let scan ← scan.settle
  let scan ← scan.withConfig surroundings
  let code ← scan.codeSource
  .ok
    { code
      callData := scan.value? .callData
      callValue := scan.value? .callValue
      gasLimit := scan.number? .gasLimit
      config := scan.value? .config
      subroutines := (scan.value? .subroutines).isSome
      height := scan.number? .height }

/-! ## Options and settings -/

/-- The settings with those of the command line, which take precedence. -/
def override (o : Options) (s : Settings) : Settings :=
  { s with
    callData := o.callData.getD s.callData
    callValue := o.callValue.getD s.callValue
    gasLimit := o.gasLimit.getD s.gasLimit
    listingHeight := o.height.getD s.listingHeight
    subroutines := o.subroutines || s.subroutines }

end Options

end Retrace
