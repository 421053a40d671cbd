import Retrace.Text.Numeral
/-!
# Retrace — commands

A line of input is a command word and, behind the first blank, its argument.
Only the plain blank ends the word; around the line and the argument all blanks
are ignored. A line may be empty, may begin with a word that is no command, or
may lack the number that its command needs; the three are told apart because
only the second is worth a message.
-/

namespace Retrace

/-- What the operator can ask for. -/
inductive Command where
  | step
  | stepBack
  | continueForward
  | continueBackward
  | setBreakpoint (pc : Nat)
  | deleteBreakpoint (pc : Nat)
  | goto (step : Nat)
  | info
  | stack
  | memory
  | storage
  | list (count : Nat)
  | code
  | breakpoints
  | help
  | quit
  deriving DecidableEq

namespace Command

/-- Why a line is no command. -/
inductive Refusal where
  | blank
  | unknownWord (word : String)
  | missingNumber
  deriving DecidableEq

/-- The snapshots listed where no number is given. -/
def defaultListCount : Nat := 5

/-- A command that needs a number. -/
def needing (make : Nat → Command) (argument : List Char) : Except Refusal Command :=
  match Text.numeral? argument with
  | some n => .ok (make n)
  | none => .error .missingNumber

/-- The command of a word with its argument, which is empty if there is none. -/
def ofWord (word : String) (argument : List Char) : Except Refusal Command :=
  match word with
  | "s" | "step" => .ok .step
  | "sb" | "step-back" => .ok .stepBack
  | "c" | "continue" => .ok .continueForward
  | "rc" | "reverse-continue" => .ok .continueBackward
  | "b" | "break" => needing setBreakpoint argument
  | "d" | "delete" => needing deleteBreakpoint argument
  | "g" | "goto" => needing goto argument
  | "i" | "info" => .ok .info
  | "st" | "stack" => .ok .stack
  | "m" | "memory" => .ok .memory
  | "ss" | "storage" => .ok .storage
  | "l" | "list" => .ok (.list ((Text.numeral? argument).getD defaultListCount))
  | "code" => .ok .code
  | "bp" | "breakpoints" => .ok .breakpoints
  | "h" | "help" => .ok .help
  | "q" | "quit" => .ok .quit
  | _ => .error (.unknownWord word)

/-- Read a line. -/
def read (line : String) : Except Refusal Command :=
  let text := Text.trim line.toList
  if text.isEmpty then .error .blank
  else ofWord (String.ofList (text.takeWhile (· ≠ ' '))) ((text.dropWhile (· ≠ ' ')).drop 1)

/-- The command of a line, if it has one. -/
def read? (line : String) : Option Command := (read line).toOption

end Command

end Retrace
