import Retrace.View
/-!
# Retrace — panels

The texts that the operator reads. Each panel is a headline and indented lines,
or one line that says that there is nothing. Offsets have at least four
hexadecimal digits, words and keys the fewest, counts and gas are decimal.
-/

namespace Retrace.Panel

open Text

/-- A word with the fewest hexadecimal digits. -/
def word (w : Word) : String := hex w.toNat

/-- A headline and its lines, or the text for none. -/
def panel (none headline : String) (entries : List String) : String :=
  if entries.isEmpty then none else lines (headline :: entries)

/-! ## Steps -/

/-- The place of a snapshot, its next instruction and the gas used. -/
def stepLine (s : Snapshot) (mnemonic : String) (total : Nat) : String :=
  "[" ++ decimal s.index ++ "/" ++ decimal total ++ "] PC=" ++ offset s.pc ++ "  " ++
    padRight 14 mnemonic ++ " gas_used=" ++ decimal s.gasUsed

/-- A snapshot in detail, with the `stackTop` topmost words. -/
def step (s : Snapshot) (mnemonic : String) (total stackTop : Nat) : String :=
  stepLine s mnemonic total ++ "  gas_left=" ++ decimal s.state.gas ++
    "\n  stack(" ++ decimal s.state.stack.height ++ "): [" ++
    ", ".intercalate ((s.stackTop stackTop).map word) ++ "]" ++
    match s.halted with
    | some reason => "\n  halted: " ++ reason.message
    | none => ""

/-- A snapshot on one line, marked if the cursor is on it. -/
def compactStep (s : Snapshot) (mnemonic : String) (total : Nat) (isCurrent : Bool) : String :=
  (if isCurrent then ">" else " ") ++ " " ++ stepLine s mnemonic total

/-! ## The session -/

/-- What a session has come to, and its parameters. -/
def info (summary : Summary) (env : Environment) : String :=
  "Recorded: " ++ decimal summary.recorded ++ " steps | gas_used: " ++ decimal summary.gasUsed ++
    " | status: " ++ (summary.halted.map Halt.message).getD "running" ++
    " | output: 0x" ++ bytesHex summary.output ++
    "\nPosition: " ++ decimal summary.position ++ "/" ++ decimal summary.recorded ++
    "\nCall data: 0x" ++ bytesHex env.callData ++ " | call value: " ++ word env.callValue ++
    " | gas limit: " ++ decimal env.gasLimit

/-- Why a continued run stopped. -/
def stopReason : StopReason → String
  | .breakpoint pc => "Breakpoint hit at PC=" ++ offset pc
  | .halted reason => "Execution halted: " ++ reason.message
  | .startOfHistory => "Reached start of history."
  | .stepLimit steps => "Stopped after " ++ decimal steps ++ " steps."

/-! ## The machine -/

/-- A word of the stack with its distance from the top. -/
def stackLine (entry : Word × Nat) : String :=
  "  [" ++ decimal entry.2 ++ "]: " ++ word entry.1

/-- The whole stack. -/
def stack (words : List Word) : String :=
  panel "Stack depth: 0 (empty)" ("Stack depth: " ++ decimal words.length ++ ":")
    (words.zipIdx.map stackLine)

/-- A word of memory. -/
def memoryLine (entry : Nat × Word) : String := "  " ++ offset entry.1 ++ ": " ++ word entry.2

/-- Words of memory with their offsets. -/
def memory (words : List (Nat × Word)) : String :=
  panel "Memory: (all zero)" ("Memory (" ++ decimal words.length ++ " non-zero words):")
    (words.map memoryLine)

/-- A slot of storage. -/
def storageLine (slot : Slot) : String := "  " ++ word slot.1 ++ " => " ++ word slot.2

/-- Slots of storage. -/
def storage (slots : List Slot) : String :=
  panel "Storage: (empty)" ("Storage (" ++ decimal slots.length ++ " slots):")
    (slots.map storageLine)

/-! ## The code -/

/-- A row of a listing, marked if it stands at `pc`. -/
def listingLine (pc : Nat) (row : Row) : String :=
  (if row.offset = pc then ">" else " ") ++ " " ++ offset row.offset ++ "  " ++
    padRight 14 row.mnemonic ++ " fee=" ++ padRight 5 ((row.fee.map decimal).getD "-") ++
    if row.immediate.size = 0 then "" else " 0x" ++ bytesHex row.immediate

/-- The rows of a listing. -/
def listing (rows : List Row) (pc : Nat) : String :=
  if rows.isEmpty then "(end of code)" else lines (rows.map (listingLine pc))

/-- An offset in hexadecimal and in decimal. -/
def bothWays (pc : Nat) : String := "PC=" ++ offset pc ++ " (" ++ decimal pc ++ ")"

/-- The breakpoints that are set. -/
def breakpoints (b : Breakpoints) : String :=
  panel "No breakpoints set." ("Breakpoints (" ++ decimal b.size ++ "):")
    (b.offsets.map fun pc => "  " ++ bothWays pc)

/-- The commands there are. -/
def help : String := lines
  ["Commands:",
   "  s, step            Step forward one instruction",
   "  sb, step-back      Step backward one instruction",
   "  c, continue        Continue until breakpoint or halt",
   "  rc, reverse-continue  Continue backward until breakpoint or start",
   "  b, break <pc>      Set breakpoint at PC (hex 0x0a or decimal 10)",
   "  d, delete <pc>     Delete breakpoint at PC",
   "  g, goto <step>     Jump to step number",
   "  i, info            Show session summary",
   "  st, stack          Show current stack",
   "  m, memory          Show non-zero memory words",
   "  ss, storage        Show storage slots",
   "  l, list [n]        List n steps around cursor (default: 5)",
   "  code               Disassemble from the current PC",
   "  bp, breakpoints    List all breakpoints",
   "  h, help            Show this help",
   "  q, quit            Exit debugger"]

end Retrace.Panel
