import Retrace.Machine.Table
import Retrace.Session.Session
import Retrace.Text.Hex
/-!
# Retrace — settings

The settings of a debugging session, each with a default. Call data and call
value stay the texts that the operator wrote; `validate` says whether they and
the sizes can be used, and names the first setting that cannot.
-/

namespace Retrace

/-- The settings of a session. -/
structure Settings where
  /-- The gas that a run starts with. -/
  gasLimit : Nat
  /-- The rows of a listing. -/
  listingHeight : Nat
  /-- The words of the stack shown with a step. -/
  stackTop : Nat
  /-- Whether subroutines can be called. -/
  subroutines : Bool
  /-- The most steps that a continued run takes. -/
  stepLimit : Nat
  /-- The call data in hexadecimal. -/
  callData : String
  /-- The call value in hexadecimal. -/
  callValue : String
  deriving DecidableEq

namespace Settings

/-- The settings where nothing is said. -/
def default : Settings where
  gasLimit := defaultGasLimit
  listingHeight := 10
  stackTop := 8
  subroutines := false
  stepLimit := defaultStepLimit
  callData := "a2e62045"
  callValue := "0"

/-! ## Validity -/

/-- A setting that cannot be used. -/
inductive Invalid where
  | gasLimit
  | listingHeight
  | stepLimit
  | callData (cause : HexText.Invalid)
  | callValue (cause : HexText.Invalid)
  deriving DecidableEq

/-- The wording of a refusal. -/
def Invalid.message : Invalid → String
  | .gasLimit => "gas_limit must be > 0"
  | .listingHeight => "viewport_height must be > 0"
  | .stepLimit => "max_continue_steps must be > 0"
  | .callData cause => "call_data: " ++ cause.message
  | .callValue cause => "call_value: " ++ cause.message

variable (s : Settings)

/-- Whether the settings can be used, or the first that cannot. -/
def validate : Except Invalid Unit := do
  if s.gasLimit = 0 then .error .gasLimit
  if s.listingHeight = 0 then .error .listingHeight
  if s.stepLimit = 0 then .error .stepLimit
  let _ ← (HexText.readBytes s.callData).mapError .callData
  let _ ← (HexText.readWord s.callValue).mapError .callValue
  .ok ()

/-! ## What the settings describe -/

/-- The parameters of the session. -/
def environment : Except HexText.Invalid Environment := do
  let callData ← HexText.readBytes s.callData
  let callValue ← HexText.readWord s.callValue
  .ok { Environment.blank with callData, callValue, gasLimit := s.gasLimit }

/-- The instruction table of the session. -/
def table : Table := if s.subroutines then Table.withSubroutines else Table.reference

end Settings

end Retrace
