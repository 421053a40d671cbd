import Retrace.Error
import Retrace.Toml.Document
/-!
# Retrace — settings in a document

A TOML document may hold settings in its table `debugger`, by name, or as an
array in the order of the fields. What it does not name keeps its default, and
what it names besides is ignored. A date or a time counts as a table that names
no setting. Any other value of the wrong kind makes the whole document
unreadable, and settings that were read are validated.
-/

namespace Retrace

namespace Settings

/-- A setting that is a 64-bit quantity. -/
def quantityOf? : Toml.Node → Option Nat
  | .integer value => if 0 ≤ value then some value.toNat else none
  | _ => none

/-- A setting that is a truth value. -/
def truthOf? : Toml.Node → Option Bool
  | .boolean value => some value
  | _ => none

/-- A setting that is a text. -/
def textOf? : Toml.Node → Option String
  | .text value => some value
  | _ => none

/-- A setting of a kind, or its default where the document does not name it. -/
def fieldOr {α : Type} (read : Toml.Node → Option α) (default : α) : Option Toml.Node → Option α
  | some node => read node
  | none => some default

/-- The settings whose nodes the given function finds: by position and by name. -/
def ofNodes? (find? : Nat → String → Option Toml.Node) : Option Settings := do
  let gasLimit ← fieldOr quantityOf? default.gasLimit (find? 0 "gas_limit")
  let listingHeight ← fieldOr quantityOf? default.listingHeight (find? 1 "viewport_height")
  let stackTop ← fieldOr quantityOf? default.stackTop (find? 2 "stack_top_capture")
  let subroutines ← fieldOr truthOf? default.subroutines (find? 3 "subroutines")
  let stepLimit ← fieldOr quantityOf? default.stepLimit (find? 4 "max_continue_steps")
  let callData ← fieldOr textOf? default.callData (find? 5 "call_data")
  let callValue ← fieldOr textOf? default.callValue (find? 6 "call_value")
  some { gasLimit, listingHeight, stackTop, subroutines, stepLimit, callData, callValue }

/-- The settings of a node, by name or by position. -/
def ofNode? : Toml.Node → Option Settings
  | .table _ entries => ofNodes? fun _ name => Toml.Entries.find? entries name
  | .inline entries => ofNodes? fun _ name => Toml.Entries.find? entries name
  | .array items => ofNodes? fun position _ => items[position]?
  | .dateTime => some default
  | _ => none

/-- The settings of a document, not yet validated. -/
def ofDocument? (document : String) : Option Settings := do
  let root ← Toml.read? document
  match Toml.Entries.find? root "debugger" with
  | some node => ofNode? node
  | none => some default

/-- Read the settings of a document and validate them. -/
def read (document : String) : Except Error Settings :=
  match ofDocument? document with
  | none => .error .unreadableDocument
  | some settings => do
    settings.validate.mapError .settings
    .ok settings

end Settings

end Retrace
