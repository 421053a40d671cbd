import Retrace.Settings
/-!
# Retrace — errors

What can go wrong around a session: a step that is not there, settings or a
document of settings that cannot be used, code that is not hexadecimal, a file
that cannot be read. A fault of the machine is no error; it is a halt.
-/

namespace Retrace

/-- Why a file cannot be read. -/
inductive FileFault where
  | notFound
  /-- Some other reason, in the words of the system. -/
  | other (text : String)
  deriving DecidableEq

/-- The wording of a fault with a file. -/
def FileFault.message : FileFault → String
  | .notFound => "No such file or directory (os error 2)"
  | .other text => text

/-- What can go wrong around a session. -/
inductive Error where
  | stepOutOfRange (cause : StepOutOfRange)
  /-- Settings that cannot be used. -/
  | settings (cause : Settings.Invalid)
  /-- A document of settings that is malformed or holds values of the wrong kind. -/
  | unreadableDocument
  /-- A document of settings that is not there. -/
  | missingDocument (path : String) (cause : FileFault)
  | hex (cause : HexText.Invalid)
  /-- Code that is not hexadecimal. -/
  | code (cause : HexText.Invalid)
  | file (cause : FileFault)
  deriving DecidableEq

/-- The wording of an error. -/
def Error.message : Error → String
  | .stepOutOfRange cause => cause.message
  | .settings cause => "Config error: " ++ cause.message
  | .unreadableDocument =>
    "Config error: Failed to parse TOML config: malformed, or a value of the wrong kind"
  | .missingDocument path cause =>
    "Config error: Failed to read config from " ++ path ++ ": " ++ cause.message
  | .hex cause => cause.message
  | .code cause => "Invalid bytecode: " ++ cause.message
  | .file cause => "IO error: " ++ cause.message

end Retrace
