import PadRouter.Register.Storage
import PadRouter.Toml.Parser
import PadRouter.Toml.Printer

/-!
# Keeping the configuration in files

A configuration is kept as a TOML document.

* `Config.ofToml` — the configuration of a text, which also has to make sense.
* `Config.toToml` — the text of a configuration; numbers from `2 ^ 63` on have none.
* `Config.load`, `Config.save` — the same with a file.
-/

namespace PadRouter

/-- Why a configuration cannot be read, written or used. -/
inductive ConfigError
  /-- The file cannot be used. -/
  | file (path : String) (cause : AccessError)
  /-- The text is no configuration. -/
  | malformed
  /-- The format has no form for one of the numbers. -/
  | unwritable
  /-- The configuration makes no sense. -/
  | invalid (fault : ConfigFault)
  /-- The device records cannot be read. -/
  | register (error : RegisterError)
  deriving DecidableEq, Repr

/-- The wording of the error. -/
def ConfigError.message : ConfigError → String
  | file path cause => "cannot access config file " ++ path ++ ": " ++ cause.message
  | malformed => "malformed config"
  | unwritable => "cannot serialize config"
  | invalid fault => "invalid config: " ++ fault.message
  | register error => error.message

namespace Config

/-- The configuration of a text, whether or not it makes sense. -/
def read? (text : String) : Option Config :=
  Toml.parse? text >>= Storable.ofTree? Toml.dialect

/-- Refuses a configuration that makes no sense. -/
def validate (c : Config) : Except ConfigError Unit := c.check.mapError .invalid

/-- The configuration of a text. -/
def ofToml (text : String) : Except ConfigError Config := do
  let c ← (read? text).elim (.error .malformed) .ok
  c.validate
  return c

/-- The text of a configuration. -/
def toToml (c : Config) : Except ConfigError String :=
  (Toml.render? (toTree c)).elim (.error .unwritable) .ok

/-- Reads a configuration from a file. -/
def load (folder : Folder) (path : String) : Except ConfigError Config :=
  match folder.readText path with
  | .ok text => ofToml text
  | .error cause => .error (.file path cause)

/-- Writes a configuration to a file; without a text for it the file is not touched. -/
def save (c : Config) (folder : Folder) (path : String) : Except ConfigError Folder := do
  let text ← c.toToml
  (folder.writeText path text).mapError (.file path)

end Config

end PadRouter
