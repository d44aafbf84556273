import PadRouter.Config.Storage
import PadRouter.Router

/-!
# Starting a router from its configuration

* `Router.ofConfig` — checks the configuration and puts the device records of its file over the
  shipped ones.
-/

namespace PadRouter.Router

/-- The shipped register with the records of a file put in. -/
def loadRegister (folder : Folder) (path : String) :
    Except ConfigError (Register × List Notice) := do
  let loaded ← (Register.shipped.load folder path).mapError .register
  return (loaded.1, [.registerLoaded path loaded.2])

/-- The router of a configuration that makes sense. -/
def ofConfig (folder : Folder) (c : Config) : Except ConfigError (Outcome Router Unit) := do
  c.validate
  match c.registerPath with
  | none => return start c .shipped
  | some path =>
    let (register, notices) ← loadRegister folder path
    return (start c register).after (.ofNotices notices)

end PadRouter.Router
