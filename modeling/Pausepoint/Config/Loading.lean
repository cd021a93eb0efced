import Pausepoint.Config.Reading
import Pausepoint.Files

/-!
# Loading settings

Settings are loaded from a file, whose text is given by a function from paths.
-/

namespace Pausepoint

/-- Why settings cannot be loaded. -/
inductive LoadFault
  /-- The file cannot be read. -/
  | unreadable (path : String) (cause : ReadFault)
  /-- Its text holds no settings. -/
  | settings (fault : SettingsFault)
  deriving Repr, DecidableEq, Inhabited

def LoadFault.message : LoadFault → String
  | .unreadable path cause => s!"failed to read config file {path}: {cause.message}"
  | .settings fault => fault.message

/-- The settings in a file. -/
def Settings.load (read : String → Except ReadFault String) (path : String) :
    Except LoadFault Settings :=
  match read path with
  | .error cause => .error (.unreadable path cause)
  | .ok text =>
      match Settings.ofToml text with
      | .ok settings => .ok settings
      | .error fault => .error (.settings fault)

end Pausepoint
