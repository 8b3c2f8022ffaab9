import TapeMachine.Json.Printer
import TapeMachine.Session

set_option autoImplicit false

namespace TapeMachine.Settings

def defaultPath : Text := "config/runtime_config.json"

def check (settings : Settings) : Job Unit := Job.lift ((validate settings).mapError .settings)

/-- The text of a setting; settings are looked at after they were checked. -/
def text (key : Text) (settings : Settings) : Text :=
  match settings.find? key with
  | some (.text t) => t
  | _ => []

def truth (key : Text) (settings : Settings) : Bool := (settings.value key).truth

def readJson (path : Text) : Job Json := do
  let t ← Job.readText path
  Job.lift ((Json.read t).mapError (.json t))

def load (path : Text) : Job Settings := do
  if !(← Job.exists? path) then throw (.noSettings path)
  let added ← Job.lift ((added (← readJson path)).mapError .settings)
  let settings := ofDefaults added
  check settings
  Job.makeFolders (text outputDirectory settings)
  return settings

def echo (settings : Settings) : Job Unit := do
  Job.writeLine ("[" ++ (← Job.today) ++ " 00:00:00] Loaded config:")
  settings.forM fun (key, value) => Job.writeLine ("  " ++ key.plain ++ ": " ++ value.plain)

def loadAloud (path : Text) : Job Settings := do
  let settings ← load path
  echo settings
  return settings

def loadOrDefault (path : Text) : Job Settings := do
  if ← Job.exists? path then load path
  else do
    check defaults
    return defaults

def save (settings : Settings) (path : Text) : Job Unit := do
  check settings
  let folder := folderOf path
  Job.makeFolders (if folder = [] then thisFolder else folder)
  Job.writeText path (Entries.toObject settings).indented

end TapeMachine.Settings
