import TapeMachine.Session

set_option autoImplicit false

namespace TapeMachine.Definition

def bytesSuffix : Text := ".tmb"

def base64Suffix : Text := ".b64"

def linesSuffix : Text := ".tm"

def loadLines (path : Path) : Job Definition := do
  Job.lift ((ofText (← Job.readText path.toText)).mapError .source)

def loadBytes (path : Path) : Job Definition := do
  Job.lift ((Binary.decodeDefinition (← Job.readBytes path.toText)).mapError .ofDecode)

def loadBase64 (path : Path) : Job Definition := do
  Job.lift ((Binary.decodeBase64 (← Job.readText path.toText)).mapError .base64)

def load (path : Path) : Job Definition :=
  if path.suffix = bytesSuffix then loadBytes path
  else if path.suffix = base64Suffix then loadBase64 path
  else loadLines path

def bytes (d : Definition) : Job Bytes := Job.lift ((Binary.encodeDefinition d).mapError .encode)

def base64 (d : Definition) : Job Text := Job.lift ((Binary.encodeBase64 d).mapError .encode)

def lines (d : Definition) : Job Text := Job.lift (d.toText.mapError .ofNotText)

def wrote (target : Text) : Text := Screen.styled "green" ("Wrote " ++ target)

def storeBytes [Screen] (d : Definition) (path : Path) : Job Unit := do
  Job.makePath path.parent
  Job.writeBytes path.toText (← d.bytes)
  Job.say (wrote path.toText)

end TapeMachine.Definition
