import TapeMachine.Command.Basic
import TapeMachine.Definition.Stored
import TapeMachine.View.Inspection

set_option autoImplicit false

namespace TapeMachine.Command

def bytesFlag : Text := "--bytes"

def toBinary : Text := "--to-binary"

def toText : Text := "--to-text"

def toBase64 : Text := "--to-base64"

def inspectGrammar : Grammar :=
  { options := [⟨bytesFlag, .flag, false⟩, ⟨toBinary, .text, false⟩, ⟨toText, .text, false⟩, ⟨toBase64, .flag, false⟩]
    takesOperand := true }

def printBytes [Screen] (d : Definition) : Job Unit := do
  Job.say "\n=== Configuration (bytes) ==="
  (Hex.rows 32 (← d.bytes)).forM fun row => Job.say ("    " ++ row)

def inspect [Screen] (pieces : List Text) : Command :=
  withArguments inspectGrammar pieces fun a => do
    let path := a.operand.getD []
    match ← reported FaultKind.isReading "Error" (Definition.load (Path.ofText path)) with
    | none => return 1
    | some d =>
        Job.say ("[INFO] Definition " ++ path)
        d.inspection.forM Job.print
        if a.has bytesFlag then printBytes d
        if a.has toBase64 then Job.say (← d.base64)
        match a.someText? toBinary with
        | some target => d.storeBytes (Path.ofText target)
        | none => pure ()
        match a.someText? toText with
        | some target =>
            Job.writeText (Path.ofText target).toText (← d.lines)
            Job.say (Definition.wrote target)
        | none => pure ()
        return 0

end TapeMachine.Command
