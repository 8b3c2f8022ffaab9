import TapeMachine.Command.Arguments
import TapeMachine.Session

set_option autoImplicit false

namespace TapeMachine

abbrev Command := Job Nat

namespace Command

def withArguments (g : Grammar) (pieces : List Text) (body : Arguments → Command) : Command :=
  match g.read pieces with
  | .ok a => body a
  | .error stop => return stop.code

def isReported (k : FaultKind) : Bool := k.isValue || k.isLookup || k.isSystem

def complaint (lead : Text) (fault : Fault) : Text := Screen.styled "red" (lead ++ ": " ++ fault.message)

def reported [Screen] {α : Type} (expected : FaultKind → Bool) (lead : Text) (body : Job α) : Job (Option α) :=
  Job.recover expected (do return some (← body)) fun fault => do
    Job.say (complaint lead fault)
    return none

end Command

end TapeMachine
