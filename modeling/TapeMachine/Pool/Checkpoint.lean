import TapeMachine.Settings.Stored

set_option autoImplicit false

namespace TapeMachine.Checkpoint

def key : Text := "completed"

def load (path : Path) : Job Json := do
  if !(← Job.find? path.toText) then return .list []
  match ← Settings.readJson path.toText with
  | .object fields => return (Fields.find? key fields).getD (.list [])
  | value => throw (.noFields value)

def checkItems : List Json → Except Fault Unit
  | [] => .ok ()
  | .list items :: _ => .error (.noKey (.list items))
  | .object fields :: _ => .error (.noKey (.object fields))
  | _ :: rest => checkItems rest

def textOf? : Json → Option Text
  | .text t => some t
  | _ => none

def words : Json → Except Fault (List Text)
  | .list items => do
      checkItems items
      return items.filterMap textOf?
  | .text t => .ok (t.map ([·]))
  | .object fields => .ok (fields.map Prod.fst)
  | value => .error (.notSequence value)

def extend (completed : Json) (fresh : List Text) : Except Fault Json :=
  match completed with
  | .list items => .ok (.list (items ++ fresh.map .text))
  | value => .error (.noItems value)

def save (path : Path) (completed : Json) : Job Unit :=
  Job.writeText path.toText (Json.object [(key, completed)]).indented

end TapeMachine.Checkpoint
