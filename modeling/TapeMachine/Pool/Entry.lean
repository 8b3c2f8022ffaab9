import TapeMachine.Machine.Basic
import TapeMachine.Definition.Printer
import TapeMachine.Binary.Cursor
import TapeMachine.Quantity

set_option autoImplicit false

namespace TapeMachine

inductive RunFault where
  | noBlank
  | foreignInput (input : Text) (symbols : List Text)
  | lookup (fault : LookupFault)
  | notText (fault : NotText)
  | quantity (fault : QuantityFault)
deriving DecidableEq

namespace RunFault

def message : RunFault → Text
  | .noBlank => "The definition declares no blank symbol (%blank)."
  | .foreignInput input symbols =>
      "Input " ++ input.quoted ++ " uses symbols outside the charset: " ++ quotedList symbols
  | .lookup fault => fault.message
  | .notText fault => fault.message
  | .quantity fault => fault.message

end RunFault

structure Entry where
  input : Text
  status : Status
  steps : Nat
  head : Int
  state : Nat
  tape : Text
deriving DecidableEq

def Entry.toJson (e : Entry) : Json :=
  .object [("input", .text e.input), ("status", .text e.status.name), ("accepted", .bool (e.status = .accepted)),
    ("steps_taken", .int e.steps), ("head", .int e.head), ("final_state", .int e.state), ("tape", .text e.tape)]

namespace Definition

def foreignInputs (d : Definition) (input : Text) : List Text :=
  Text.sorted (firstSeen ((input.filter fun c => !d.declares c).map ([·])))

def create (d : Definition) (permissive : Bool) : Except RunFault Machine :=
  match d.blank with
  | none => .error .noBlank
  | some blank => match Machine.create d.configuration (.text blank) permissive with
    | .ok m => .ok m
    | .error fault => .error (.lookup fault)

def lifted {α : Type} (result : Except LookupFault α) : Except RunFault α := result.mapError .lookup

/-- Runs a machine for the definition on a word; the bound is looked at when the machine is ready. -/
def runInput (d : Definition) (input : Text) (maxSteps : Json) (permissive : Bool) : Except RunFault Entry := do
  let blank ← match d.blank with
    | some blank => pure blank
    | none => throw .noBlank
  match d.foreignInputs input with
  | [] => pure ()
  | symbols => throw (.foreignInput input symbols)
  let m ← lifted (Machine.create d.configuration (.text blank) permissive)
  let (m, started) := m.start d.configuration (input.map Symbol.char)
  lifted started
  let bound ← (Quantity.stepBound maxSteps).mapError .quantity
  let m := m.run d.configuration bound
  let tape ← (joinSymbols m.tape.dense).mapError .notText
  return ⟨input, m.status.getD .active, m.steps, m.head, m.state.id, tape⟩

end Definition

end TapeMachine
