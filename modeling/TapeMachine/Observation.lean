import TapeMachine.Control.Configuration
import TapeMachine.Tape

set_option autoImplicit false

namespace TapeMachine

inductive Status where
  | active
  | accepted
  | rejected
deriving DecidableEq

def Status.name : Status → Text
  | .active => "ACTIVE"
  | .accepted => "HALTED_ACCEPT"
  | .rejected => "HALTED_REJECT"

inductive Observation where
  | read (address : Int) (symbol : Symbol)
  | wrote (address : Int) (old new : Symbol)
  | moved (state : Nat) (transition : Transition)
  | halted (status : Status)
deriving DecidableEq

inductive EventKind where
  | read
  | write
  | transition
  | halted
deriving DecidableEq

namespace EventKind

def name : EventKind → Text
  | .read => "READ"
  | .write => "WRITE"
  | .transition => "TRANSITION"
  | .halted => "HALTED"

def ofName? (t : Text) : Option EventKind := [read, write, transition, halted].find? fun k => k.name = t

end EventKind

inductive NoteFault where
  | unknownKind (given : Json)
  | takenName (name : Text)
deriving DecidableEq

namespace NoteFault

def message : NoteFault → Text
  | .unknownKind given => given.quoted ++ " is not a valid EventType"
  | .takenName name => "InMemoryEventSink.emit() got multiple values for argument " ++ name.quoted

end NoteFault

def EventKind.ofGiven (given : Json) : Except NoteFault EventKind :=
  let named : Option EventKind := match given with
    | .text t => ofName? t
    | _ => none
  match named with
  | some kind => .ok kind
  | none => .error (.unknownKind given)

namespace Observation

def kind : Observation → EventKind
  | .read _ _ => .read
  | .wrote _ _ _ => .write
  | .moved _ _ => .transition
  | .halted _ => .halted

end Observation

inductive EventContent where
  | seen (observation : Observation)
  | noted (kind : EventKind) (fields : Fields)

namespace EventContent

def kind : EventContent → EventKind
  | .seen o => o.kind
  | .noted k _ => k

end EventContent

structure Event where
  number : Nat
  content : EventContent

/-- The events so far, the latest first, and the number of the latest. -/
structure EventLog where
  recordsReads : Bool := true
  latest : Nat := 0
  reversed : List Event := []

namespace EventLog

def events (log : EventLog) : List Event := log.reversed.reverse

def emit (log : EventLog) (content : EventContent) : EventLog :=
  { log with latest := log.latest + 1, reversed := ⟨log.latest + 1, content⟩ :: log.reversed }

def takenNames : List Text := ["self", "event_type"]

def note (log : EventLog) (kind : EventKind) (fields : Fields) : Except NoteFault EventLog :=
  match (fields.map Prod.fst).find? takenNames.contains with
  | some name => .error (.takenName name)
  | none => .ok (log.emit (.noted kind fields))

def receive (log : EventLog) (o : Observation) : EventLog :=
  if o.kind = .read ∧ log.recordsReads = false then log else log.emit (.seen o)

def receiveAll (log : EventLog) (os : List Observation) : EventLog := os.foldl receive log

def numbersOf (log : EventLog) (kind : EventKind) : List Nat :=
  (log.events.filter fun e => e.content.kind = kind).map Event.number

def since (log : EventLog) (count : Nat) : List Event := (log.reversed.take (log.reversed.length - count)).reverse

def clear (log : EventLog) : EventLog := { log with latest := 0, reversed := [] }

end EventLog

namespace Tape

def readings (t : Tape) (addresses : List Int) : List Observation := addresses.map fun a => .read a (t.read a)

def loadings (t : Tape) (start : Int) : List Symbol → List Observation
  | [] => []
  | s :: rest => .wrote start (t.read start) s :: loadings (t.write start s) (start + 1) rest

end Tape

end TapeMachine
