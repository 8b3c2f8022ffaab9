import TapeMachine.Control.Label
import TapeMachine.Control.State

set_option autoImplicit false

namespace TapeMachine

inductive LookupFault where
  | noState (label : Label)
  | noTransition (label : Label) (symbol : Symbol)
  | noTarget (id : Nat) (label : Label)
  | noKey (label : Label)
deriving DecidableEq

namespace LookupFault

def message : LookupFault → Text
  | .noState label => "State " ++ label.plain ++ " is not part of the configuration."
  | .noTransition label symbol => "State " ++ label.plain ++ " has no transition for symbol " ++ symbol.quoted ++ "."
  | .noTarget id label => "State " ++ numeral id ++ " has no transition to " ++ label.plain ++ "."
  | .noKey label => "unhashable type: '" ++ label.typeName ++ "'"

end LookupFault

namespace State

def toward? (s : State) (label : Label) : Except LookupFault (Option Transition) :=
  if label.isKey then .ok (label.id?.bind s.towardId?) else .error (.noKey label)

def without (s : State) (target : Label) : Except LookupFault (State × Transition) := do
  match ← s.toward? target with
  | some t => return (s.withoutTarget t.target, t)
  | none => throw (.noTarget s.id target)

end State

structure Configuration where
  states : List State := []
  start : Label := Label.ofId 0
  labels : List (Nat × Label) := []
deriving DecidableEq

namespace Configuration

def find? (c : Configuration) (id : Int) : Option State := c.states.find? fun s => s.id = id

def named? (c : Configuration) (label : Label) : Except LookupFault (Option State) :=
  if label.isKey then .ok (label.id?.bind c.find?) else .error (.noKey label)

def contains (c : Configuration) (label : Label) : Except LookupFault Bool := (c.named? label).map Option.isSome

def labelOf (c : Configuration) (s : State) : Label :=
  ((c.labels.find? fun l => l.1 = s.id).map Prod.snd).getD (Label.ofId s.id)

def ids (c : Configuration) : List Label := c.states.map c.labelOf

def get (c : Configuration) (label : Label) : Except LookupFault State := do
  match ← c.named? label with
  | some s => return s
  | none => throw (.noState label)

def startState (c : Configuration) : Except LookupFault State := c.get c.start

/-- A state replaces the one with its id at its place, or comes last. -/
def place (s : State) : List State → List State
  | [] => [s]
  | u :: us => if u.id = s.id then s :: us else u :: place s us

def add (c : Configuration) (s : State) : Configuration := { c with states := place s c.states }

def addAll (c : Configuration) (ss : List State) : Configuration := ss.foldl add c

def ofStates (ss : List State) (start : Label) : Configuration := addAll { start } ss

def remove (c : Configuration) (label : Label) : Except LookupFault (Configuration × State) := do
  let s ← c.get label
  return ({ c with
    states := c.states.filter fun u => u.id ≠ s.id
    labels := c.labels.filter fun l => l.1 ≠ s.id }, s)

def file (c : Configuration) (label : Label) (t : Transition) : Except LookupFault Configuration := do
  let s ← c.get label
  return c.add (s.withTransition t)

def getTransition (c : Configuration) (label : Label) (symbol : Symbol) : Except LookupFault Transition := do
  let s ← c.get label
  match s.next? symbol with
  | some t => return t
  | none => throw (.noTransition label symbol)

def removeTransition (c : Configuration) (label target : Label) : Except LookupFault (Configuration × Transition) := do
  let s ← c.get label
  let (s, t) ← s.without target
  return (c.add s, t)

def clearTransitionsOf (c : Configuration) (label : Label) : Except LookupFault Configuration := do
  let s ← c.get label
  return c.add { s with transitions := [] }

def clearTransitions (c : Configuration) : Configuration :=
  { c with states := c.states.map fun s => { s with transitions := [] } }

def clear (c : Configuration) : Configuration := { c with states := [], labels := [] }

/-- Equality up to the order of states and transitions. -/
def same (a b : Configuration) : Bool :=
  a.start.same b.start && a.states.length = b.states.length &&
    a.states.all fun s => match b.find? s.id with
      | some u => s.same u
      | none => false

def describe (c : Configuration) : Text :=
  "Configuration(states=" ++ numeral c.states.length ++ ", start_state_id=" ++ c.start.plain ++ ")"

@[simp] theorem find_add_same (c : Configuration) (s : State) : (c.add s).find? s.id = some s := by
  obtain ⟨states, start, labels⟩ := c
  simp only [add, find?]
  induction states with
  | nil => simp [place]
  | cons u us ih =>
      by_cases hit : u.id = s.id
      · simp [place, hit]
      · have apart : (u.id : Int) ≠ s.id := fun same => hit (Int.ofNat_inj.mp same)
        rw [place, if_neg hit, List.find?_cons, decide_eq_false apart]
        exact ih

theorem find_add_other (c : Configuration) (s : State) (id : Int) (different : id ≠ s.id) :
    (c.add s).find? id = c.find? id := by
  obtain ⟨states, start, labels⟩ := c
  simp only [add, find?]
  induction states with
  | nil => simp [place, Ne.symm different]
  | cons u us ih =>
      by_cases hit : u.id = s.id
      · simp [place, hit, Ne.symm different]
      · simp only [place, if_neg hit, List.find?_cons]
        split
        · rfl
        · exact ih

end Configuration

end TapeMachine
