import TapeMachine.Control.Transition

set_option autoImplicit false

namespace TapeMachine

structure State where
  id : Nat
  acceptance : Acceptance := .none
  transitions : List Transition := []
deriving DecidableEq

namespace State

def isAccepting (s : State) : Bool := s.acceptance = .accept

def isRejecting (s : State) : Bool := s.acceptance = .reject

def next? (s : State) (symbol : Symbol) : Option Transition := s.transitions.find? (·.reads symbol)

def towardId? (s : State) (target : Int) : Option Transition := s.transitions.find? fun t => t.target = target

def withTransition (s : State) (t : Transition) : State := { s with transitions := t.file s.transitions }

def ofTransitions (id : Nat) (acceptance : Acceptance) (ts : List Transition) : State :=
  ⟨id, acceptance, Transition.fileAll ts []⟩

def withoutTarget (s : State) (target : Nat) : State :=
  { s with transitions := s.transitions.filter fun t => t.target ≠ target }

def describe (s : State) : Text :=
  let tag : Text := match s.acceptance with
    | .accept => "[ACC.] "
    | .reject => "[REJ.] "
    | .none => []
  tag ++ numeral s.id ++ " (" ++ numeral s.transitions.length ++ " Transition[s])"

def same (a b : State) : Bool :=
  a.id = b.id && a.acceptance = b.acceptance && a.transitions.length = b.transitions.length &&
    a.transitions.all fun t => b.towardId? t.target = some t

theorem of_transitions_cons (id : Nat) (acceptance : Acceptance) (ts : List Transition) (t : Transition) :
    ofTransitions id acceptance (ts ++ [t]) = (ofTransitions id acceptance ts).withTransition t := by
  simp [ofTransitions, withTransition, Transition.fileAll]

end State

end TapeMachine
