import TapeMachine.Symbol

set_option autoImplicit false

namespace TapeMachine

inductive Acceptance where
  | none
  | accept
  | reject
deriving DecidableEq

inductive Action where
  | stay
  | left
  | right
deriving DecidableEq

namespace Acceptance

def tag : Acceptance → Nat
  | .none => 0
  | .accept => 1
  | .reject => 2

def ofTag? (n : Int) : Option Acceptance :=
  if n = 0 then some .none else if n = 1 then some .accept else if n = 2 then some .reject else Option.none

@[simp] theorem of_tag_tag (a : Acceptance) : ofTag? a.tag = some a := by cases a <;> rfl

end Acceptance

namespace Action

def tag : Action → Nat
  | .stay => 0
  | .left => 1
  | .right => 2

def ofTag? (n : Int) : Option Action :=
  if n = 0 then some .stay else if n = 1 then some .left else if n = 2 then some .right else Option.none

def offset : Action → Int
  | .stay => 0
  | .left => -1
  | .right => 1

def letter : Action → CodePoint
  | .stay => '-'
  | .left => 'l'
  | .right => 'r'

def capital : Action → CodePoint
  | .stay => '-'
  | .left => 'L'
  | .right => 'R'

def name : Action → Text
  | .stay => "NONE"
  | .left => "MOVE_LEFT"
  | .right => "MOVE_RIGHT"

@[simp] theorem of_tag_tag (a : Action) : ofTag? a.tag = some a := by cases a <;> rfl

end Action

structure Transition where
  target : Nat
  action : Action
  output : Symbol
  inputs : List Symbol
deriving DecidableEq

namespace Transition

def reads (t : Transition) (s : Symbol) : Bool := t.inputs.contains s

def merge (t : Transition) (symbols : List Symbol) : Transition := { t with inputs := firstSeen (t.inputs ++ symbols) }

def describe (t : Transition) : Text :=
  "'" ++ Text.join "', '" (t.inputs.map Symbol.plain) ++ "'  -->  (" ++ t.action.name ++ ", '" ++ t.output.plain ++
    "', " ++ numeral t.target ++ ")"

/-- Files a transition by its target: one that is there already is merged, a new one comes last. -/
def file (t : Transition) : List Transition → List Transition
  | [] => [t]
  | u :: us => if u.target = t.target then u.merge t.inputs :: us else u :: file t us

def fileAll (ts : List Transition) (filed : List Transition) : List Transition :=
  ts.foldl (fun acc t => file t acc) filed

end Transition

end TapeMachine
