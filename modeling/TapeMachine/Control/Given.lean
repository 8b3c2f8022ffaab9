import TapeMachine.Control.Configuration

set_option autoImplicit false

namespace TapeMachine

inductive IdRole where
  | state
  | target
deriving DecidableEq

inductive GivenFault where
  | badId (role : IdRole) (given : Json)
  | badAcceptance (given : Json)
  | badAction (given : Json)
  | noInputs
  | misfiled (key : Json) (target : Nat)
  | foreignKey (id : Nat) (key : Label)
  | noKey (key : Json)

namespace GivenFault

def message : GivenFault → Text
  | .badId .state given => "State id must be an unsigned integer, got " ++ given.quoted ++ "."
  | .badId .target given => "Transition target id must be an unsigned integer, got " ++ given.quoted ++ "."
  | .badAcceptance given => given.quoted ++ " is not a valid Acceptance"
  | .badAction given => given.quoted ++ " is not a valid Action"
  | .noInputs => "A transition needs at least one input symbol."
  | .misfiled key target =>
      "Transition filed under " ++ key.plain ++ " must target " ++ key.plain ++ ", not " ++ numeral target ++ "."
  | .foreignKey id key => "State id " ++ numeral id ++ " must be equal to the key " ++ key.plain ++ "."
  | .noKey key => "unhashable type: '" ++ key.typeName ++ "'"

end GivenFault

def givenId (role : IdRole) : Json → Except GivenFault Nat
  | .int i => if 0 ≤ i then .ok i.toNat else .error (.badId role (.int i))
  | value => .error (.badId role value)

def givenAcceptance (value : Json) : Except GivenFault Acceptance :=
  match value.asInt?.bind Acceptance.ofTag? with
  | some a => .ok a
  | none => .error (.badAcceptance value)

def givenAction (value : Json) : Except GivenFault Action :=
  match value.asInt?.bind Action.ofTag? with
  | some a => .ok a
  | none => .error (.badAction value)

def givenKey (value : Json) : Except GivenFault Json := if value.isKey then .ok value else .error (.noKey value)

namespace Transition

def ofGiven (target action : Json) (output : Symbol) (source : SymbolSource) : Except GivenFault Transition := do
  let target ← givenId .target target
  let action ← givenAction action
  if source.symbols = [] then throw .noInputs
  return ⟨target, action, output, source.symbols⟩

end Transition

inductive TransitionSource where
  | listed (transitions : List Transition)
  | keyed (pairs : List (Json × Transition))

def placePair (key : Json) (t : Transition) : List (Json × Transition) → List (Json × Transition)
  | [] => [(key, t)]
  | (k, u) :: rest => if k.sameKey key then (k, t) :: rest else (k, u) :: placePair key t rest

def checkedPairs : List (Json × Transition) → Except GivenFault (List Transition)
  | [] => .ok []
  | (key, t) :: rest =>
      if key.asInt? = some (t.target : Int) then (checkedPairs rest).map (t :: ·)
      else .error (.misfiled key t.target)

def TransitionSource.filed : TransitionSource → Except GivenFault (List Transition)
  | .listed ts => .ok (Transition.fileAll ts [])
  | .keyed pairs => checkedPairs (pairs.foldl (fun acc (key, t) => placePair key t acc) [])

def State.ofGiven (id acceptance : Json) (source : TransitionSource) : Except GivenFault State := do
  let id ← givenId .state id
  let acceptance ← givenAcceptance acceptance
  let transitions ← source.filed
  return ⟨id, acceptance, transitions⟩

def Configuration.labelsWith (c : Configuration) (key : Label) (s : State) : List (Nat × Label) :=
  if (c.find? s.id).isSome ∨ key = Label.ofId s.id then c.labels else (s.id, key) :: c.labels

def Configuration.addUnder (c : Configuration) (key : Label) (s : State) : Except GivenFault Configuration :=
  if key.names s.id then .ok { c.add s with labels := c.labelsWith key s } else .error (.foreignKey s.id key)

inductive FilingFault where
  | lookup (fault : LookupFault)
  | given (fault : GivenFault)

def Configuration.addTransition (c : Configuration) (source : Label) (target action : Json) (output : Symbol)
    (inputs : SymbolSource) : Except FilingFault Configuration := do
  let s ← (c.get source).mapError .lookup
  let t ← (Transition.ofGiven target action output inputs).mapError .given
  return c.add (s.withTransition t)

end TapeMachine
