import TapeMachine.Control.Given

set_option autoImplicit false

namespace TapeMachine

/-- The edits of a configuration, each with what the caller gives. -/
inductive Edit where
  | addState (s : State)
  | addStates (ss : List State)
  | setItem (key : Label) (s : State)
  | removeState (label : Label)
  | addTransition (source : Label) (target action : Json) (output : Symbol) (inputs : SymbolSource)
  | removeTransition (source target : Label)
  | clearTransitions (label : Label)
  | clear
  | setStart (label : Label)

/-- The configuration after an edit, or the fault; nothing stands for all states when transitions are cleared. -/
def Configuration.edited (c : Configuration) : Edit → Except FilingFault Configuration
  | .addState s => .ok (c.add s)
  | .addStates ss => .ok (c.addAll ss)
  | .setItem key s => (c.addUnder key s).mapError .given
  | .removeState label => ((c.remove label).map Prod.fst).mapError .lookup
  | .addTransition source target action output inputs => c.addTransition source target action output inputs
  | .removeTransition source target => ((c.removeTransition source target).map Prod.fst).mapError .lookup
  | .clearTransitions label =>
      if label = .null then .ok c.clearTransitions else (c.clearTransitionsOf label).mapError .lookup
  | .clear => .ok c.clear
  | .setStart label => .ok { c with start := label }

def Configuration.write (c : Configuration) (key : Label) (s : State) : Configuration :=
  { c.add s with labels := c.labelsWith key s }

def Configuration.without (c : Configuration) (id : Nat) : Configuration :=
  { c with
    states := c.states.filter fun s => s.id ≠ id
    labels := c.labels.filter fun l => l.1 ≠ id }

abbrev Editing := ExceptT FilingFault (StateM Configuration)

namespace Editing

def on {α : Type} (job : Editing α) (c : Configuration) : Except FilingFault α × Configuration := job.run.run c

def lookUp (label : Label) : Editing State := do
  match (← get).get label with
  | .ok s => return s
  | .error fault => throw (.lookup fault)

def write (key : Label) (s : State) : Editing Unit := modify fun c => c.write key s

def setItem (key : Label) (s : State) : Editing Unit :=
  if key.names s.id then write key s else throw (.given (.foreignKey s.id key))

def addState (s : State) : Editing Unit := setItem (Label.ofId s.id) s

def addStates (ss : List State) : Editing Unit := ss.forM addState

def removeState (label : Label) : Editing Unit := do
  let s ← lookUp label
  modify fun c => c.without s.id

def addTransition (source : Label) (target action : Json) (output : Symbol) (inputs : SymbolSource) : Editing Unit := do
  let s ← lookUp source
  match Transition.ofGiven target action output inputs with
  | .ok t => write source (s.withTransition t)
  | .error fault => throw (.given fault)

def removeTransition (source target : Label) : Editing Unit := do
  let s ← lookUp source
  match s.without target with
  | .ok (rest, _) => write source rest
  | .error fault => throw (.lookup fault)

def clearTransitionsOf (label : Label) : Editing Unit := do
  let s ← lookUp label
  write label { s with transitions := [] }

def clearTransitions (label : Label) : Editing Unit := do
  let c ← get
  (if label = .null then c.ids else [label]).forM clearTransitionsOf

end Editing

namespace Edit

def program : Edit → Editing Unit
  | .addState s => Editing.addState s
  | .addStates ss => Editing.addStates ss
  | .setItem key s => Editing.setItem key s
  | .removeState label => Editing.removeState label
  | .addTransition source target action output inputs => Editing.addTransition source target action output inputs
  | .removeTransition source target => Editing.removeTransition source target
  | .clearTransitions label => Editing.clearTransitions label
  | .clear => modify Configuration.clear
  | .setStart label => modify fun c => { c with start := label }

/-- The states that an edit is given. -/
def states : Edit → List State
  | .addState s => [s]
  | .addStates ss => ss
  | .setItem _ s => [s]
  | _ => []

end Edit

end TapeMachine
