import TapeMachine.Machine.Bench

set_option autoImplicit false

namespace TapeMachine

/-- What is done with a machine call by call, as each of them tells what it does. -/
abbrev Watched := StateM Station

namespace Watched

def tell (o : Observation) : Watched Unit := modify fun s => s.after s.machine [o]

def alter (change : Machine → Machine) : Watched Unit := modify fun s => s.after (change s.machine) []

def machine : Watched Machine := do return (← get).machine

def read (address : Int) : Watched Symbol := do
  let symbol := (← machine).tape.read address
  tell (.read address symbol)
  return symbol

def write (address : Int) (symbol : Symbol) : Watched Unit := do
  let old := (← machine).tape.read address
  alter fun m => { m with tape := m.tape.write address symbol }
  tell (.wrote address old symbol)

def load : Int → List Symbol → Watched Unit
  | _, [] => return
  | start, symbol :: rest => do
      write start symbol
      load (start + 1) rest

def window : List Int → Watched (List Symbol)
  | [] => return []
  | address :: rest => do
      let symbol ← read address
      return symbol :: (← window rest)

def chosen? (c : Configuration) (state : State) (symbol : Symbol) : Option (Transition × State) := do
  let t ← (← c.find? state.id).next? symbol
  return (t, ← c.find? t.target)

def obey : Option (Transition × State) → Watched Unit
  | none => alter fun m => if m.permissive then m else { m with status := some .rejected }
  | some (t, target) => do
      write (← machine).head t.output
      alter fun m => { m with head := m.head + t.action.offset }
      tell (.moved (← machine).state.id t)
      alter fun m => { m with state := target, status := some (Machine.verdict target) }

def sayHalt : Watched Unit := do
  match (← machine).status with
  | some .accepted => tell (.halted .accepted)
  | some .rejected => tell (.halted .rejected)
  | _ => return

def step (c : Configuration) : Watched Unit := do
  if (← machine).isActive then
    alter fun m => { m with steps := m.steps + 1 }
    let symbol ← read (← machine).head
    obey (chosen? c (← machine).state symbol)
    sayHalt

def run (c : Configuration) : Nat → Watched Nat
  | 0 => return 0
  | bound + 1 => do
      if (← machine).isActive then
        step c
        return (← run c bound) + 1
      else return 0

def reset (c : Configuration) : Watched (Except LookupFault Unit) := do
  alter fun m => { m with tape := m.tape.clear }
  match c.startState with
  | .error fault => return .error fault
  | .ok s =>
      alter fun m => { m with state := s, head := 0, status := none, steps := 0 }
      return .ok ()

def start (c : Configuration) (word : List Symbol) : Watched (Except LookupFault Unit) := do
  match ← reset c with
  | .error fault => return .error fault
  | .ok () =>
      load 0 word
      alter fun m => { m with status := some .active }
      return .ok ()

def answer : Except LookupFault Unit → Except MachineFault Reply
  | .ok () => .ok .done
  | .error fault => .error (.lookup fault)

def perform (c : Configuration) : Request → Watched (Except MachineFault Reply)
  | .start word => do return answer (← start c word)
  | .step => do
      if (← machine).status = none then return .error .notStarted
      step c
      return .ok .done
  | .run given => do
      match Quantity.stepBound given with
      | .ok bound => return .ok (.taken (← run c bound))
      | .error fault => if (← machine).isActive then return .error (.quantity fault) else return .ok (.taken 0)
  | .reset => do return answer (← reset c)
  | .window given => do
      match Quantity.radius given with
      | .error fault => return .error (.quantity fault)
      | .ok radius => return .ok (.symbols (← window (Tape.windowAddresses (← machine).head radius)))

end Watched

end TapeMachine
