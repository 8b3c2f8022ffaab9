import TapeMachine.Observation
import TapeMachine.Quantity

set_option autoImplicit false

namespace TapeMachine

structure Machine where
  tape : Tape
  permissive : Bool
  state : State
  head : Int := 0
  status : Option Status := none
  steps : Nat := 0

inductive MachineFault where
  | lookup (fault : LookupFault)
  | notStarted
  | quantity (fault : QuantityFault)
deriving DecidableEq

namespace MachineFault

def message : MachineFault → Text
  | .lookup fault => fault.message
  | .notStarted => "initialize() must be called before the machine can step."
  | .quantity fault => fault.message

end MachineFault

namespace Machine

def create (c : Configuration) (blank : Symbol) (permissive : Bool) : Except LookupFault Machine := do
  let s ← c.startState
  return { tape := ⟨blank, ∅⟩, permissive, state := s }

def reset (c : Configuration) (m : Machine) : Machine × Except LookupFault Unit :=
  let cleared := { m with tape := m.tape.clear }
  match c.startState with
  | .ok s => ({ cleared with state := s, head := 0, status := none, steps := 0 }, .ok ())
  | .error fault => (cleared, .error fault)

def start (c : Configuration) (m : Machine) (word : List Symbol) : Machine × Except LookupFault Unit :=
  match m.reset c with
  | (m, .ok ()) => ({ m with tape := m.tape.load 0 word, status := some .active }, .ok ())
  | (m, .error fault) => (m, .error fault)

def isActive (m : Machine) : Bool := m.status = some .active

def hasHalted (m : Machine) : Bool := if m.permissive then m.isActive else !m.isActive

def enabled? (c : Configuration) (m : Machine) : Option (Transition × State) := do
  let s ← c.find? m.state.id
  let t ← s.next? (m.tape.read m.head)
  let target ← c.find? t.target
  return (t, target)

def verdict (s : State) : Status :=
  if s.isAccepting then .accepted else if s.isRejecting then .rejected else .active

def next (c : Configuration) (m : Machine) : Machine :=
  if m.isActive then
    match m.enabled? c with
    | some (t, target) =>
        { m with
          tape := m.tape.write m.head t.output
          head := m.head + t.action.offset
          state := target
          status := some (verdict target)
          steps := m.steps + 1 }
    | none => { m with status := some (if m.permissive then .active else .rejected), steps := m.steps + 1 }
  else m

def seen (c : Configuration) (m : Machine) : List Observation :=
  if m.isActive then
    let symbol := m.tape.read m.head
    let moved : List Observation := match m.enabled? c with
      | some (t, _) => [.wrote m.head symbol t.output, .moved m.state.id t]
      | none => []
    let halted : List Observation := match (m.next c).status with
      | some .active => []
      | some status => [.halted status]
      | none => []
    .read m.head symbol :: moved ++ halted
  else []

def run (c : Configuration) : Nat → Machine → Machine
  | 0, m => m
  | bound + 1, m => if m.isActive then run c bound (m.next c) else m

def runSeen (c : Configuration) : Nat → Machine → List Observation → List Observation
  | 0, _, after => after
  | bound + 1, m, after =>
      if m.isActive then runSeen c bound (m.next c) ((m.seen c).reverse ++ after) else after

def window (m : Machine) (radius : Int) : List Symbol := m.tape.window m.head radius

def describe (m : Machine) : Text :=
  let status : Text := match m.status with
    | some status => status.name
    | none => "UNINITIALIZED"
  "TuringMachine(state=" ++ numeral m.state.id ++ ", address=" ++ signedNumeral m.head ++ ", status=" ++ status ++ ")"

theorem next_of_not_active (c : Configuration) (m : Machine) (idle : m.isActive = false) : m.next c = m := by
  simp [next, idle]

theorem run_of_not_active (c : Configuration) (bound : Nat) (m : Machine) (idle : m.isActive = false) :
    m.run c bound = m := by
  cases bound <;> simp [run, idle]

theorem next_steps (c : Configuration) (m : Machine) (active : m.isActive = true) : (m.next c).steps = m.steps + 1 := by
  simp only [next, active, if_true]
  split <;> rfl

@[simp] theorem next_permissive (c : Configuration) (m : Machine) : (m.next c).permissive = m.permissive := by
  unfold next
  split
  · split <;> rfl
  · rfl

theorem run_add (c : Configuration) (a b : Nat) (m : Machine) : m.run c (a + b) = (m.run c a).run c b := by
  induction a generalizing m with
  | zero => simp [run]
  | succ a ih =>
      rw [Nat.succ_add]
      by_cases active : m.isActive = true
      · simp only [run, active, if_true]
        exact ih _
      · have idle : m.isActive = false := by simpa using active
        rw [run_of_not_active c _ m idle, run_of_not_active c _ m idle, run_of_not_active c _ m idle]

end Machine

end TapeMachine
