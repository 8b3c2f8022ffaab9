import TapeMachine.Delay
import TapeMachine.Machine.Bench
import TapeMachine.Picture
import TapeMachine.Pool.Entry
import TapeMachine.Recent

set_option autoImplicit false

namespace TapeMachine

structure Frame where
  window : Text
  head : Int
  state : Nat
deriving DecidableEq

def Machine.frame (m : Machine) (radius : Int) : Frame :=
  ⟨(m.window radius).flatMap Symbol.plain, m.head, m.state.id⟩

structure Trace where
  machine : Machine
  radius : Int
  history : List Frame
  log : EventLog

/-- How to trace, by values that were given: most steps, cells on each side of the head, transitions
that are shown, and frames that are kept. -/
structure TracePlan where
  permissive : Bool := false
  maxSteps : Json := .int 100000
  radius : Json := .int 20
  shown : Json := .int 10
  historyLimit : Json := .int 10000
  delay : Json := .null
  live : Bool := false

inductive TraceFault where
  | run (fault : RunFault)
  | quantity (fault : QuantityFault)
  | delay (fault : DelayFault)

namespace TraceFault

def message : TraceFault → Text
  | .run fault => fault.message
  | .quantity fault => fault.message
  | .delay fault => fault.message

end TraceFault

namespace TracePlan

def drawable (plan : TracePlan) : Except TraceFault Unit := do
  if plan.live then
    let _ ← (PictureSize.ofGiven plan.radius plan.shown).mapError .quantity

/-- A delay is looked at when there is a step to wait for. -/
def patient (plan : TracePlan) (bound : Nat) : Except TraceFault Unit :=
  if 0 < bound then (Delay.check plan.delay).mapError .delay else .ok ()

def numbers (plan : TracePlan) : Except TraceFault (Option Nat × Nat × Int) := do
  let limit ← (Quantity.count? plan.historyLimit).mapError .quantity
  plan.drawable
  let bound ← (Quantity.stepBound plan.maxSteps).mapError .quantity
  let radius ← (Quantity.radius plan.radius).mapError .quantity
  plan.patient bound
  return (limit, bound, radius)

end TracePlan

structure Tracer (limit : Option Nat) where
  station : Station
  history : Recent Frame limit := {}

namespace Tracer

variable {limit : Option Nat}

def machine (t : Tracer limit) : Machine := t.station.machine

def look (t : Tracer limit) (radius : Int) : Tracer limit :=
  let reads := t.machine.tape.readings (Tape.windowAddresses t.machine.head radius)
  { t with station := t.station.after t.machine reads }

def capture (t : Tracer limit) (radius : Int) (live : Bool) : Tracer limit :=
  let kept := { t.look radius with history := t.history.push (t.machine.frame radius) }
  if live then kept.look radius else kept

def atMachine (limit : Option Nat) (m : Machine) (seen : List Observation) (radius : Int)
    (live : Bool) : Tracer limit :=
  let silent : Station := { machine := m, attached := true, log := { recordsReads := false } }
  let begun : Tracer limit := { station := silent.after m seen }
  if live then begun.look radius else begun

def step (t : Tracer limit) (c : Configuration) : Tracer limit :=
  { t with station := (t.station.perform c .step).1 }

@[simp] theorem capture_machine (t : Tracer limit) (radius : Int) (live : Bool) :
    (t.capture radius live).machine = t.machine := by
  cases live <;> rfl

theorem step_active (t : Tracer limit) (c : Configuration) (active : t.machine.isActive = true) :
    t.step c = { t with station := t.station.after (t.machine.next c) (t.machine.seen c) } := by
  have begun : t.station.machine.status ≠ none := by
    intro idle
    simp [machine, Machine.isActive, idle] at active
  simp [step, machine, Station.perform, Machine.perform, begun]

def advance (t : Tracer limit) (c : Configuration) (radius : Int) (live : Bool) (bound : Nat) : Tracer limit :=
  if _ready : t.machine.isActive = true ∧ t.machine.steps < bound then
    advance ((t.capture radius live).step c) c radius live bound
  else t.capture radius live
termination_by bound - t.machine.steps
decreasing_by
  have same := capture_machine t radius live
  have stepped : ((t.capture radius live).step c).machine = t.machine.next c := by
    rw [step_active _ c (same ▸ _ready.1), same]
    rfl
  have counted := Machine.next_steps c t.machine _ready.1
  rw [stepped, counted]
  omega

end Tracer

namespace Definition

def assemble (d : Definition) (permissive : Bool) : Except RunFault (Machine × List Observation) := do
  let m ← d.create permissive
  match d.memory with
  | none => return (m, [])
  | some word =>
      let symbols := word.map Symbol.char
      let (after, started) := m.start d.configuration symbols
      lifted started
      return (after, m.tape.clear.loadings 0 symbols)

def assembleStarted (d : Definition) (permissive : Bool) : Except RunFault (Machine × List Observation) := do
  let (m, seen) ← d.assemble permissive
  if m.status = none then
    let (m, started) := m.start d.configuration []
    lifted started
    return (m, seen)
  else return (m, seen)

def trace (d : Definition) (plan : TracePlan) : Except TraceFault Trace := do
  let (m, seen) ← (d.assembleStarted plan.permissive).mapError .run
  let (limit, bound, radius) ← plan.numbers
  let traced := (Tracer.atMachine limit m seen radius plan.live).advance d.configuration radius plan.live bound
  return { machine := traced.machine, radius, history := traced.history.items, log := traced.station.log }

end Definition

end TapeMachine
