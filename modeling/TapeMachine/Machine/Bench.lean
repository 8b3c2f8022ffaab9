import TapeMachine.Machine.Basic

set_option autoImplicit false

namespace TapeMachine

/-- What can be asked of a machine; a bound of steps and a radius are values that were given. -/
inductive Request where
  | start (word : List Symbol)
  | step
  | run (bound : Json)
  | reset
  | window (radius : Json)
deriving DecidableEq

inductive Reply where
  | done
  | taken (steps : Nat)
  | symbols (symbols : List Symbol)
deriving DecidableEq

structure Response where
  machine : Machine
  seen : List Observation := []
  reply : Except MachineFault Reply := .ok .done

namespace Machine

def perform (c : Configuration) (m : Machine) : Request → Response
  | .start word =>
      match m.start c word with
      | (after, .ok ()) => { machine := after, seen := m.tape.clear.loadings 0 word }
      | (after, .error fault) => { machine := after, reply := .error (.lookup fault) }
  | .step =>
      if m.status = none then { machine := m, reply := .error .notStarted }
      else { machine := m.next c, seen := m.seen c }
  | .run given =>
      match Quantity.stepBound given with
      | .ok bound =>
          let after := m.run c bound
          { machine := after
            seen := (m.runSeen c bound []).reverse
            reply := .ok (.taken (after.steps - m.steps)) }
      | .error fault => { machine := m, reply := if m.isActive then .error (.quantity fault) else .ok (.taken 0) }
  | .reset =>
      match m.reset c with
      | (after, .ok ()) => { machine := after }
      | (after, .error fault) => { machine := after, reply := .error (.lookup fault) }
  | .window given =>
      match Quantity.radius given with
      | .ok radius =>
          { machine := m
            seen := m.tape.readings (Tape.windowAddresses m.head radius)
            reply := .ok (.symbols (m.window radius)) }
      | .error fault => { machine := m, reply := .error (.quantity fault) }

end Machine

inductive TapeRequest where
  | read (address : Int)
  | write (address : Int) (symbol : Symbol)
  | used
  | bounds
  | dense
  | window (center radius : Int)
  | load (symbols : List Symbol) (start : Int)
  | clear
  | describe
deriving DecidableEq

inductive TapeReply where
  | done
  | symbol (symbol : Symbol)
  | count (n : Nat)
  | bounds (bounds : Option (Int × Int))
  | symbols (symbols : List Symbol)
  | text (text : Text)
deriving DecidableEq

namespace Tape

def perform (t : Tape) : TapeRequest → Tape × List Observation × TapeReply
  | .read address => (t, t.readings [address], .symbol (t.read address))
  | .write address symbol => (t.write address symbol, t.loadings address [symbol], .done)
  | .used => (t, [], .count t.used)
  | .bounds => (t, [], .bounds t.bounds)
  | .dense => (t, t.readings t.denseAddresses, .symbols t.dense)
  | .window center radius => (t, t.readings (windowAddresses center radius), .symbols (t.window center radius))
  | .load symbols start => (t.load start symbols, t.loadings start symbols, .done)
  | .clear => (t.clear, [], .done)
  | .describe => (t, [], .text t.describe)

end Tape

structure Station where
  machine : Machine
  attached : Bool := false
  log : EventLog := {}

namespace Station

def after (s : Station) (m : Machine) (seen : List Observation) : Station :=
  { s with machine := m, log := if s.attached then s.log.receiveAll seen else s.log }

def perform (c : Configuration) (s : Station) (request : Request) : Station × Except MachineFault Reply :=
  let response := s.machine.perform c request
  (s.after response.machine response.seen, response.reply)

def performTape (s : Station) (request : TapeRequest) : Station × TapeReply :=
  let (tape, seen, reply) := s.machine.tape.perform request
  (s.after { s.machine with tape } seen, reply)

end Station

structure Bench where
  configuration : Configuration
  stations : List Station

namespace Bench

def perform (b : Bench) (place : Nat) (request : Request) : Bench × Option (Except MachineFault Reply) :=
  match b.stations[place]? with
  | none => (b, none)
  | some s =>
      let (s, reply) := s.perform b.configuration request
      ({ b with stations := b.stations.set place s }, some reply)

end Bench

end TapeMachine
