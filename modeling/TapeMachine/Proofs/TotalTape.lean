import Mathlib.Logic.Function.Iterate
import TapeMachine.Machine.Bench

set_option autoImplicit false

namespace TapeMachine

structure TotalMachine where
  state : Nat
  head : Int
  status : Status
  tape : Int → Symbol

namespace TotalMachine

def inscribed (blank : Symbol) (word : List Symbol) (address : Int) : Symbol :=
  if 0 ≤ address then (word[address.toNat]?).getD blank else blank

def initial (state : Nat) (blank : Symbol) (word : List Symbol) : TotalMachine :=
  ⟨state, 0, .active, inscribed blank word⟩

def firstReading (symbol : Symbol) : List Transition → Option Transition
  | [] => none
  | t :: ts => if symbol ∈ t.inputs then some t else firstReading symbol ts

def entered (s : State) : Status :=
  match s.acceptance with
  | .accept => .accepted
  | .reject => .rejected
  | .none => .active

def stuck (permissive : Bool) (r : TotalMachine) : TotalMachine :=
  if permissive then r else { r with status := .rejected }

/-- Only the first transition that reads the symbol counts, even if its target is no state. -/
def step (c : Configuration) (permissive : Bool) (r : TotalMachine) : TotalMachine :=
  match r.status with
  | .accepted => r
  | .rejected => r
  | .active =>
      match (c.find? r.state).bind fun s => firstReading (r.tape r.head) s.transitions with
      | none => r.stuck permissive
      | some t =>
          match c.find? t.target with
          | none => r.stuck permissive
          | some target =>
              { state := target.id
                head := r.head + t.action.offset
                status := entered target
                tape := fun address => if address = r.head then t.output else r.tape address }

theorem first_reading_next (s : State) (symbol : Symbol) : firstReading symbol s.transitions = s.next? symbol := by
  obtain ⟨id, acceptance, transitions⟩ := s
  simp only [State.next?]
  induction transitions with
  | nil => rfl
  | cons t ts ih =>
      by_cases hit : symbol ∈ t.inputs
      · simp [firstReading, hit, Transition.reads]
      · simp [firstReading, hit, Transition.reads, ih]

theorem entered_verdict (s : State) : Machine.verdict s = entered s := by
  obtain ⟨id, acceptance, transitions⟩ := s
  cases acceptance <;> rfl

end TotalMachine

namespace Tape

theorem read_load (t : Tape) (start query : Int) (word : List Symbol) :
    (t.load start word).read query =
      if start ≤ query then (word[(query - start).toNat]?).getD (t.read query) else t.read query := by
  induction word generalizing t start with
  | nil => simp [load]
  | cons symbol rest ih =>
      rw [load, ih, read_write]
      by_cases here : query = start
      · subst here
        have after : ¬ query + 1 ≤ query := by omega
        simp [after]
      · by_cases below : query < start
        · have before : ¬ start + 1 ≤ query := by omega
          have outside : ¬ start ≤ query := by omega
          simp only [if_neg before, if_neg outside, if_neg here]
        · have after : start + 1 ≤ query := by omega
          have inside : start ≤ query := by omega
          have index : (query - start).toNat = (query - (start + 1)).toNat + 1 := by omega
          simp only [if_pos after, if_pos inside, if_neg here, index, List.getElem?_cons_succ]

theorem read_load_clear (t : Tape) (word : List Symbol) (address : Int) :
    (t.clear.load 0 word).read address = TotalMachine.inscribed t.blank word address := by
  rw [read_load, read_clear, TotalMachine.inscribed, Int.sub_zero]

end Tape

namespace Machine

def stepped (c : Configuration) (m : Machine) : Machine := (m.perform c .step).machine

/-- What a machine that has been started looks like on a total tape. -/
def shown (m : Machine) : Option TotalMachine := m.status.map fun status => ⟨m.state.id, m.head, status, m.tape.read⟩

theorem stepped_next (c : Configuration) (m : Machine) : m.stepped c = m.next c := by
  by_cases idle : m.status = none
  · have inactive : m.isActive = false := by simp [isActive, idle]
    rw [next_of_not_active c m inactive]
    simp [stepped, perform, idle]
  · simp [stepped, perform, idle]

theorem enabled_first (c : Configuration) (m : Machine) :
    m.enabled? c = ((c.find? m.state.id).bind fun s =>
      TotalMachine.firstReading (m.tape.read m.head) s.transitions).bind fun t =>
        (c.find? t.target).map fun s => (t, s) := by
  cases current : c.find? m.state.id with
  | none => simp [enabled?, current]
  | some s =>
      rw [Option.bind_some, TotalMachine.first_reading_next]
      cases found : s.next? (m.tape.read m.head) with
      | none => simp [enabled?, current, found]
      | some t => cases target : c.find? t.target <;> simp [enabled?, current, found, target]

theorem shown_stepped (c : Configuration) (m : Machine) :
    (m.stepped c).shown = m.shown.map (TotalMachine.step c m.permissive) := by
  rw [stepped_next]
  obtain ⟨tape, permissive, state, head, status, steps⟩ := m
  cases status with
  | none => simp [next, isActive, shown]
  | some status =>
      cases status with
      | accepted => simp [next, isActive, shown, TotalMachine.step]
      | rejected => simp [next, isActive, shown, TotalMachine.step]
      | active =>
          have enabled := enabled_first c ⟨tape, permissive, state, head, some .active, steps⟩
          simp only [shown, next, isActive, enabled, Option.map_some, TotalMachine.step, decide_true, if_true]
          cases chosen : (c.find? state.id).bind fun s => TotalMachine.firstReading (tape.read head) s.transitions with
          | none => cases permissive <;> simp [TotalMachine.stuck]
          | some t =>
              cases target : c.find? t.target with
              | none => cases permissive <;> simp [target, TotalMachine.stuck]
              | some s =>
                  have written : (tape.write head t.output).read = fun address =>
                      if address = head then t.output else tape.read address :=
                    funext fun address => Tape.read_write tape head address t.output
                  simp [target, TotalMachine.entered_verdict, written]

@[simp] theorem stepped_permissive (c : Configuration) (m : Machine) : (m.stepped c).permissive = m.permissive := by
  rw [stepped_next, next_permissive]

theorem shown_iterate (c : Configuration) (m : Machine) (r : TotalMachine) (n : Nat) (before : m.shown = some r) :
    ((stepped c)^[n] m).shown = some ((TotalMachine.step c m.permissive)^[n] r) := by
  induction n generalizing m r with
  | zero => exact before
  | succ n ih =>
      have after : (m.stepped c).shown = some (TotalMachine.step c m.permissive r) := by
        rw [shown_stepped, before, Option.map_some]
      rw [Function.iterate_succ_apply, Function.iterate_succ_apply, ih (m.stepped c) _ after, stepped_permissive]

theorem started (c : Configuration) (m : Machine) (word : List Symbol) (s : State) (begins : c.startState = .ok s) :
    m.perform c (.start word) =
      { machine := { m with
          tape := m.tape.clear.load 0 word
          state := s
          head := 0
          status := some .active
          steps := 0 }
        seen := m.tape.clear.loadings 0 word } := by
  simp [perform, start, reset, begins]

theorem step_answers (c : Configuration) (m : Machine) (r : TotalMachine) (active : m.shown = some r) :
    (m.perform c .step).reply = .ok .done := by
  have begun : m.status ≠ none := by
    intro idle
    simp [shown, idle] at active
  simp [perform, begun]

/-- On the sparse tape every run is the run of the machine of the textbook, whatever was done with
the machine before. -/
theorem run_refines_total_machine (c : Configuration) (m : Machine) (word : List Symbol) (s : State)
    (begins : c.startState = .ok s) :
    (m.perform c (.start word)).reply = .ok .done ∧
      ∀ n, (((stepped c)^[n] (m.perform c (.start word)).machine).perform c .step).reply = .ok .done ∧
        ((stepped c)^[n] (m.perform c (.start word)).machine).shown =
          some ((TotalMachine.step c m.permissive)^[n] (TotalMachine.initial s.id m.tape.blank word)) := by
  have ready : (m.perform c (.start word)).machine.shown = some (TotalMachine.initial s.id m.tape.blank word) := by
    rw [started c m word s begins]
    simp only [shown, Option.map_some, TotalMachine.initial, Option.some.injEq, TotalMachine.mk.injEq, true_and]
    exact funext fun address => Tape.read_load_clear m.tape word address
  have policy : (m.perform c (.start word)).machine.permissive = m.permissive := by rw [started c m word s begins]
  refine ⟨by rw [started c m word s begins], ?_⟩
  intro n
  have reached := shown_iterate c _ _ n ready
  rw [policy] at reached
  exact ⟨step_answers c _ _ reached, reached⟩

theorem stuck_run_refines_total_machine :
    let origin : State := { id := 0, transitions := [⟨1, .left, .text "_", [.text "1"]⟩] }
    let beside : State :=
      { id := 1, transitions := [⟨9, .stay, .text "1", [.text "_"]⟩, ⟨0, .right, .text "1", [.text "_"]⟩] }
    let c : Configuration := { states := [origin, beside] }
    let m : Machine := {
      tape := (Tape.mk (.text "_") ∅).load (-1) [.text "1", .text "1", .text "_", .text "1"]
      permissive := false
      state := beside
      head := 7
      status := some .accepted
      steps := 12 }
    let word : List Symbol := [.text "1", .text "_", .text "1"]
    c.startState = .ok origin ∧
      (m.perform c (.start word)).reply = .ok .done ∧
      ((stepped c)^[2] (m.perform c (.start word)).machine).shown =
        some ((TotalMachine.step c false)^[2] (TotalMachine.initial 0 (.text "_") word)) ∧
      ((stepped c)^[2] (m.perform c (.start word)).machine).shown.map
        (fun r => (r.state, r.head, r.status, [-1, 0, 2].map r.tape)) =
        some (1, -1, .rejected, [.text "_", .text "_", .text "1"]) := by
  intro origin beside c m word
  have begins : c.startState = .ok origin := rfl
  have refined := run_refines_total_machine c m word origin begins
  have second := (refined.2 2).2
  refine ⟨begins, refined.1, second, ?_⟩
  rw [second]
  rfl

end Machine

end TapeMachine
