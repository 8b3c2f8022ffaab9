import TapeMachine.Proofs.EventLogs
import TapeMachine.Proofs.Policies
import TapeMachine.Trace

set_option autoImplicit false

namespace TapeMachine

namespace Recent

variable {α : Type} {limit : Option Nat}

theorem last_push (r : Recent α limit) (xs : List α) (a : α) (holds : r.items = last limit xs) :
    (r.push a).items = last limit (xs ++ [a]) := by
  have counted : r.count = (last limit xs).length := by rw [← holds, items_length]
  rw [items_push, holds, counted]
  cases limit with
  | none => simp [last]
  | some n =>
      by_cases room : xs.length < n
      · have all : xs.length - n = 0 := by omega
        have none_dropped : xs.length + 1 - n = 0 := by omega
        simp only [last, List.length_append, List.length_singleton, all, none_dropped,
          List.drop_zero, Option.some.injEq,
          if_neg (Nat.ne_of_gt room)]
      · have full : n = xs.length - (xs.length - n) := by omega
        have within : xs.length - n ≤ xs.length := Nat.sub_le _ _
        have next : xs.length + 1 - n = xs.length - n + 1 := by omega
        simp only [last, List.length_drop, List.length_append, List.length_singleton, ← full, if_true]
        rw [next, ← List.drop_drop, List.drop_append_of_le_length within, List.drop_one]

theorem push_all (xs : List α) : (xs.foldl push ({} : Recent α limit)).items = last limit xs := by
  induction xs using List.reverseRecOn with
  | nil => cases limit <;> simp [items, last]
  | append_singleton xs a ih =>
      rw [List.foldl_append, List.foldl_cons, List.foldl_nil]
      exact last_push _ xs a ih

end Recent

namespace Machine

variable (c : Configuration)

theorem steps_le_run (bound : Nat) (m : Machine) : m.steps ≤ (m.run c bound).steps := by
  induction bound generalizing m with
  | zero => exact Nat.le_refl m.steps
  | succ bound ih =>
      rw [run]
      split
      · rename_i active
        have counted := next_steps c m active
        have later := ih (m.next c)
        omega
      · exact Nat.le_refl m.steps

/-- How many steps a run takes. -/
def taken (bound : Nat) (m : Machine) : Nat := (m.run c bound).steps - m.steps

def passed (bound : Nat) (m : Machine) : List Machine := (List.range (m.taken c bound)).map fun i => (next c)^[i] m

theorem taken_idle (bound : Nat) (m : Machine) (idle : m.isActive = false) : m.taken c bound = 0 := by
  rw [taken, run_of_not_active c bound m idle, Nat.sub_self]

theorem taken_active (bound : Nat) (m : Machine) (active : m.isActive = true) :
    m.taken c (bound + 1) = (m.next c).taken c bound + 1 := by
  have counted := next_steps c m active
  have later := steps_le_run c bound (m.next c)
  rw [taken, taken, run, if_pos active]
  omega

theorem passed_idle (bound : Nat) (m : Machine) (idle : m.isActive = false) : m.passed c bound = [] := by
  rw [passed, taken_idle c bound m idle, List.range_zero, List.map_nil]

theorem passed_active (bound : Nat) (m : Machine) (active : m.isActive = true) :
    m.passed c (bound + 1) = m :: (m.next c).passed c bound := by
  rw [passed, taken_active c bound m active, List.range_succ_eq_map, List.map_cons, List.map_map]
  rfl

@[simp] theorem passed_zero (m : Machine) : m.passed c 0 = [] := by
  rw [passed, taken, run, Nat.sub_self, List.range_zero, List.map_nil]

theorem run_taken (bound : Nat) (m : Machine) : m.run c bound = (next c)^[m.taken c bound] m := by
  induction bound generalizing m with
  | zero => rw [taken, run, Nat.sub_self, Function.iterate_zero_apply]
  | succ bound ih =>
      by_cases active : m.isActive = true
      · rw [taken_active c bound m active, Function.iterate_succ_apply, ← ih, run, if_pos active]
      · have idle : m.isActive = false := by simpa using active
        rw [taken_idle c _ m idle, run_of_not_active c _ m idle, Function.iterate_zero_apply]

theorem passed_ended (bound : Nat) (m : Machine) :
    m.passed c bound ++ [m.run c bound] = (List.range (m.taken c bound + 1)).map fun i => (next c)^[i] m := by
  rw [List.range_succ, List.map_append, List.map_singleton, ← run_taken c bound m, passed]

theorem passed_are_active (bound : Nat) (m : Machine) : ∀ r ∈ m.passed c bound, r.isActive = true := by
  induction bound generalizing m with
  | zero => simp
  | succ bound ih =>
      by_cases active : m.isActive = true
      · rw [passed_active c bound m active]
        exact List.forall_mem_cons.mpr ⟨active, ih (m.next c)⟩
      · simp [passed_idle c _ m (by simpa using active)]

theorem run_seen_passed (bound : Nat) (m : Machine) (after : List Observation) :
    m.runSeen c bound after = ((m.passed c bound).flatMap (seen c)).reverse ++ after := by
  induction bound generalizing m after with
  | zero => simp [runSeen]
  | succ bound ih =>
      by_cases active : m.isActive = true
      · rw [runSeen, if_pos active, ih, passed_active c bound m active, List.flatMap_cons,
          List.reverse_append, List.append_assoc]
      · rw [runSeen, if_neg active, passed_idle c _ m (by simpa using active)]
        rfl

theorem run_performed (given : Json) (bound : Nat) (m : Machine) (bounded : Quantity.stepBound given = .ok bound) :
    m.perform c (.run given) = {
      machine := m.run c bound
      seen := (m.passed c bound).flatMap (seen c)
      reply := .ok (.taken (m.taken c bound)) } := by
  simp only [perform, bounded, run_seen_passed, List.append_nil, List.reverse_reverse, taken]

theorem seen_transitions (m : Machine) (active : m.isActive = true) :
    (m.seen c).filter
    (fun o => o.kind = .transition) = ((m.enabled? c).map fun pair => .moved m.state.id pair.1).toList := by
  rw [seen, if_pos active]
  cases m.enabled? c with
  | none => rcases (m.next c).status with _ | _ | _ | _ <;> rfl
  | some pair => rcases (m.next c).status with _ | _ | _ | _ <;> rfl

theorem transitions_seen (ms : List Machine) (active : ∀ m ∈ ms, m.isActive = true) :
    (ms.flatMap (seen c)).filter (fun o => o.kind = .transition) =
      ms.filterMap fun m => (m.enabled? c).map fun pair => .moved m.state.id pair.1 := by
  induction ms with
  | nil => rfl
  | cons m ms ih =>
      obtain ⟨first, others⟩ := List.forall_mem_cons.mp active
      rw [List.flatMap_cons, List.filter_append, seen_transitions c m first, ih others, List.filterMap_cons]
      cases m.enabled? c <;> rfl

end Machine

namespace EventLog

@[simp] theorem numbered_contents (latest : Nat) (os : List Observation) :
    (numbered latest os).map Event.content = os.map .seen := by
  apply List.ext_getElem
  · simp [numbered]
  · simp [numbered]

@[simp] theorem receive_all_keeps (log : EventLog) (os : List Observation) :
    (log.receiveAll os).recordsReads = log.recordsReads := by
  induction os generalizing log with
  | nil => rfl
  | cons o os ih =>
      rw [receiveAll, List.foldl_cons, ← receiveAll, ih, receive]
      split <;> rfl

theorem receive_all_reads (log : EventLog) (os : List Observation) (silent : log.recordsReads = false)
    (reads : ∀ o ∈ os, o.kind = .read) : log.receiveAll os = log := by
  induction os with
  | nil => rfl
  | cons o os ih =>
      obtain ⟨first, others⟩ := List.forall_mem_cons.mp reads
      rw [receiveAll, List.foldl_cons, receive, if_pos ⟨first, silent⟩]
      exact ih others

theorem receive_all_silent (log : EventLog) (os : List Observation) (silent : log.recordsReads = false) :
    (log.receiveAll os).events = log.events ++ numbered log.latest (os.filter fun o => o.kind ≠ .read) := by
  induction os generalizing log with
  | nil => simp [receiveAll, numbered]
  | cons o os ih =>
      rw [receiveAll, List.foldl_cons, ← receiveAll]
      by_cases reads : o.kind = .read
      · have dropped : log.receive o = log := by rw [receive, if_pos ⟨reads, silent⟩]
        rw [dropped, ih log silent, List.filter_cons_of_neg (by simp [reads])]
      · have kept : log.receive o = log.emit (.seen o) := by rw [receive, if_neg fun both => reads both.1]
        rw [kept, ih (log.emit (.seen o)) silent, List.filter_cons_of_pos (by simp [reads])]
        simp [emit, events, numbered, List.mapIdx_cons, Nat.add_assoc, Nat.add_comm 1]

end EventLog

namespace Tracer

variable {limit : Option Nat} (c : Configuration) (radius : Int) (live : Bool) (t : Tracer limit)

theorem look_silent (silent : t.station.log.recordsReads = false) : t.look radius = t := by
  have unheard (addresses : List Int) : t.station.log.receiveAll
    (t.station.machine.tape.readings addresses) = t.station.log := by
    apply EventLog.receive_all_reads _ _ silent
    intro o mem
    obtain ⟨address, _, rfl⟩ := List.mem_map.mp mem
    rfl
  simp only [look, Station.after, machine, unheard, ite_self]

theorem capture_silent (silent : t.station.log.recordsReads = false) :
    t.capture radius live = { t with history := t.history.push (t.machine.frame radius) } := by
  rw [capture, look_silent radius t silent]
  cases live with
  | false => rfl
  | true => exact look_silent radius { t with history := t.history.push (t.machine.frame radius) } silent

theorem step_told (attached : t.station.attached = true) (active : t.machine.isActive = true) :
    t.step c = { t with station := {
      machine := t.machine.next c, attached := true, log := t.station.log.receiveAll (t.machine.seen c) } } := by
  rw [step_active t c active, Station.after, attached, if_pos rfl]

theorem advance_runs (bound left : Nat) (silent : t.station.log.recordsReads = false)
    (attached : t.station.attached = true)
    (room : bound - t.machine.steps = left) :
    t.advance c radius live bound = {
      station := {
        machine := t.machine.run c left
        attached := true
        log := t.station.log.receiveAll ((t.machine.passed c left).flatMap (Machine.seen c)) }
      history :=
        ((t.machine.passed c left ++ [t.machine.run c left]).map fun m => m.frame radius).foldl
          Recent.push t.history } := by
  -- On the steps that are left, for every tracer: a step changes its machine, its log and its history.
  induction left generalizing t with
  | zero =>
      have spent : ¬ (t.machine.isActive = true ∧ t.machine.steps < bound) := by omega
      rw [advance, dif_neg spent, capture_silent radius live t silent, Machine.passed_zero, Machine.run, ← attached]
      rfl
  | succ left ih =>
      have begun : t.machine.steps < bound := by omega
      by_cases active : t.machine.isActive = true
      · let kept : Tracer limit := { t with history := t.history.push (t.machine.frame radius) }
        have captured : t.capture radius live = kept := capture_silent radius live t silent
        have told := step_told c kept attached active
        have still : (kept.step c).station.log.recordsReads = false := by
          rw [told]
          exact (EventLog.receive_all_keeps _ _).trans silent
        have counted : bound - (kept.step c).machine.steps = left := by
          have next : (kept.step c).machine.steps = t.machine.steps + 1 := by
            rw [told]
            exact Machine.next_steps c t.machine active
          omega
        rw [advance, dif_pos ⟨active, begun⟩, captured, ih _ still (by rw [told]) counted, told,
          Machine.passed_active c left _ active,
          Machine.run, if_pos active, List.flatMap_cons, EventLog.receive_all_append]
        rfl
      · have idle : t.machine.isActive = false := by simpa using active
        rw [advance, dif_neg (fun both => active both.1), capture_silent radius live t silent,
          Machine.passed_idle c _ _ idle,
          Machine.run_of_not_active c _ _ idle, ← attached]
        rfl

theorem at_machine_runs (m : Machine) (seen : List Observation) (bound : Nat) (fresh : m.steps = 0) :
    (atMachine limit m seen radius live).advance c radius live bound = {
      station := {
        machine := m.run c bound
        attached := true
        log := ({ recordsReads := false } : EventLog).receiveAll (seen ++ (m.passed c bound).flatMap (Machine.seen c)) }
      history := ((m.passed c bound ++ [m.run c bound]).map fun m => m.frame radius).foldl Recent.push {} } := by
  let heard : EventLog := ({ recordsReads := false } : EventLog).receiveAll seen
  have silent : heard.recordsReads = false := EventLog.receive_all_keeps _ seen
  let before : Tracer limit := { station := { machine := m, attached := true, log := heard } }
  have stands : atMachine limit m seen radius live = before := by
    rw [atMachine]
    split
    · exact look_silent radius before silent
    · rfl
  have room : bound - before.machine.steps = bound := by
    show bound - m.steps = bound
    rw [fresh, Nat.sub_zero]
  rw [stands, advance_runs c radius live before bound bound silent rfl room, EventLog.receive_all_append]
  rfl

end Tracer

def Trace.ofRun (c : Configuration) (m : Machine) (seen : List Observation) (limit : Option Nat)
    (bound : Nat) (radius : Int) :
    Trace where
  machine := m.run c bound
  radius := radius
  history := Recent.last limit ((m.passed c bound ++ [m.run c bound]).map fun r => r.frame radius)
  log := ({ recordsReads := false } : EventLog).receiveAll (seen ++ (m.passed c bound).flatMap (Machine.seen c))

namespace Trace

variable (c : Configuration) (m : Machine) (seen : List Observation) (limit : Option Nat) (bound : Nat) (radius : Int)

theorem of_run_events : (ofRun c m seen limit bound radius).log.events =
    EventLog.numbered 0 ((seen ++ (m.passed c bound).flatMap (Machine.seen c)).filter fun o => o.kind ≠ .read) := by
  rw [ofRun, EventLog.receive_all_silent _ _ rfl]
  rfl

variable (fresh : m.steps = 0)

include fresh

theorem of_run_steps : (ofRun c m seen limit bound radius).machine.steps = m.taken c bound := by
  rw [ofRun, Machine.taken, fresh, Nat.sub_zero]

theorem of_run_history : (ofRun c m seen limit bound radius).history =
    Recent.last limit ((List.range ((ofRun c m seen limit bound radius).machine.steps + 1)).map fun i =>
      ((Machine.next c)^[i] m).frame radius) := by
  rw [of_run_steps c m seen limit bound radius fresh, ofRun, Machine.passed_ended, List.map_map]
  rfl

theorem of_run_transitions (writes : ∀ o ∈ seen, o.kind = .write) :
    ((ofRun c m seen limit bound radius).log.events.map Event.content).filter
    (fun content => content.kind = .transition) =
      (List.range (ofRun c m seen limit bound radius).machine.steps).filterMap fun i =>
        (((Machine.next c)^[i] m).enabled? c).map fun (chosen, _) => .seen
        (.moved ((Machine.next c)^[i] m).state.id chosen) := by
  have unread (o : Observation) : (decide (o.kind = .transition) && decide (o.kind ≠ .read)) = decide
    (o.kind = .transition) := by
    cases o <;> rfl
  have none_before : seen.filter (fun o => o.kind = .transition) = [] := by
    rw [List.filter_eq_nil_iff]
    intro o mem
    simp [writes o mem]
  have told := Machine.transitions_seen c (m.passed c bound) (Machine.passed_are_active c bound m)
  have steps := of_run_steps c m seen limit bound radius fresh
  rw [of_run_events, EventLog.numbered_contents, List.filter_map, steps]
  have kinds : ((fun content : EventContent => decide (content.kind = .transition)) ∘ EventContent.seen) =
      fun o => decide (o.kind = .transition) := rfl
  rw [kinds, List.filter_filter]
  simp only [unread]
  rw [List.filter_append, none_before, List.nil_append, told, Machine.passed, List.filterMap_map, List.map_filterMap]
  apply List.filterMap_congr
  intro i _
  simp only [Function.comp_apply, Option.map_map]
  rfl

end Trace

namespace TracePlan

variable (plan : TracePlan)

structure Feasible : Prop where
  history : ∃ limit, Quantity.count? plan.historyLimit = .ok limit
  picture : plan.live = true → ∃ size, PictureSize.ofGiven plan.radius plan.shown = .ok size
  bound : ∃ bound, Quantity.stepBound plan.maxSteps = .ok bound ∧ (0 < bound → Delay.check plan.delay = .ok ())
  radius : ∃ radius, Quantity.radius plan.radius = .ok radius

theorem drawable_ok :
    plan.drawable = .ok () ↔ (plan.live = true → ∃ size, PictureSize.ofGiven plan.radius plan.shown = .ok size) := by
  rw [drawable]
  cases plan.live with
  | false => exact iff_of_true rfl nofun
  | true =>
      cases PictureSize.ofGiven plan.radius plan.shown with
      | error fault => simp
      | ok size => exact iff_of_true rfl fun _ => ⟨size, rfl⟩

theorem patient_ok (bound : Nat) : plan.patient bound = .ok () ↔ (0 < bound → Delay.check plan.delay = .ok ()) := by
  rw [patient]
  by_cases waits : 0 < bound
  · simp only [waits, if_true, map_error_ok, true_imp_iff]
  · simp only [waits, if_false, false_imp_iff]

theorem numbers_ok (limit : Option Nat) (bound : Nat) (radius : Int) :
    plan.numbers = .ok (limit, bound, radius) ↔
      Quantity.count? plan.historyLimit = .ok limit ∧
      (plan.live = true → ∃ size, PictureSize.ofGiven plan.radius plan.shown = .ok size) ∧
      Quantity.stepBound plan.maxSteps = .ok bound ∧ Quantity.radius plan.radius = .ok radius ∧
      (0 < bound → Delay.check plan.delay = .ok ()) := by
  rw [← drawable_ok, ← patient_ok, numbers]
  simp only [bind_ok, map_error_ok]
  constructor
  · rintro ⟨_, limited, ⟨⟩, drawn, _, bounded, _, spread, ⟨⟩, waited, same⟩
    cases same
    exact ⟨limited, drawn, bounded, spread, waited⟩
  · rintro ⟨limited, drawn, bounded, spread, waited⟩
    exact ⟨limit, limited, (), drawn, bound, bounded, radius, spread, (), waited, rfl⟩

theorem feasible_iff : plan.Feasible ↔ ∃ numbers, plan.numbers = .ok numbers := by
  constructor
  · rintro ⟨⟨limit, limited⟩, drawn, ⟨bound, bounded, waited⟩, radius, spread⟩
    exact ⟨_, (plan.numbers_ok limit bound radius).mpr ⟨limited, drawn, bounded, spread, waited⟩⟩
  · rintro ⟨⟨limit, bound, radius⟩, given⟩
    obtain ⟨limited, drawn, bounded, spread, waited⟩ := (plan.numbers_ok limit bound radius).mp given
    exact ⟨⟨limit, limited⟩, drawn, ⟨bound, bounded, waited⟩, radius, spread⟩

end TracePlan

namespace Definition

variable (d : Definition) (permissive : Bool) (blank : Text) (s : State)

def made : Machine := { tape := ⟨.text blank, ∅⟩, permissive, state := s }

variable (declared : d.blank = some blank) (begins : d.configuration.startState = .ok s)

include declared begins

theorem create_made : d.create permissive = .ok (made permissive blank s) := by
  simp [create, declared, Machine.create, begins, made]

theorem assemble_started :
    let begun := (made permissive blank s).perform d.configuration (.start ((d.memory.getD []).map Symbol.char))
    d.assembleStarted permissive = .ok (begun.machine, begun.seen) := by
  intro begun
  have created := create_made d permissive blank s declared begins
  cases held : d.memory with
  | none =>
      simp [begun, assembleStarted, assemble, created, held, made, Machine.perform, Machine.start,
        Machine.reset, begins, lifted, Tape.loadings]
  | some word =>
      simp [begun, assembleStarted, assemble, created, held, made, Machine.perform, Machine.start,
        Machine.reset, begins, lifted]

theorem traced_ok (plan : TracePlan) (limit : Option Nat) (bound : Nat) (radius : Int)
    (given : plan.numbers = .ok (limit, bound, radius)) :
    let begun := (made plan.permissive blank s).perform d.configuration (.start ((d.memory.getD []).map Symbol.char))
    d.trace plan = .ok (.ofRun d.configuration begun.machine begun.seen limit bound radius) := by
  intro begun
  have fresh : begun.machine.steps = 0 := by simp only [begun, Machine.started d.configuration _ _ s begins]
  have run := @Tracer.at_machine_runs limit d.configuration radius plan.live begun.machine begun.seen bound fresh
  rw [trace, assemble_started d plan.permissive blank s declared begins, given]
  simp only [ok_map_error, ok_bind, pure_ok]
  rw [run, Recent.push_all]
  rfl

omit declared begins in
theorem trace_numbers (plan : TracePlan) (t : Trace) (came : d.trace plan = .ok t) :
    ∃ numbers, plan.numbers = .ok numbers := by
  obtain ⟨_, _, came⟩ := (bind_ok _ _ _).mp came
  obtain ⟨numbers, given, _⟩ := (bind_ok _ _ _).mp came
  exact ⟨numbers, given⟩

/-- Tracing is running. A trace comes about exactly where the values of the plan allow it, and then
its machine is the one that a plain run on the word of the definition leaves, its frames are the
last ones of those before every step and after the last one, and its log holds what is seen of the
run but for the reads, with one transition for every defined step. -/
theorem trace_is_run (plan : TracePlan) :
    ∃ m, d.create plan.permissive = .ok m ∧
      let c := d.configuration
      let begun := m.perform c (.start ((d.memory.getD []).map Symbol.char))
      let ran := begun.machine.perform c (.run plan.maxSteps)
      let reached (i : Nat) := (Machine.stepped c)^[i] begun.machine
      ((∃ t, d.trace plan = .ok t) ↔ plan.Feasible) ∧
      ∀ t, d.trace plan = .ok t → ∃ limit radius,
        Quantity.count? plan.historyLimit = .ok limit ∧ Quantity.radius plan.radius = .ok radius ∧
        t.machine = ran.machine ∧ ran.reply = .ok (.taken t.machine.steps) ∧
        t.history = Recent.last limit ((List.range (t.machine.steps + 1)).map fun i => (reached i).frame radius) ∧
        t.log.events = EventLog.numbered 0 ((begun.seen ++ ran.seen).filter fun o => o.kind ≠ .read) ∧
        (t.log.events.map Event.content).filter (fun content => content.kind = .transition) =
          (List.range t.machine.steps).filterMap fun i =>
            ((reached i).enabled? c).map fun (chosen, _) => .seen (.moved (reached i).state.id chosen) := by
  refine ⟨made plan.permissive blank s, create_made d plan.permissive blank s declared begins, ?_⟩
  intro c begun ran reached
  have traced := traced_ok d blank s declared begins plan
  have started := Machine.started c (made plan.permissive blank s) ((d.memory.getD []).map Symbol.char) s begins
  have fresh : begun.machine.steps = 0 := by simp only [begun, started]
  have writes : ∀ o ∈ begun.seen, o.kind = .write := by
    simp only [begun, started]
    exact Tape.loadings_kinds _ 0 _
  have walk : Machine.stepped c = Machine.next c := funext (Machine.stepped_next c)
  refine ⟨⟨?_, ?_⟩, ?_⟩
  · rintro ⟨t, came⟩
    exact plan.feasible_iff.mpr (trace_numbers d plan t came)
  · intro feasible
    obtain ⟨⟨limit, bound, radius⟩, given⟩ := plan.feasible_iff.mp feasible
    exact ⟨_, traced limit bound radius given⟩
  · intro t came
    obtain ⟨⟨limit, bound, radius⟩, given⟩ := trace_numbers d plan t came
    obtain ⟨limited, _, bounded, spread, _⟩ := (plan.numbers_ok limit bound radius).mp given
    have whole : t = .ofRun c begun.machine begun.seen limit bound radius :=
      Except.ok.inj (came.symm.trans (traced limit bound radius given))
    have run : ran = _ := Machine.run_performed c plan.maxSteps bound begun.machine bounded
    simp only [reached, walk]
    rw [whole, run]
    refine ⟨limit, radius, limited, spread, rfl, ?_, ?_, ?_, ?_⟩
    · rw [Trace.of_run_steps c begun.machine begun.seen limit bound radius fresh]
    · exact Trace.of_run_history c begun.machine begun.seen limit bound radius fresh
    · exact Trace.of_run_events c begun.machine begun.seen limit bound radius
    · exact Trace.of_run_transitions c begun.machine begun.seen limit bound radius fresh writes

omit declared begins

theorem unary_trace_is_run :
    let again : Transition := ⟨0, .right, .text "1", [.text "1"]⟩
    let finish : Transition := ⟨1, .stay, .text "1", [.text "_"]⟩
    let origin : State := { id := 0, transitions := [again, finish] }
    let d : Definition := {
      configuration := { states := [origin, { id := 1, acceptance := .accept }] }
      charset := ["1", "_"]
      blank := some "_"
      memory := some "1" }
    let plan : TracePlan := { maxSteps := .int 5, radius := .int 1, historyLimit := .int 2, live := true }
    d.blank = some "_" ∧ d.configuration.startState = .ok origin ∧ plan.Feasible ∧
      ∃ t, d.trace plan = .ok t ∧ t.machine.steps = 2 ∧ t.history = [⟨"1__", 1, 0⟩, ⟨"11_", 1, 1⟩] ∧
        t.log.events = EventLog.numbered 0 [.wrote 0 (.text "_") (.text "1"),
          .wrote 0 (.text "1") (.text "1"), .moved 0 again,
          .wrote 1 (.text "_") (.text "1"), .moved 0 finish, .halted .accepted] := by
  intro again finish origin d plan
  have begins : d.configuration.startState = .ok origin := rfl
  have counts : Quantity.count? plan.historyLimit = .ok (some 2) := by decide +kernel
  have feasible : plan.Feasible :=
    ⟨⟨some 2, counts⟩, fun _ => ⟨⟨1, 15, some 10⟩, by decide +kernel⟩, ⟨5, rfl, fun _ => rfl⟩, ⟨1, rfl⟩⟩
  obtain ⟨m, created, comes, is_run⟩ := trace_is_run d "_" origin rfl begins plan
  obtain ⟨t, traced⟩ := comes.mpr feasible
  obtain ⟨limit, radius, limited, spread, _, counted, history, events, _⟩ := is_run t traced
  cases created
  obtain rfl : some 2 = limit := Except.ok.inj (counts.symm.trans limited)
  obtain rfl : 1 = radius := Except.ok.inj spread
  have two : Except.ok (Reply.taken t.machine.steps) = (.ok (.taken 2) : Except MachineFault Reply) :=
    counted.symm.trans (by decide +kernel)
  have steps : t.machine.steps = 2 := by simpa using two
  rw [steps] at history
  refine ⟨rfl, begins, feasible, t, traced, steps, ?_, ?_⟩
  · rw [history]
    decide +kernel
  · rw [events]
    apply congrArg
    decide +kernel

end Definition

end TapeMachine
