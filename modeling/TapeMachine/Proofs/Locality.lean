import TapeMachine.Proofs.FailedRestarts
import TapeMachine.Proofs.SharedControl
import TapeMachine.Proofs.TapeCells
import TapeMachine.Proofs.Tracing

set_option autoImplicit false

namespace TapeMachine

namespace Tape

theorem used_write (t : Tape) (address : Int) (symbol : Symbol) :
    (t.write address symbol).used ≤ t.used + 1 ∧ t.used ≤ (t.write address symbol).used + 1 := by
  rw [write]
  split
  · have erased := Std.TreeMap.size_erase (t := t.cells) (k := address)
    simp only [used]
    split at erased <;> omega
  · have inserted := Std.TreeMap.size_insert (t := t.cells) (k := address) (v := symbol)
    simp only [used]
    split at inserted <;> omega

theorem kept_write (t : Tape) (address query : Int) (symbol : Symbol) (kept : query ∈ (t.write address symbol).cells) :
    query = address ∨ query ∈ t.cells := by
  by_cases here : query = address
  · exact .inl here
  · rw [Std.TreeMap.mem_iff_isSome_getElem?, cells_write, if_neg here, ← Std.TreeMap.mem_iff_isSome_getElem?] at kept
    exact .inr kept

theorem kept_load (t : Tape) (start query : Int) (word : List Symbol) (kept : query ∈ (t.load start word).cells) :
    query ∈ t.cells ∨ (start ≤ query ∧ query < start + word.length) := by
  induction word generalizing t start with
  | nil => exact .inl kept
  | cons symbol rest ih =>
      rw [List.length_cons]
      rcases ih (t.write start symbol) (start + 1) kept with before | within
      · rcases t.kept_write start query symbol before with rfl | old
        · exact .inr ⟨by omega, by omega⟩
        · exact .inl old
      · exact .inr ⟨by omega, by omega⟩

end Tape

namespace Machine

structure Near (m : Machine) (k : Nat) (m' : Machine) : Prop where
  head : (m'.head - m.head).natAbs ≤ k
  cells : ∀ address : Int, k ≤ (address - m.head).natAbs → m'.tape.cells[address]? = m.tape.cells[address]?
  grown : m'.tape.used ≤ m.tape.used + k
  shrunk : m.tape.used ≤ m'.tape.used + k
  blank : m'.tape.blank = m.tape.blank
  policy : m'.permissive = m.permissive

variable (c : Configuration) (m m' m'' : Machine)

theorem near_self (k : Nat) : m.Near k m where
  head := by simp
  cells := fun _ _ => rfl
  grown := Nat.le_add_right _ k
  shrunk := Nat.le_add_right _ k
  blank := rfl
  policy := rfl

theorem near_trans (j k : Nat) (first : m.Near j m') (second : m'.Near k m'') : m.Near (j + k) m'' where
  head := by
    have start := first.head
    have later := second.head
    omega
  cells := by
    intro address far
    have moved := first.head
    rw [second.cells address (by omega), first.cells address (by omega)]
  grown := by
    have start := first.grown
    have later := second.grown
    omega
  shrunk := by
    have start := first.shrunk
    have later := second.shrunk
    omega
  blank := second.blank.trans first.blank
  policy := second.policy.trans first.policy

theorem next_near : m.Near 1 (m.next c) := by
  rw [next]
  split
  · split
    · rename_i t target enabled
      refine ⟨?_, ?_, (m.tape.used_write m.head t.output).1, (m.tape.used_write m.head t.output).2,
        m.tape.write_blank m.head t.output, rfl⟩
      · have moved : t.action.offset.natAbs ≤ 1 := by cases t.action <;> decide
        dsimp only
        omega
      · intro address far
        have apart : address ≠ m.head := by omega
        exact (m.tape.cells_write m.head address t.output).trans (if_neg apart)
    · obtain ⟨head, cells, grown, shrunk, blank, policy⟩ := m.near_self 1
      exact ⟨head, cells, grown, shrunk, blank, policy⟩
  · exact m.near_self 1

theorem iterate_near (k : Nat) : m.Near k ((next c)^[k] m) := by
  induction k with
  | zero => exact m.near_self 0
  | succ k ih =>
      rw [Function.iterate_succ_apply']
      exact near_trans m _ _ k 1 ih (next_near c _)

end Machine

/-- The steps that a request comes to: a call of a step is one, and a run as many as it took. -/
def Request.strides : Request → Except MachineFault Reply → Nat
  | .step, _ => 1
  | .run _, .ok (.taken steps) => steps
  | _, _ => 0

namespace Machine

variable (c : Configuration) (m : Machine)

theorem perform_near (request : Request) (onward : request.isRestart = false) :
    m.Near (request.strides (m.perform c request).reply) (m.perform c request).machine := by
  cases request with
  | start word => cases onward
  | reset => cases onward
  | step =>
      rw [perform]
      split
      · exact m.near_self 1
      · exact next_near c m
  | run given =>
      cases bounded : Quantity.stepBound given with
      | ok bound =>
          rw [run_performed c given bound m bounded]
          dsimp only
          rw [run_taken]
          exact iterate_near c m (m.taken c bound)
      | error fault =>
          simp only [perform, bounded]
          exact m.near_self _
  | window given =>
      rw [perform]
      split <;> exact m.near_self _

end Machine

namespace Station

/-- The steps that some requests come to together. -/
def strides (c : Configuration) : Station → List Request → Nat
  | _, [] => 0
  | s, request :: rest => request.strides (s.perform c request).2 + strides c (s.perform c request).1 rest

variable (c : Configuration) (s : Station)

theorem strides_steps (k : Nat) : s.strides c (List.replicate k .step) = k := by
  induction k generalizing s with
  | zero => rfl
  | succ k ih =>
      rw [List.replicate_succ, strides, ih, Request.strides]
      omega

theorem strides_run (given : Json) (k : Nat) (took : (s.perform c (.run given)).2 = .ok (.taken k)) :
    s.strides c [.run given] = k := by
  rw [strides, took]
  rfl

theorem perform_all_near (requests : List Request) (onward : ∀ r ∈ requests, r.isRestart = false) :
    s.machine.Near (s.strides c requests) (s.performAll c requests).machine := by
  induction requests generalizing s with
  | nil => exact s.machine.near_self 0
  | cons request rest ih =>
      obtain ⟨here, later⟩ := List.forall_mem_cons.mp onward
      have first := s.machine.perform_near c request here
      exact Machine.near_trans _ _ _ _ _ first (ih (s.perform c request).1 later)

end Station

namespace Bench

variable (b : Bench) (place : Nat) (errands : List Errand)

def ownRequests : List Request := (ownErrands place errands).map Errand.request

theorem perform_all_near (s : Station) (here : b.stations[place]? = some s)
    (onward : ∀ e ∈ ownErrands place errands, e.request.isRestart = false) :
    ∃ s', (b.performAll errands).stations[place]? = some s' ∧
      s.machine.Near (s.strides b.configuration (ownRequests place errands)) s'.machine := by
  refine ⟨s.performAll b.configuration (ownRequests place errands), ?_, ?_⟩
  · rw [perform_all_stations, here]
    rfl
  · apply s.perform_all_near
    rw [ownRequests, List.forall_mem_map]
    exact onward

theorem perform_started (s : Station) (word : List Symbol) (origin : State) (here : b.stations[place]? = some s)
    (begins : b.configuration.startState = .ok origin) :
    ∃ ready, (b.perform place (.start word)).1.stations[place]? = some ready ∧
      ready.machine = { s.machine with
        tape := s.machine.tape.clear.load 0 word, state := origin, head := 0, status := some .active, steps := 0 } := by
  refine ⟨(s.perform b.configuration (.start word)).1, ?_, ?_⟩
  · rw [perform_stations, if_pos rfl, here, Option.map_some]
  · have started := Machine.started b.configuration s.machine word origin begins
    rw [Station.perform, started]
    rfl

/-- Let some errands come to `k` steps of the machine at a place, as `k` calls of a step do or a run
of `k` steps, and not restart it. Whatever they do at other places, its head comes no further than
`k` cells, cells from that distance on are what they were, no more than `k` cells are gained or
lost, and blank, policy and configuration stay. If a word was written on its tape before them, every
cell that is kept lies on the word or less than `k` cells from 0. -/
theorem machines_stay_near (onward : ∀ e ∈ ownErrands place errands, e.request.isRestart = false) :
    (∀ s : Station, (∀ k, s.strides b.configuration (List.replicate k .step) = k) ∧
      ∀ given k, (s.perform b.configuration (.run given)).2 = .ok (.taken k) →
        s.strides b.configuration [.run given] = k) ∧
    (b.performAll errands).configuration = b.configuration ∧
    (∀ s, b.stations[place]? = some s →
      ∃ s', (b.performAll errands).stations[place]? = some s' ∧
        let k := s.strides b.configuration (ownRequests place errands)
        let m := s.machine
        let m' := s'.machine
        (m'.head - m.head).natAbs ≤ k ∧
        (∀ address : Int, k ≤ (address - m.head).natAbs → m'.tape.cells[address]? = m.tape.cells[address]?) ∧
        m'.tape.used ≤ m.tape.used + k ∧ m.tape.used ≤ m'.tape.used + k ∧
        m'.tape.blank = m.tape.blank ∧ m'.permissive = m.permissive) ∧
    ∀ s word origin, b.stations[place]? = some s → b.configuration.startState = .ok origin →
      let started := (b.perform place (.start word)).1
      ∃ ready s', started.stations[place]? = some ready ∧ (started.performAll errands).stations[place]? = some s' ∧
        let k : Int := ready.strides b.configuration (ownRequests place errands)
        ∀ address ∈ s'.machine.tape.cells, min 0 (1 - k) ≤ address ∧ address ≤ max (word.length : Int) k - 1 := by
  refine ⟨fun s => ⟨s.strides_steps b.configuration, s.strides_run b.configuration⟩,
    b.perform_all_configuration errands, ?_, ?_⟩
  · intro s here
    obtain ⟨s', there, head, cells, grown, shrunk, blank, policy⟩ := b.perform_all_near place errands s here onward
    exact ⟨s', there, head, cells, grown, shrunk, blank, policy⟩
  · intro s word origin here begins started
    obtain ⟨ready, begun, machine⟩ := b.perform_started place s word origin here begins
    obtain ⟨s', there, near⟩ := started.perform_all_near place errands ready begun onward
    have same : started.configuration = b.configuration := b.perform_configuration place (.start word)
    rw [same] at near
    refine ⟨ready, s', begun, there, ?_⟩
    intro k address kept
    have origin : ready.machine.head = 0 := by rw [machine]
    have cells := near.cells address
    rw [origin, Int.sub_zero] at cells
    by_cases far : ready.strides b.configuration (ownRequests place errands) ≤ address.natAbs
    · rw [Std.TreeMap.mem_iff_isSome_getElem?, cells far, ← Std.TreeMap.mem_iff_isSome_getElem?, machine] at kept
      have within := (s.machine.tape.clear.kept_load 0 address word kept).resolve_left Std.TreeMap.not_mem_emptyc
      omega
    · omega

theorem leftward_machine_stays_near :
    let walker : State := { id := 0, transitions := [⟨0, .left, .text "1", [.text "_", .text "a", .text "b"]⟩] }
    let s : Station := { machine := {
      tape := (Tape.mk (.text "_") ∅).load 2 [.text "a", .text "b"]
      permissive := true
      state := walker
      head := 5
      status := some .active } }
    let b : Bench := ⟨{ states := [walker] }, [s, s]⟩
    let errands : List Errand := [⟨0, .step⟩, ⟨1, .reset⟩, ⟨0, .window (.int 1)⟩, ⟨0, .run (.int 2)⟩]
    let started := (b.perform 0 (.start [.text "a", .text "b"])).1
    (∀ e ∈ ownErrands 0 errands, e.request.isRestart = false) ∧ b.stations[0]? = some s ∧
      b.configuration.startState = .ok walker ∧
      s.strides b.configuration (ownRequests 0 errands) = 3 ∧
      (∃ s', (b.performAll errands).stations[0]? = some s' ∧ (s'.machine.head - 5).natAbs ≤ 3 ∧
        s'.machine.tape.cells[(2 : Int)]? = some (.text "a") ∧ s'.machine.tape.used ≤ 2 + 3) ∧
      (∃ s', (started.performAll errands).stations[0]? = some s' ∧
        ∀ address ∈ s'.machine.tape.cells, -2 ≤ address ∧ address ≤ 2) ∧
      (((b.performAll errands).stations ++ (started.performAll errands).stations).map fun s =>
        s.machine.tape.cells.toList) =
        [[(2, .text "a"), (3, .text "1"), (4, .text "1"), (5, .text "1")], [],
          [(-2, .text "1"), (-1, .text "1"), (0, .text "1"), (1, .text "b")], []] := by
  intro walker s b errands started
  have onward : ∀ e ∈ ownErrands 0 errands, e.request.isRestart = false := by decide
  have three : s.strides b.configuration (ownRequests 0 errands) = 3 := by decide +kernel
  obtain ⟨_, _, near, within⟩ := b.machines_stay_near 0 errands onward
  obtain ⟨s', there, moved, cells, grown, _⟩ := near s rfl
  obtain ⟨ready, s'', begun, ended, kept⟩ := within s [.text "a", .text "b"] walker rfl rfl
  have again : ready.strides b.configuration (ownRequests 0 errands) = 3 := by
    rw [← Option.some.inj begun]
    decide +kernel
  rw [three] at moved cells grown
  rw [again] at kept
  exact ⟨onward, rfl, rfl, three, ⟨s', there, moved, cells 2 (by decide), grown⟩, ⟨s'', ended, kept⟩, by decide +kernel⟩

end Bench

end TapeMachine
