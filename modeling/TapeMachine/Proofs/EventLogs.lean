import TapeMachine.Proofs.TapeCells
import TapeMachine.Proofs.WellFormed

set_option autoImplicit false

namespace TapeMachine

namespace TotalMachine

def chosen? (c : Configuration) (r : TotalMachine) : Option (Transition × State) :=
  ((c.find? r.state).bind fun s => firstReading (r.tape r.head) s.transitions).bind fun t =>
    (c.find? t.target).map fun s => (t, s)

def farewell : Status → List Observation
  | .active => []
  | status => [.halted status]

def stuckStatus (permissive : Bool) : Status := if permissive then .active else .rejected

/-- What a step tells: what is read, then what is written and the transition that is taken if there
is one, and last how the machine halted if it did. -/
def told (c : Configuration) (permissive : Bool) (r : TotalMachine) : List Observation :=
  match r.status with
  | .active => .read r.head (r.tape r.head) :: match r.chosen? c with
    | some (t, target) => .wrote r.head (r.tape r.head) t.output :: .moved r.state t :: farewell (entered target)
    | none => farewell (stuckStatus permissive)
  | _ => []

def chronicle (c : Configuration) (permissive : Bool) : Nat → TotalMachine → List Observation
  | 0, _ => []
  | n + 1, r => r.told c permissive ++ chronicle c permissive n (r.step c permissive)

def inscriptions (blank : Symbol) (word : List Symbol) : List Observation :=
  word.mapIdx fun i symbol => .wrote i blank symbol

variable (c : Configuration) (permissive : Bool) (r : TotalMachine)

theorem step_idle (idle : r.status ≠ .active) : r.step c permissive = r := by
  obtain ⟨state, head, status, tape⟩ := r
  cases status with
  | active => exact absurd rfl idle
  | accepted => rfl
  | rejected => rfl

theorem step_stuck (active : r.status = .active) (stuck : r.chosen? c = none) :
    r.step c permissive = { r with status := stuckStatus permissive } := by
  have waits : r.stuck permissive = { r with status := stuckStatus permissive } := by
    cases permissive with
    | false => rfl
    | true => simp only [TotalMachine.stuck, stuckStatus, if_true, ← active]
  rw [step, active, ← waits]
  rw [chosen?] at stuck
  cases reading : (c.find? r.state).bind fun s => firstReading (r.tape r.head) s.transitions with
  | none => rfl
  | some t =>
      rw [reading, Option.bind_some, Option.map_eq_none_iff] at stuck
      simp only [stuck]

theorem step_chosen (active : r.status = .active) (t : Transition) (target : State)
    (chosen : r.chosen? c = some (t, target)) :
    r.step c permissive = {
      state := target.id
      head := r.head + t.action.offset
      status := entered target
      tape := fun address => if address = r.head then t.output else r.tape address } := by
  obtain ⟨u, reading, leads⟩ := Option.bind_eq_some_iff.mp chosen
  obtain ⟨s, found, same⟩ := Option.map_eq_some_iff.mp leads
  cases same
  rw [step, active, reading]
  simp only [found]

theorem chosen_target (t : Transition) (target : State) (chosen : r.chosen? c = some (t, target)) :
    target.id = t.target := by
  obtain ⟨u, _, leads⟩ := Option.bind_eq_some_iff.mp chosen
  obtain ⟨s, found, same⟩ := Option.map_eq_some_iff.mp leads
  cases same
  exact Int.ofNat_inj.mp (c.find_mem t.target target found).2

theorem told_idle (idle : r.status ≠ .active) : r.told c permissive = [] := by
  rw [told]
  split
  · rename_i active
    exact absurd active idle
  · rfl

theorem told_active (active : r.status = .active) :
    r.told c permissive = .read r.head (r.tape r.head) :: match r.chosen? c with
      | some (t, target) => .wrote r.head (r.tape r.head) t.output :: .moved r.state t :: farewell (entered target)
      | none => farewell (stuckStatus permissive) := by
  rw [told, active]

theorem chronicle_idle (n : Nat) (idle : r.status ≠ .active) : chronicle c permissive n r = [] := by
  induction n with
  | zero => rfl
  | succ n ih => rw [chronicle, told_idle c permissive r idle, step_idle c permissive r idle, ih, List.nil_append]

end TotalMachine

namespace Machine

def readied (m : Machine) (s : State) (word : List Symbol) : Machine :=
  { m with tape := m.tape.clear.load 0 word, state := s, head := 0, status := some .active, steps := 0 }

theorem readied_shown (m : Machine) (s : State) (word : List Symbol) :
    (m.readied s word).shown = some (.initial s.id m.tape.blank word) := by
  have inscribed : (m.tape.clear.load 0 word).read = TotalMachine.inscribed m.tape.blank word :=
    funext fun address => Tape.read_load_clear m.tape word address
  rw [shown, readied, Option.map_some, inscribed, TotalMachine.initial]

theorem iterate_shown (c : Configuration) (m : Machine) (s : State) (word : List Symbol) (n : Nat) :
    ((next c)^[n] (m.readied s word)).shown =
    some ((TotalMachine.step c m.permissive)^[n] (.initial s.id m.tape.blank word)) := by
  have walk : stepped c = next c := funext (stepped_next c)
  rw [← walk]
  exact shown_iterate c (m.readied s word) _ n (readied_shown m s word)

theorem shown_active (m : Machine) (r : TotalMachine) (shown : m.shown = some r) :
    m.status = some r.status ∧ m.state.id = r.state ∧ m.head = r.head ∧ m.tape.read = r.tape := by
  obtain ⟨status, begun, same⟩ := Option.map_eq_some_iff.mp shown
  cases same
  exact ⟨begun, rfl, rfl, rfl⟩

theorem seen_told (c : Configuration) (m : Machine) (r : TotalMachine) (shown : m.shown = some r) :
    m.seen c = r.told c m.permissive := by
  obtain ⟨status, state, head, tape⟩ := shown_active m r shown
  have chosen : m.enabled? c = r.chosen? c := by rw [enabled_first, TotalMachine.chosen?, state, head, tape]
  by_cases active : r.status = .active
  · have begun : m.isActive = true := by simp [isActive, status, active]
    rw [TotalMachine.told_active c m.permissive r active, seen, if_pos begun, next, if_pos begun]
    cases taken : m.enabled? c with
    | none =>
        rw [← chosen, taken]
        cases m.permissive <;> simp [head, tape, TotalMachine.farewell, TotalMachine.stuckStatus]
    | some pair =>
        obtain ⟨t, target⟩ := pair
        rw [← chosen, taken]
        simp only [head, state, tape, TotalMachine.entered_verdict]
        cases TotalMachine.entered target <;> rfl
  · have idle : m.isActive = false := by simp [isActive, status, active]
    rw [TotalMachine.told_idle c m.permissive r active, seen, if_neg (by simp [idle])]

end Machine

namespace Observation

def onCells (blank : Symbol) (cells : Int → Option Symbol) : Observation → Int → Option Symbol
  | .wrote address _ new => fun query => if query = address then
      (if new = blank then none else some new) else cells query
  | _ => cells

def replay (blank : Symbol) (cells : Int → Option Symbol) (os : List Observation) : Int → Option Symbol :=
  os.foldl (onCells blank) cells

def Faithful (blank : Symbol) : (Int → Option Symbol) → List Observation → Prop
  | _, [] => True
  | cells, .wrote address old new :: os =>
      old = (cells address).getD blank ∧ Faithful blank (onCells blank cells (.wrote address old new)) os
  | cells, _ :: os => Faithful blank cells os

def Leads : Nat → List Observation → Nat → Prop
  | a, [], b => a = b
  | a, .moved source t :: os, b => source = a ∧ Leads t.target os b
  | a, _ :: os, b => Leads a os b

theorem faithful_append (blank : Symbol) (cells : Int → Option Symbol) (front back : List Observation) :
    Faithful blank cells (front ++ back) ↔ Faithful blank cells front ∧ Faithful blank
    (replay blank cells front) back := by
  induction front generalizing cells with
  | nil => simp [Faithful, replay]
  | cons o os ih =>
      cases o with
      | wrote address old new => simp only [List.cons_append, Faithful, ih, replay, List.foldl_cons, and_assoc]
      | read address symbol => exact ih cells
      | moved source t => exact ih cells
      | halted status => exact ih cells

theorem leads_through (a b d : Nat) (front back : List Observation) (first : Leads a front b)
    (second : Leads b back d) :
    Leads a (front ++ back) d := by
  induction front generalizing a with
  | nil =>
      obtain rfl : a = b := first
      exact second
  | cons o os ih =>
      cases o with
      | moved source t => exact ⟨first.1, ih t.target first.2⟩
      | read address symbol => exact ih a first
      | wrote address old new => exact ih a first
      | halted status => exact ih a first

theorem replay_sparse (blank : Symbol) (cells : Int → Option Symbol) (os : List Observation)
    (sparse : ∀ query, cells query ≠ some blank) :
    ∀ query, replay blank cells os query ≠ some blank := by
  induction os generalizing cells with
  | nil => exact sparse
  | cons o os ih =>
      apply ih
      intro query
      cases o with
      | wrote address old new =>
          by_cases here : query = address
          · by_cases empty : new = blank <;> simp [onCells, here, empty]
          · simpa only [onCells, if_neg here] using sparse query
      | read address symbol => exact sparse query
      | moved source t => exact sparse query
      | halted status => exact sparse query

theorem farewell_cells (blank : Symbol) (cells : Int → Option Symbol) (status : Status) :
    replay blank cells (TotalMachine.farewell status) = cells := by
  cases status <;> rfl

theorem farewell_faithful (blank : Symbol) (cells : Int → Option Symbol) (status : Status) :
    Faithful blank cells (TotalMachine.farewell status) := by
  cases status <;> exact trivial

theorem farewell_leads (a : Nat) (status : Status) : Leads a (TotalMachine.farewell status) a := by
  cases status <;> exact rfl

end Observation

namespace TotalMachine

open Observation

def Fills (blank : Symbol) (cells : Int → Option Symbol) (tape : Int → Symbol) : Prop :=
  ∀ address, tape address = (cells address).getD blank

variable (c : Configuration) (permissive : Bool) (r : TotalMachine)

theorem told_replayed (blank : Symbol) (cells : Int → Option Symbol) (fills : Fills blank cells r.tape) :
    Fills blank (replay blank cells (r.told c permissive)) (r.step c permissive).tape ∧
      Faithful blank cells (r.told c permissive) ∧ Leads r.state (r.told c permissive) (r.step c permissive).state := by
  by_cases active : r.status = .active
  · cases chosen : r.chosen? c with
    | none =>
        rw [told_active c permissive r active, step_stuck c permissive r active chosen, chosen]
        refine ⟨?_, farewell_faithful blank cells _, farewell_leads r.state _⟩
        show Fills blank (replay blank cells (farewell _)) r.tape
        rwa [farewell_cells]
    | some pair =>
        obtain ⟨t, target⟩ := pair
        rw [told_active c permissive r active, step_chosen c permissive r active t target chosen, chosen]
        refine ⟨?_, ⟨fills r.head, farewell_faithful blank _ _⟩, rfl, ?_⟩
        · show Fills blank (replay blank (onCells blank cells (.wrote r.head (r.tape r.head) t.output)) (farewell _)) _
          rw [farewell_cells]
          intro address
          by_cases here : address = r.head
          · by_cases empty : t.output = blank <;> simp [onCells, here, empty]
          · simp only [onCells, here, if_false, fills address]
        · rw [chosen_target c r t target chosen]
          exact farewell_leads t.target _
  · rw [told_idle c permissive r active, step_idle c permissive r active]
    exact ⟨fills, trivial, rfl⟩

theorem chronicle_replayed (blank : Symbol) (cells : Int → Option Symbol) (n : Nat) (fills : Fills blank cells r.tape) :
    Fills blank (replay blank cells (chronicle c permissive n r)) ((step c permissive)^[n] r).tape ∧
      Faithful blank cells (chronicle c permissive n r) ∧
      Leads r.state (chronicle c permissive n r) ((step c permissive)^[n] r).state := by
  -- On the steps. That the cells told so far fill the tape is what makes the old values of the next ones true.
  induction n generalizing r cells with
  | zero => exact ⟨fills, trivial, rfl⟩
  | succ n ih =>
      obtain ⟨filled, faithful, leads⟩ := told_replayed c permissive r blank cells fills
      obtain ⟨filledLater, faithfulLater, leadsOn⟩ := ih (r.step c permissive) _ filled
      rw [chronicle, Function.iterate_succ_apply, replay, List.foldl_append]
      exact ⟨filledLater, (faithful_append blank cells _ _).mpr ⟨faithful, faithfulLater⟩,
        leads_through _ _ _ _ _ leads leadsOn⟩

theorem told_quiet (active : r.status = .active) :
    ∃ quiet, (∀ o ∈ quiet, o.kind ≠ .halted) ∧ r.told c permissive = quiet ++ farewell
    (r.step c permissive).status := by
  cases chosen : r.chosen? c with
  | none =>
      rw [told_active c permissive r active, step_stuck c permissive r active chosen, chosen]
      exact ⟨[.read r.head (r.tape r.head)], by simp [Observation.kind], rfl⟩
  | some pair =>
      obtain ⟨t, target⟩ := pair
      rw [told_active c permissive r active, step_chosen c permissive r active t target chosen, chosen]
      exact ⟨[.read r.head (r.tape r.head), .wrote r.head (r.tape r.head) t.output, .moved r.state t],
        by simp [Observation.kind], rfl⟩

theorem iterate_idle (n : Nat) (idle : r.status ≠ .active) : (step c permissive)^[n] r = r :=
  Function.iterate_fixed (step_idle c permissive r idle) n

theorem chronicle_quiet (n : Nat) (active : r.status = .active) :
    ∃ quiet, (∀ o ∈ quiet, o.kind ≠ .halted) ∧
      chronicle c permissive n r = quiet ++ farewell ((step c permissive)^[n] r).status := by
  induction n generalizing r with
  | zero => exact ⟨[], by simp, by rw [Function.iterate_zero_apply, active]; rfl⟩
  | succ n ih =>
      obtain ⟨quiet, silent, told⟩ := told_quiet c permissive r active
      rw [chronicle, told, Function.iterate_succ_apply]
      by_cases more : (r.step c permissive).status = .active
      · obtain ⟨later, silentLater, rest⟩ := ih (r.step c permissive) more
        refine ⟨quiet ++ later, List.forall_mem_append.mpr ⟨silent, silentLater⟩, ?_⟩
        rw [rest, more, farewell, List.append_nil, List.append_assoc]
      · refine ⟨quiet, silent, ?_⟩
        rw [chronicle_idle c permissive _ n more, iterate_idle c permissive _ n more, List.append_nil]

end TotalMachine

namespace Tape

open Observation

theorem loadings_inscriptions (t : Tape) (word : List Symbol) :
    t.clear.loadings 0 word = TotalMachine.inscriptions t.blank word := by
  have behind (u : Tape) (start : Int) (blank : ∀ query, start ≤ query → u.read query = t.blank) :
      u.loadings start word = word.mapIdx fun i symbol => .wrote (start + i) t.blank symbol := by
    induction word generalizing u start with
    | nil => rfl
    | cons symbol rest ih =>
        have later (query : Int) (beyond : start + 1 ≤ query) : (u.write start symbol).read query = t.blank := by
          have apart : query ≠ start := by omega
          rw [read_write, if_neg apart]
          exact blank query (by omega)
        have shifted (i : Nat) : start + ((i + 1 : Nat) : Int) = start + 1 + i := by omega
        simp only [loadings, ih _ _ later, List.mapIdx_cons, blank start (Int.le_refl start), shifted,
          Int.natCast_zero, Int.add_zero]
  rw [behind t.clear 0 fun query _ => read_clear t query, TotalMachine.inscriptions]
  simp only [Int.zero_add]

theorem loadings_replayed (t : Tape) (start : Int) (word : List Symbol) :
    (replay t.blank (fun query => t.cells[query]?) (t.loadings start word) =
      fun query => (t.load start word).cells[query]?) ∧
      Faithful t.blank (fun query => t.cells[query]?) (t.loadings start word) := by
  induction word generalizing t start with
  | nil => exact ⟨rfl, trivial⟩
  | cons symbol rest ih =>
      have written : onCells t.blank (fun query => t.cells[query]?) (.wrote start (t.read start) symbol) =
          fun query => (t.write start symbol).cells[query]? :=
            funext fun query => (cells_write t start query symbol).symm
      obtain ⟨filled, faithful⟩ := ih (t.write start symbol) (start + 1)
      rw [write_blank] at filled faithful
      rw [loadings, replay, List.foldl_cons, written]
      refine ⟨filled, rfl, ?_⟩
      rwa [written]

theorem loadings_kinds (t : Tape) (start : Int) (word : List Symbol) :
    ∀ o ∈ t.loadings start word, o.kind = .write := by
  induction word generalizing t start with
  | nil => simp [loadings]
  | cons symbol rest ih => exact List.forall_mem_cons.mpr ⟨rfl, ih _ _⟩

theorem writes_lead_nowhere (a : Nat) (os : List Observation) (writes : ∀ o ∈ os, o.kind = .write) : Leads a os a := by
  induction os with
  | nil => rfl
  | cons o os ih =>
      obtain ⟨first, rest⟩ := List.forall_mem_cons.mp writes
      cases o with
      | wrote address old new => exact ih rest
      | read address symbol => cases first
      | moved source t => cases first
      | halted status => cases first

end Tape

namespace EventLog

/-- Events with consecutive numbers, the first of them next to `latest`. -/
def numbered (latest : Nat) (os : List Observation) : List Event := os.mapIdx fun i o => ⟨latest + (i + 1), .seen o⟩

theorem receive_all_recorded (log : EventLog) (os : List Observation) (reads : log.recordsReads = true) :
    (log.receiveAll os).events = log.events ++ numbered log.latest os ∧ (log.receiveAll os).latest =
      log.latest + os.length ∧
      (log.receiveAll os).recordsReads = true := by
  induction os generalizing log with
  | nil => exact ⟨by simp [receiveAll, numbered], rfl, reads⟩
  | cons o os ih =>
      have taken : log.receive o = log.emit (.seen o) := by simp [receive, reads]
      obtain ⟨events, latest, kept⟩ := ih (log.emit (.seen o)) reads
      rw [receiveAll, List.foldl_cons, taken]
      refine ⟨?_, ?_, kept⟩
      · rw [← receiveAll, events]
        simp [emit, EventLog.events, numbered, List.mapIdx_cons, Nat.add_assoc, Nat.add_comm 1]
      · rw [← receiveAll, latest, List.length_cons, emit, Nat.add_assoc, Nat.add_comm 1]

theorem receive_all_append (log : EventLog) (front back : List Observation) :
    log.receiveAll (front ++ back) = (log.receiveAll front).receiveAll back := List.foldl_append

end EventLog

namespace Station

def stepped (c : Configuration) (s : Station) : Station := (s.perform c .step).1

theorem stepped_told (c : Configuration) (s : Station) (r : TotalMachine) (attached : s.attached = true)
    (shown : s.machine.shown = some r) :
    s.stepped c = { machine := s.machine.next c, attached := true, log :=
      s.log.receiveAll (r.told c s.machine.permissive) } := by
  obtain ⟨status, _⟩ := Machine.shown_active s.machine r shown
  have begun : ¬ s.machine.status = none := by simp [status]
  rw [stepped, perform, Machine.perform, if_neg begun, after, attached, if_pos rfl,
    Machine.seen_told c s.machine r shown]

theorem iterate_told (c : Configuration) (s : Station) (r : TotalMachine) (n : Nat) (attached : s.attached = true)
    (shown : s.machine.shown = some r) :
    (stepped c)^[n] s = {
      machine := (Machine.next c)^[n] s.machine
      attached := true
      log := s.log.receiveAll (TotalMachine.chronicle c s.machine.permissive n r) } := by
  induction n generalizing s r with
  | zero => simp [TotalMachine.chronicle, EventLog.receiveAll, ← attached]
  | succ n ih =>
      have seenAfter : (s.machine.next c).shown = some (r.step c s.machine.permissive) := by
        rw [← Machine.stepped_next, Machine.shown_stepped, shown, Option.map_some]
      rw [Function.iterate_succ_apply, Function.iterate_succ_apply, stepped_told c s r attached shown,
        ih _ _ rfl seenAfter,
        Machine.next_permissive, TotalMachine.chronicle, EventLog.receive_all_append]

theorem start_told (c : Configuration) (m : Machine) (word : List Symbol) (log : EventLog) (s : State)
    (begins : c.startState = .ok s) :
    ((Station.mk m true log).perform c (.start word)).1 = {
      machine := m.readied s word
      attached := true
      log := log.receiveAll (TotalMachine.inscriptions m.tape.blank word) } := by
  rw [perform, Machine.started c m word s begins, Tape.loadings_inscriptions]
  rfl

theorem run_told (c : Configuration) (m : Machine) (word : List Symbol) (log : EventLog) (n : Nat) (s : State)
    (begins : c.startState = .ok s) :
    (stepped c)^[n] ((Station.mk m true log).perform c (.start word)).1 = {
      machine := (Machine.next c)^[n] (m.readied s word)
      attached := true
      log := log.receiveAll (TotalMachine.inscriptions m.tape.blank word ++
        TotalMachine.chronicle c m.permissive n (.initial s.id m.tape.blank word)) } := by
  rw [start_told c m word log s begins, iterate_told c _ _ n rfl (Machine.readied_shown m s word),
    EventLog.receive_all_append]
  rfl

end Station

namespace TotalMachine

open Observation

variable (c : Configuration) (m : Machine) (word : List Symbol) (s : State) (n : Nat)

def account : List Observation := inscriptions m.tape.blank word ++ chronicle c m.permissive n
    (.initial s.id m.tape.blank word)

theorem inscriptions_replayed :
    Fills m.tape.blank (replay m.tape.blank (fun _ => none) (inscriptions m.tape.blank word))
    (inscribed m.tape.blank word) ∧
      Faithful m.tape.blank (fun _ => none) (inscriptions m.tape.blank word) := by
  have emptied : (fun query : Int => m.tape.clear.cells[query]?) = fun _ => none :=
    funext fun query => Std.TreeMap.getElem?_emptyc
  obtain ⟨filled, faithful⟩ := m.tape.clear.loadings_replayed 0 word
  rw [Tape.loadings_inscriptions, emptied] at filled faithful
  refine ⟨?_, faithful⟩
  intro address
  have kept := congrFun filled address
  have blank : (m.tape.clear.load 0 word).blank = m.tape.blank := Tape.load_blank m.tape.clear 0 word
  rw [← Tape.read_load_clear, Tape.read, blank]
  exact congrArg (fun cell => Option.getD cell m.tape.blank) kept.symm

theorem account_replayed :
    Fills m.tape.blank (replay m.tape.blank (fun _ => none) (account c m word s n))
        ((step c m.permissive)^[n] (.initial s.id m.tape.blank word)).tape ∧
      Faithful m.tape.blank (fun _ => none) (account c m word s n) ∧
      Leads s.id (account c m word s n) ((step c m.permissive)^[n] (.initial s.id m.tape.blank word)).state := by
  obtain ⟨filled, faithful⟩ := inscriptions_replayed m word
  obtain ⟨filledLater, faithfulLater, leads⟩ :=
    chronicle_replayed c m.permissive (.initial s.id m.tape.blank word) m.tape.blank _ n filled
  have writes : ∀ o ∈ inscriptions m.tape.blank word, o.kind = .write := by
    rw [← Tape.loadings_inscriptions]
    exact Tape.loadings_kinds m.tape.clear 0 word
  rw [account, replay, List.foldl_append]
  exact ⟨filledLater, (faithful_append _ _ _ _).mpr ⟨faithful, faithfulLater⟩,
    leads_through _ _ _ _ _ (Tape.writes_lead_nowhere s.id _ writes) leads⟩

theorem account_cells (address : Int) :
    ((Machine.next c)^[n] (m.readied s word)).tape.cells[address]? = replay m.tape.blank (fun _ => none)
    (account c m word s n) address := by
  have sparse := Machine.iterate_sparse c (m.readied s word) n (Tape.load_sparse _ 0 word (Tape.clear_sparse m.tape))
  have blank : ((Machine.next c)^[n] (m.readied s word)).tape.blank = m.tape.blank :=
    (Machine.iterate_blank c (m.readied s word) n).trans (Tape.load_blank m.tape.clear 0 word)
  obtain ⟨_, _, _, read⟩ := Machine.shown_active _ _ (Machine.iterate_shown c m s word n)
  have filled := (account_replayed c m word s n).1 address
  rw [← read, Tape.read, blank] at filled
  exact Tape.cell_settled m.tape.blank _ _ (blank ▸ sparse address)
    (replay_sparse _ _ _ (fun _ => (Option.some_ne_none _).symm) address) filled

theorem account_quiet :
    ∃ quiet, (∀ o ∈ quiet, o.kind ≠ .halted) ∧
      account c m word s n = quiet ++ farewell
      ((step c m.permissive)^[n] (.initial s.id m.tape.blank word)).status := by
  obtain ⟨quiet, silent, told⟩ := chronicle_quiet c m.permissive (.initial s.id m.tape.blank word) n rfl
  refine ⟨inscriptions m.tape.blank word ++ quiet, List.forall_mem_append.mpr ⟨?_, silent⟩,
    by rw [account, told, List.append_assoc]⟩
  intro o mem
  rw [← Tape.loadings_inscriptions] at mem
  rw [Tape.loadings_kinds m.tape.clear 0 word o mem]
  exact EventKind.noConfusion

end TotalMachine

namespace Station

open TotalMachine Observation

/-- The log of a run holds one write for each symbol of the word and then what every step tells,
with consecutive numbers. The writes fill the cells that the machine keeps, each tells what it
replaces, the transitions lead from the start state to the state of the machine, and a halt is told
last, as soon as the machine is not active any more. -/
theorem event_log_tells_the_run (c : Configuration) (m : Machine) (word : List Symbol) (log : EventLog)
    (reads : log.recordsReads = true) :
    let begun (log : EventLog) := (Station.mk m true log).perform c (.start word)
    let blank := m.tape.blank
    (∀ fault, c.startState = .error fault → (begun log).2 = .error (.lookup fault) ∧ (begun log).1.log = log) ∧
    ∀ s, c.startState = .ok s → ∀ n,
      let after (log : EventLog) := (stepped c)^[n] (begun log).1
      let told := inscriptions blank word ++ chronicle c m.permissive n (.initial s.id blank word)
      (after log).machine.shown = some ((step c m.permissive)^[n] (.initial s.id blank word)) ∧
      (after log).log.events = log.events ++ EventLog.numbered log.latest told ∧
      (after log.clear).log.events = EventLog.numbered 0 told ∧
      (∀ address, (after log).machine.tape.cells[address]? = replay blank (fun _ => none) told address) ∧
      (∀ front address old new rest, told = front ++ .wrote address old new :: rest →
        old = (replay blank (fun _ => none) front address).getD blank) ∧
      Leads s.id told (after log).machine.state.id ∧
      ∃ quiet status, (after log).machine.status = some status ∧ (∀ o ∈ quiet, o.kind ≠ .halted) ∧
        told = quiet ++ farewell status := by
  intro begun blank
  refine ⟨?_, ?_⟩
  · intro fault missing
    have failed : m.perform c (.start word) =
        { machine := { m with tape := m.tape.clear }, reply := .error (.lookup fault) } := by
      simp [Machine.perform, Machine.start, Machine.reset, missing]
    simp only [begun, perform, failed, after, if_true]
    exact ⟨trivial, rfl⟩
  · intro s begins n after told
    have ran (log : EventLog) := run_told c m word log n s begins
    have shown := Machine.iterate_shown c m s word n
    obtain ⟨status, state, _, _⟩ := Machine.shown_active _ _ shown
    obtain ⟨_, faithful, leads⟩ := account_replayed c m word s n
    obtain ⟨quiet, silent, ends⟩ := account_quiet c m word s n
    simp only [after, begun, ran]
    refine ⟨shown, (EventLog.receive_all_recorded log told reads).1, ?_, account_cells c m word s n, ?_, state ▸ leads,
      quiet, _, status, silent, ends⟩
    · exact (EventLog.receive_all_recorded log.clear told reads).1
    · intro front address old new rest split
      have truthful : Faithful blank (fun _ => none) told := faithful
      rw [split] at truthful
      exact ((faithful_append blank _ front _).mp truthful).2.1

theorem event_log_tells_halting_run :
    let erasing : Transition := ⟨6, .left, .text "_", [.text "1"]⟩
    let origin : State := { id := 5, transitions := [erasing] }
    let final : State := { id := 6, acceptance := .accept, transitions := [⟨5, .stay, .text "1", [.text "_"]⟩] }
    let c : Configuration := { states := [final, origin], start := Label.ofId 5 }
    let m : Machine := {
      tape := (Tape.mk (.text "_") ∅).load (-1) [.text "1"],
      permissive := true, state := final, head := -1, status := some .accepted, steps := 1 }
    let log : EventLog := { latest := 1, reversed := [⟨1, .seen (.halted .accepted)⟩] }
    let after (log : EventLog) := (stepped c)^[3] ((Station.mk m true log).perform c (.start [.text "1", .text "_"])).1
    let told : List Observation := [.wrote 0 (.text "_") (.text "1"),
      .wrote 1 (.text "_") (.text "_"), .read 0 (.text "1"),
      .wrote 0 (.text "1") (.text "_"), .moved 5 erasing, .halted .accepted]
    log.recordsReads = true ∧ c.startState = .ok origin ∧
      (after log).log.events = ⟨1, .seen (.halted .accepted)⟩ :: EventLog.numbered 1 told ∧
      (after log.clear).log.events = EventLog.numbered 0 told ∧
      (∀ address : Int, (after log).machine.tape.cells[address]? = replay (.text "_") (fun _ => none) told address) ∧
      Leads 5 told (after log).machine.state.id := by
  intro erasing origin final c m log after told
  have begins : c.startState = .ok origin := rfl
  obtain ⟨_, events, fresh, cells, _, leads, _⟩ :=
    (event_log_tells_the_run c m [.text "1", .text "_"] log rfl).2 origin begins 3
  exact ⟨rfl, begins, events, fresh, cells, leads⟩

end Station

end TapeMachine
