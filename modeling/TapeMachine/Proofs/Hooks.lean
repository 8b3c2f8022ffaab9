import TapeMachine.Machine.Watched
import TapeMachine.Proofs.EventLogs
import TapeMachine.Proofs.SharedControl
import TapeMachine.Proofs.Tracing

set_option autoImplicit false

namespace TapeMachine

namespace EventLog

def renumbered (events : List Event) : List Event := events.mapIdx fun i e => { e with number := i + 1 }

def withoutReads (events : List Event) : List Event := events.filter fun e => e.content.kind ≠ .read

structure Thins (part full : EventLog) : Prop where
  spares : part.recordsReads = false
  records : full.recordsReads = true
  latest : part.latest = part.events.length
  kept : part.events = renumbered (withoutReads full.events)

theorem events_emit (log : EventLog) (content : EventContent) :
    (log.emit content).events = log.events ++ [⟨log.latest + 1, content⟩] := by
  simp [events, emit]

theorem renumbered_append (events : List Event) (e : Event) :
    renumbered (events ++ [e]) = renumbered events ++ [{ e with number := events.length + 1 }] := by
  simp [renumbered]

theorem thins_receive (part full : EventLog) (o : Observation) (thins : part.Thins full) :
    (part.receive o).Thins (full.receive o) := by
  have taken : full.receive o = full.emit (.seen o) := by simp [receive, thins.records]
  have length : (withoutReads full.events).length = part.latest := by
    rw [thins.latest, thins.kept, renumbered, List.length_mapIdx]
  by_cases read : o.kind = .read
  -- The number of a dropped event is not used up.
  · have dropped : part.receive o = part := by simp [receive, thins.spares, read]
    rw [taken, dropped]
    refine ⟨thins.spares, thins.records, thins.latest, ?_⟩
    rw [events_emit, withoutReads, List.filter_append, ← withoutReads, thins.kept]
    simp [EventContent.kind, read]
  · have kept : part.receive o = part.emit (.seen o) := by simp [receive, read]
    rw [taken, kept]
    refine ⟨thins.spares, thins.records, ?_, ?_⟩
    · rw [events_emit, List.length_append, ← thins.latest]
      rfl
    · have more : withoutReads (full.events ++ [⟨full.latest + 1, .seen o⟩]) =
          withoutReads full.events ++ [⟨full.latest + 1, .seen o⟩] := by
        simp [withoutReads, EventContent.kind, read]
      rw [events_emit, events_emit, more, renumbered_append, length, thins.kept]

theorem thins_receive_all (part full : EventLog) (os : List Observation) (thins : part.Thins full) :
    (part.receiveAll os).Thins (full.receiveAll os) := by
  induction os generalizing part full with
  | nil => exact thins
  | cons o os ih => exact ih _ _ (thins_receive part full o thins)

theorem thins_scanl (part full : EventLog) (os : List Observation) (thins : part.Thins full) :
    (os.scanl receive part).map events = (os.scanl receive full).map fun full => renumbered
    (withoutReads full.events) := by
  induction os generalizing part full with
  | nil => simp [thins.kept]
  | cons o os ih =>
      rw [List.scanl_cons, List.scanl_cons, List.map_cons, List.map_cons,
        ih _ _ (thins_receive part full o thins), thins.kept]

end EventLog

namespace Station

variable (s : Station)

theorem after_after (m m' : Machine) (seen seen' : List Observation) :
    (s.after m seen).after m' seen' = s.after m' (seen ++ seen') := by
  cases attached : s.attached <;> simp [after, attached, EventLog.receive_all_append]

@[simp] theorem after_nothing : s.after s.machine [] = s := by
  cases attached : s.attached <;> simp [after, EventLog.receiveAll, ← attached]

end Station

namespace Watched

variable {α β : Type}

def Does (operation : Watched α) (m : Machine) (a : α) (m' : Machine) (told : List Observation) : Prop :=
  ∀ s : Station, s.machine = m → operation s = (a, s.after m' told)

theorem does_pure (m : Machine) (a : α) : Does (pure a) m a m [] := by
  rintro s rfl
  rw [Station.after_nothing]
  rfl

theorem does_bind (operation : Watched α) (next : α → Watched β) (m m' m'' : Machine) (a : α) (b : β)
    (told told' : List Observation) (first : Does operation m a m' told) (second : Does (next a) m' b m'' told') :
    Does (operation >>= next) m b m'' (told ++ told') := by
  intro s here
  have chained : (operation >>= next) s = next (operation s).1 (operation s).2 := rfl
  rw [chained, first s here, second (s.after m' told) rfl, Station.after_after]

theorem does_map (operation : Watched α) (f : α → β) (m m' : Machine) (a : α) (told : List Observation)
    (does : Does operation m a m' told) : Does (operation >>= fun a => pure (f a)) m (f a) m' told := by
  have behind := does_bind operation (fun a => pure (f a)) m m' m' a (f a) told [] does (does_pure m' (f a))
  rwa [List.append_nil] at behind

theorem does_machine (m : Machine) : Does machine m m m [] := by
  rintro s rfl
  rw [Station.after_nothing]
  rfl

theorem does_tell (m : Machine) (o : Observation) : Does (tell o) m () m [o] := by
  rintro s rfl
  rfl

theorem does_alter (m : Machine) (change : Machine → Machine) : Does (alter change) m () (change m) [] := by
  rintro s rfl
  rfl

theorem does_look (next : Machine → Watched β) (m m' : Machine) (b : β) (told : List Observation)
    (does : Does (next m) m b m' told) : Does (machine >>= next) m b m' told :=
  does_bind machine next m m m' m b [] told (does_machine m) does

theorem does_change (next : Unit → Watched β) (change : Machine → Machine) (m m' : Machine) (b : β)
    (told : List Observation)
    (does : Does (next ()) (change m) b m' told) : Does (alter change >>= next) m b m' told :=
  does_bind _ next m (change m) m' () b [] told (does_alter m change) does

theorem read_does (m : Machine) (address : Int) :
    Does (read address) m (m.tape.read address) m [.read address (m.tape.read address)] :=
  does_look _ m m _ _ (does_map _ _ m m () _ (does_tell m _))

theorem write_does (m : Machine) (address : Int) (symbol : Symbol) :
    Does (write address symbol) m () { m with tape := m.tape.write address symbol }
    [.wrote address (m.tape.read address) symbol] :=
  does_look _ m _ _ _ (does_change _ _ m _ _ _ (does_tell _ _))

theorem load_does (m : Machine) (start : Int) (word : List Symbol) :
    Does (load start word) m () { m with tape := m.tape.load start word } (m.tape.loadings start word) := by
  induction word generalizing m start with
  | nil => exact does_pure m ()
  | cons symbol rest ih =>
      exact does_bind _ _ m _ _ () () _ _ (write_does m start symbol)
        (ih { m with tape := m.tape.write start symbol } (start + 1))

theorem window_does (m : Machine) (addresses : List Int) :
    Does (window addresses) m (addresses.map m.tape.read) m (m.tape.readings addresses) := by
  induction addresses with
  | nil => exact does_pure m []
  | cons address rest ih =>
      exact does_bind _ _ m m m _ _ _ _ (read_does m address) (does_map _ (m.tape.read address :: ·) m m _ _ ih)

theorem chosen_enabled (c : Configuration) (m : Machine) : chosen? c m.state (m.tape.read m.head) = m.enabled? c := by
  simp only [chosen?, Machine.enabled?]

theorem obey_none_does (m : Machine) :
    Does (obey none) m () (if m.permissive then m else { m with status := some .rejected }) [] :=
  does_alter m fun m => if m.permissive then m else { m with status := some .rejected }

theorem obey_some_does (m : Machine) (t : Transition) (target : State) :
    Does (obey (some (t, target))) m () {
      m with
      tape := m.tape.write m.head t.output
      head := m.head + t.action.offset
      state := target
      status := some (Machine.verdict target) }
    [.wrote m.head (m.tape.read m.head) t.output, .moved m.state.id t] :=
  does_look _ m _ _ _ (does_bind _ _ m _ _ () () _ _ (write_does m m.head t.output)
    (does_change _ _ _ _ _ _ (does_look _ _ _ _ _ (does_bind _ _ _ _ _ () () _ _ (does_tell _ _) (does_alter _ _)))))

theorem say_halt_does (m : Machine) (status : Status) (now : m.status = some status) :
    Does sayHalt m () m (TotalMachine.farewell status) := by
  refine does_look _ m m () _ ?_
  simp only [now]
  cases status with
  | active => exact does_pure m ()
  | accepted => exact does_tell m _
  | rejected => exact does_tell m _

theorem step_obeys (c : Configuration) (m m' : Machine) (told : List Observation) (status : Status)
    (active : m.isActive = true)
    (obeys : Does (obey (m.enabled? c)) { m with steps := m.steps + 1 } () m' told) (now : m'.status = some status) :
    Does (step c) m () m' (.read m.head (m.tape.read m.head) :: told ++ TotalMachine.farewell status) := by
  let counted := { m with steps := m.steps + 1 }
  have ending := does_bind _ (fun _ => sayHalt) counted m' m' () () _ _ obeys (say_halt_does m' status now)
  rw [← chosen_enabled] at ending
  have reading := does_bind _
    (fun symbol => machine >>= fun m => obey (chosen? c m.state symbol) >>= fun _ => sayHalt) counted
    counted m' _ () _ _ (read_does counted counted.head) (does_look _ counted m' () _ ending)
  refine does_look _ m m' () _ ?_
  simp only [if_pos active]
  exact does_change _ _ m m' () _ (does_look _ counted m' () _ reading)

theorem seen_farewell (c : Configuration) (m : Machine) (status : Status) (active : m.isActive = true)
    (now : (m.next c).status = some status) :
    m.seen c = .read m.head (m.tape.read m.head) :: (match m.enabled? c with
      | some (t, _) => [.wrote m.head (m.tape.read m.head) t.output, .moved m.state.id t]
      | none => []) ++ TotalMachine.farewell status := by
  simp only [Machine.seen, if_pos active, now]
  cases status <;> rfl

theorem step_does (c : Configuration) (m : Machine) : Does (step c) m () (m.next c) (m.seen c) := by
  by_cases active : m.isActive = true
  · have status : m.status = some .active := by simpa [Machine.isActive] using active
    have obeys : ∃ halted, (m.next c).status = some halted ∧
        Does (obey (m.enabled? c)) { m with steps := m.steps + 1 } () (m.next c) (match m.enabled? c with
          | some (t, _) => [.wrote m.head (m.tape.read m.head) t.output, .moved m.state.id t]
          | none => []) := by
      rw [Machine.next, if_pos active]
      cases m.enabled? c with
      | none =>
          refine ⟨_, rfl, ?_⟩
          have waits := obey_none_does { m with steps := m.steps + 1 }
          cases policy : m.permissive with
          | false => simpa [policy] using waits
          | true => simpa [policy, status] using waits
      | some pair => exact ⟨_, rfl, obey_some_does { m with steps := m.steps + 1 } pair.1 pair.2⟩
    obtain ⟨halted, now, obeys⟩ := obeys
    rw [seen_farewell c m halted active now]
    exact step_obeys c m (m.next c) _ halted active obeys now
  · rw [Machine.next_of_not_active c m (by simpa using active), Machine.seen, if_neg active]
    refine does_look _ m _ _ _ ?_
    simp only [if_neg active]
    exact does_pure m ()

theorem run_does (c : Configuration) (bound : Nat) (m : Machine) :
    Does (run c bound) m (m.taken c bound) (m.run c bound) ((m.passed c bound).flatMap (Machine.seen c)) := by
  induction bound generalizing m with
  | zero =>
      rw [Machine.passed_zero, Machine.taken, Machine.run, Nat.sub_self]
      exact does_pure m 0
  | succ bound ih =>
      refine does_look _ m _ _ _ ?_
      by_cases active : m.isActive = true
      · simp only [if_pos active]
        rw [Machine.passed_active c bound m active, Machine.taken_active c bound m active, Machine.run, if_pos active,
          List.flatMap_cons]
        exact does_bind _ _ m _ _ () _ _ _ (step_does c m) (does_map _ (· + 1) (m.next c) _ _ _ (ih (m.next c)))
      · have idle : m.isActive = false := by simpa using active
        simp only [if_neg active]
        rw [Machine.passed_idle c _ m idle, Machine.taken_idle c _ m idle, Machine.run_of_not_active c _ m idle]
        exact does_pure m 0

theorem reset_does (c : Configuration) (m : Machine) : Does (reset c) m (m.reset c).2 (m.reset c).1 [] := by
  refine does_change _ _ m _ _ _ ?_
  cases begins : c.startState with
  | error fault =>
      simp only [Machine.reset, begins]
      exact does_pure _ _
  | ok s =>
      simp only [Machine.reset, begins]
      exact does_change _ _ _ _ _ _ (does_pure _ _)

theorem start_does (c : Configuration) (m : Machine) (word : List Symbol) :
    Does (start c word) m (m.start c word).2 (m.start c word).1
      (match (m.start c word).2 with
        | .ok () => m.tape.clear.loadings 0 word
        | .error _ => []) := by
  have again := reset_does c m
  cases begins : c.startState with
  | error fault =>
      simp only [Machine.start, Machine.reset, begins] at again ⊢
      exact does_bind _ _ m _ _ _ _ [] [] again (does_pure _ _)
  | ok s =>
      simp only [Machine.start, Machine.reset, begins] at again ⊢
      let cleared : Machine := { m with tape := m.tape.clear, state := s, head := 0, status := none, steps := 0 }
      have begun (m : Machine) := does_map _ (fun _ => (.ok () : Except LookupFault Unit)) m _ () []
        (does_alter m fun m => { m with status := some .active })
      have loaded := does_bind _ (fun _ => _) cleared _ _ () _ _ [] (load_does cleared 0 word) (begun _)
      rw [List.append_nil] at loaded
      exact does_bind _ _ m cleared _ _ _ [] _ again loaded

theorem perform_does (c : Configuration) (m : Machine) (request : Request) :
    Does (perform c request) m (m.perform c request).reply (m.perform c request).machine
    (m.perform c request).seen := by
  cases request with
  | start word =>
      have does := does_map _ answer m _ _ _ (start_does c m word)
      rw [Machine.perform]
      cases begun : m.start c word with
      | mk after outcome =>
          rw [begun] at does
          cases outcome <;> exact does
  | step =>
      refine does_look _ m _ _ _ ?_
      rw [Machine.perform]
      by_cases fresh : m.status = none
      · simp only [if_pos fresh]
        exact does_pure m _
      · simp only [if_neg fresh]
        exact does_map _ (fun _ => (.ok .done : Except MachineFault Reply)) m _ () _ (step_does c m)
  | run given =>
      simp only [perform]
      cases bounded : Quantity.stepBound given with
      | ok bound =>
          rw [Machine.run_performed c given bound m bounded]
          exact does_map _ (fun taken => (.ok (.taken taken) : Except MachineFault Reply)) m _ _ _ (run_does c bound m)
      | error fault =>
          simp only [Machine.perform, bounded]
          refine does_look _ m m _ _ ?_
          split
          · exact does_pure m _
          · exact does_pure m _
  | reset =>
      have does := does_map _ answer m _ _ _ (reset_does c m)
      rw [Machine.perform]
      cases again : m.reset c with
      | mk after outcome =>
          rw [again] at does
          cases outcome <;> exact does
  | window given =>
      simp only [perform, Machine.perform]
      cases sized : Quantity.radius given with
      | error fault => exact does_pure m _
      | ok radius =>
          exact does_look _ m m _ _
            (does_map _ (fun symbols => (.ok (.symbols symbols) : Except MachineFault Reply)) m m _ _
            (window_does m (Tape.windowAddresses m.head radius)))

end Watched

namespace Station

variable (c : Configuration)

theorem perform_calls (s : Station) (request : Request) :
    Watched.perform c request s = ((s.perform c request).2, (s.perform c request).1) :=
  Watched.perform_does c s.machine request s rfl

structure Alike (bare sparing recording : Station) : Prop where
  unwatched : bare.attached = false
  spared : sparing.attached = true
  recorded : recording.attached = true
  sameSparing : sparing.machine = bare.machine
  sameRecording : recording.machine = bare.machine
  thins : sparing.log.Thins recording.log

variable (bare sparing recording : Station)

theorem alike_perform (request : Request) (alike : Alike bare sparing recording) :
    Alike (bare.perform c request).1 (sparing.perform c request).1 (recording.perform c request).1 ∧
      (sparing.perform c request).2 = (bare.perform c request).2 ∧ (recording.perform c request).2 =
        (bare.perform c request).2 ∧
      (bare.perform c request).1.log = bare.log := by
  obtain ⟨unwatched, spared, recorded, sameSparing, sameRecording, thins⟩ := alike
  have noted := EventLog.thins_receive_all _ _ (bare.machine.perform c request).seen thins
  refine ⟨⟨unwatched, spared, recorded, ?_, ?_, ?_⟩, ?_, ?_, ?_⟩
  · rw [perform, sameSparing]
    rfl
  · rw [perform, sameRecording]
    rfl
  · simpa [perform, after, spared, recorded, sameSparing, sameRecording] using noted
  · rw [perform, sameSparing]
    rfl
  · rw [perform, sameRecording]
    rfl
  · simp [perform, after, unwatched]

theorem alike_perform_all (requests : List Request) (alike : Alike bare sparing recording) :
    Alike (bare.performAll c requests) (sparing.performAll c requests) (recording.performAll c requests) ∧
      (bare.performAll c requests).log = bare.log := by
  induction requests generalizing bare sparing recording with
  | nil => exact ⟨alike, rfl⟩
  | cons request rest ih =>
      obtain ⟨after, _, _, untouched⟩ := alike_perform c bare sparing recording request alike
      obtain ⟨ended, kept⟩ := ih _ _ _ after
      exact ⟨ended, kept.trans untouched⟩

def shows (s : Station) (requests : List Request) : List (Machine × Except MachineFault Reply) :=
  (s.record c requests).map fun seen => (seen.1.machine, seen.2)

theorem alike_shows (requests : List Request) (alike : Alike bare sparing recording) :
    sparing.shows c requests = bare.shows c requests ∧ recording.shows c requests = bare.shows c requests := by
  induction requests generalizing bare sparing recording with
  | nil => exact ⟨rfl, rfl⟩
  | cons request rest ih =>
      obtain ⟨after, spared, recorded, _⟩ := alike_perform c bare sparing recording request alike
      obtain ⟨restSpared, restRecorded⟩ := ih _ _ _ after
      simp only [shows, record, List.map_cons] at restSpared restRecorded ⊢
      rw [restSpared, restRecorded, spared, recorded, after.sameSparing, after.sameRecording]
      exact ⟨rfl, rfl⟩

def pages (s : Station) : List Request → List EventLog
  | [] => [s.log]
  | request :: rest =>
      (s.machine.perform c request).seen.scanl EventLog.receive s.log ++ pages (s.perform c request).1 rest

theorem alike_pages (requests : List Request) (alike : Alike bare sparing recording) :
    (sparing.pages c requests).map EventLog.events =
      (recording.pages c requests).map fun full => EventLog.renumbered (EventLog.withoutReads full.events) := by
  induction requests generalizing bare sparing recording with
  | nil => simp [pages, alike.thins.kept]
  | cons request rest ih =>
      obtain ⟨after, _⟩ := alike_perform c bare sparing recording request alike
      rw [pages, pages, List.map_append, List.map_append, ih _ _ _ after, alike.sameSparing, alike.sameRecording,
        EventLog.thins_scanl _ _ _ alike.thins]

/-- With a log beside it or without one a machine gives the same replies and stands the same after
every request. At every point the log without reads holds what the full log holds of the rest,
numbered from 1. The requests are done call by call, so there are no points but these. -/
theorem watching_changes_nothing (m : Machine) (requests : List Request) :
    let bare : Station := { machine := m }
    let sparing : Station := { machine := m, attached := true, log := { recordsReads := false } }
    let recording : Station := { machine := m, attached := true }
    (sparing.shows c requests = bare.shows c requests ∧ recording.shows c requests = bare.shows c requests) ∧
    (bare.performAll c requests).log.events = [] ∧
    (sparing.performAll c requests).log.events =
      EventLog.renumbered (EventLog.withoutReads (recording.performAll c requests).log.events) ∧
    ((sparing.pages c requests).map EventLog.events =
      (recording.pages c requests).map fun full => EventLog.renumbered (EventLog.withoutReads full.events)) ∧
    ∀ (s : Station) request, Watched.perform c request s = ((s.perform c request).2, (s.perform c request).1) := by
  intro bare sparing recording
  have alike : Alike bare sparing recording := ⟨rfl, rfl, rfl, rfl, rfl, ⟨rfl, rfl, rfl, rfl⟩⟩
  obtain ⟨ended, kept⟩ := alike_perform_all c bare sparing recording requests alike
  refine ⟨alike_shows c bare sparing recording requests alike, ?_, ended.thins.kept,
    alike_pages c bare sparing recording requests alike, perform_calls c⟩
  rw [kept]
  rfl

end Station

end TapeMachine
