import TapeMachine.StandIn
import TapeMachine.Proofs.LastWrites
import TapeMachine.Proofs.RowReadings
import TapeMachine.Proofs.Tracing
import TapeMachine.Proofs.WordResults
import TapeMachine.View.Report

set_option autoImplicit false

namespace TapeMachine

/-- A symbol of one code point that can be seen. -/
def Symbol.Shown (x : Symbol) : Prop := x.plain.length = 1 ∧ ∀ c ∈ x.plain, c.isControl = false

instance (x : Symbol) : Decidable x.Shown := inferInstanceAs (Decidable (_ ∧ ∀ c ∈ _, _))

theorem Symbol.shown_cells (xs : List Symbol) (each : ∀ x ∈ xs, x.Shown) :
    (xs.flatMap Symbol.plain).map ([·]) = xs.map Symbol.plain ∧ ∀ c ∈ xs.flatMap Symbol.plain, c.isControl = false := by
  induction xs with
  | nil => exact ⟨rfl, nofun⟩
  | cons x rest ih =>
      obtain ⟨⟨single, plain⟩, others⟩ := List.forall_mem_cons.mp each
      obtain ⟨c, same⟩ := List.length_eq_one_iff.mp single
      obtain ⟨cells, visible⟩ := ih others
      rw [List.flatMap_cons, List.map_append, List.map_cons, cells]
      exact ⟨by rw [same]; rfl, List.forall_mem_append.mpr ⟨plain, visible⟩⟩

/-- What is seen of a line. -/
def StyledLine.shown [Screen] (l : StyledLine) : List Piece :=
  l.pieces.map fun p => { p with text := Screen.shows p.text }

/-- A row with as many cells of a machine on either side of its head. -/
structure HistoryRow.Shows (r : HistoryRow) (m : Machine) (radius index : Nat) : Prop where
  index : r.index = index
  state : r.state = m.state.id
  left : r.left.length = radius
  right : r.right.length = radius
  head : [r.head] = (m.tape.read m.head).plain
  window : (r.left ++ r.head :: r.right).map ([·]) = (m.window radius).map Symbol.plain

/-- A line off which such a row is read. -/
def StyledLine.Tells [Screen] (l : StyledLine) (m : Machine) (radius index : Nat) : Prop :=
  ∃ r, HistoryRow.read? l.shown = some r ∧ r.Shows m radius index

namespace Recent

variable {α : Type}

def dropped (limit : Option Nat) (total : Nat) : Nat := (limit.map (total - ·)).getD 0

theorem last_range (limit : Option Nat) (total : Nat) (f : Nat → α) :
    last limit ((List.range total).map f) =
      (List.range (total - dropped limit total)).map fun i => f (dropped limit total + i) := by
  have shift (k : Nat) : ((List.range total).map f).drop k = (List.range (total - k)).map fun i => f (k + i) := by
    apply List.ext_getElem?
    intro i
    by_cases within : i < total - k <;> simp [within]
  cases limit with
  | none => simp [last, dropped]
  | some n => simpa [last, dropped] using shift (total - n)

end Recent

theorem Frame.row_made (f : Frame) (index radius : Nat) (c : CodePoint) (under : f.window[radius]? = some c) :
    f.row index radius = .ok { pieces := [⟨HistoryRow.label index f.state ++ f.window.take radius, []⟩,
      ⟨[c], "red"⟩, ⟨f.window.drop (radius + 1) ++ ".....", []⟩] } := by
  have natural : ¬ (radius : Int) < 0 := by omega
  simp only [Frame.row, Int.toNat_natCast, under, if_neg natural]
  rfl

theorem HistoryRow.shown_row [Screen] (lawful : Screen.Lawful) (r : HistoryRow)
    (visible : ∀ d ∈ r.left ++ r.head :: r.right, d.isControl = false) :
    HistoryRow.read? (StyledLine.shown { pieces := [⟨HistoryRow.label r.index r.state ++ r.left, []⟩,
      ⟨[r.head], "red"⟩, ⟨r.right ++ ".....", []⟩] }) = some r := by
  obtain ⟨before, visible⟩ := List.forall_mem_append.mp visible
  obtain ⟨under, after⟩ := List.forall_mem_cons.mp visible
  have start : ∀ d ∈ HistoryRow.label r.index r.state ++ r.left, d.isControl = false :=
    List.forall_mem_append.mpr ⟨fun d mem => Text.inked_shown d (HistoryRow.label_inked _ _ d mem), before⟩
  have rear : ∀ d ∈ r.right ++ Text.ofString ".....", d.isControl = false :=
    List.forall_mem_append.mpr ⟨after, by decide⟩
  simp only [StyledLine.shown, List.map_cons, List.map_nil, lawful.shown _ start, lawful.shown _ rear,
    lawful.shown [r.head] (List.forall_mem_singleton.mpr under)]
  exact HistoryRow.read_row r

namespace Machine

variable (m : Machine) (radius : Nat)

theorem frame_row [Screen] (lawful : Screen.Lawful) (shown : m.Within Symbol.Shown) (index : Nat) :
    ∃ l, (m.frame radius).row index radius = .ok l ∧ l.Tells m radius index := by
  obtain ⟨length, spans⟩ := m.tape.window_spans m.head radius
  have centred : (m.window radius)[radius]? = some (m.tape.read m.head) := by
    rw [window, spans radius (by omega), Int.sub_add_cancel]
  have visible : ∀ x ∈ m.window radius, x.Shown := List.forall_mem_map.mpr fun _ _ => shown _
  have made := Frame.row_made (m.frame radius) index radius
  obtain ⟨cells, seen⟩ := Symbol.shown_cells _ visible
  change (m.frame radius).window.map _ = _ at cells
  change ∀ c ∈ (m.frame radius).window, _ at seen
  generalize (m.frame radius).window = row at made cells seen
  -- Each cell is one code point of the row, so the head stands in the middle of it.
  have wide : row.length = 2 * radius + 1 := by simpa [window, length] using congrArg List.length cells
  obtain ⟨c, under⟩ : ∃ c, row[radius]? = some c := ⟨_, List.getElem?_eq_getElem (by omega)⟩
  have head : [c] = (m.tape.read m.head).plain := by
    simpa [under, centred] using congrArg (·[radius]?) cells
  have parts : row.take radius ++ c :: row.drop (radius + 1) = row := by
    obtain ⟨within, same⟩ := List.getElem?_eq_some_iff.mp under
    rw [← same, List.getElem_cons_drop, List.take_append_drop]
  let r : HistoryRow := ⟨index, m.state.id, row.take radius, c, row.drop (radius + 1)⟩
  exact ⟨_, made c under, r, r.shown_row lawful (parts.symm ▸ seen), rfl, rfl, by simp [r]; omega, by simp [r]; omega,
    head, parts.symm ▸ cells⟩

theorem iterate_within (c : Configuration) (p : Symbol → Prop)
    (written : ∀ s ∈ c.states, ∀ t ∈ s.transitions, p t.output)
    (within : m.Within p) (steps : Nat) : ((next c)^[steps] m).Within p := by
  induction steps with
  | zero => exact within
  | succ steps ih =>
      rw [Function.iterate_succ_apply']
      exact next_within c p _ written ih

end Machine

theorem Frame.rows_from_machines [Screen] (lawful : Screen.Lawful) (radius count index : Nat) (f : Nat → Machine)
    (shown : ∀ i, (f i).Within Symbol.Shown) :
    ∃ rows, Frame.rowsFrom index radius ((List.range count).map fun i => (f i).frame radius) = .ok rows ∧
      rows.length = count ∧
      ∀ (i : Nat) (l : StyledLine), rows[i]? = some l → l.Tells (f i) radius (index + i) := by
  induction count generalizing f index with
  | zero => exact ⟨[], rfl, rfl, fun _ _ absurdly => by cases absurdly⟩
  | succ count ih =>
      obtain ⟨first, made, tells⟩ := (f 0).frame_row radius lawful (shown 0) index
      obtain ⟨others, rest, length, each⟩ := ih (index + 1) (fun i => f (i + 1)) fun i => shown (i + 1)
      refine ⟨first :: others, ?_, by rw [List.length_cons, length], fun i l found => ?_⟩
      · rw [List.range_succ_eq_map, List.map_cons, List.map_map, rowsFrom, made]
        exact (bind_ok _ _ _).mpr ⟨first, rfl, (bind_ok _ _ _).mpr ⟨others, rest, rfl⟩⟩
      · cases i with
        | zero =>
            cases found
            exact tells
        | succ i =>
            have later := each i l found
            rwa [Nat.add_assoc, Nat.add_comm 1 i] at later

namespace Trace

variable (trace : Trace) (d : Definition) (rows : List StyledLine)
  (told : Frame.rowsFrom 0 trace.radius trace.history = .ok rows)

include told

theorem report_made (bytes : Bytes) (text : Text) (encoded : Binary.encodeDefinition d = .ok bytes)
    (spelt : d.toText = .ok text) :
    ∃ front, trace.report d = .ok (front ++ StyledLine.of "History:\n" :: rows ++ [StyledLine.of (dashes 100)]) := by
  refine ⟨[trace.verdict d, StyledLine.of (dashes 44 ++ " DEBUG DATA " ++ dashes 44),
      StyledLine.of "Configuration (bytes):"] ++
    (Hex.rows 32 bytes).map (fun row => StyledLine.of ("    " ++ row)) ++
    [StyledLine.of "\nConfiguration (readable):"] ++
    (Text.boundaryLines text).map (fun row => StyledLine.of ("    " ++ row) "yellow"), ?_⟩
  refine (bind_ok _ _ _).mpr ⟨bytes, (map_error_ok _ _ _).mpr encoded, ?_⟩
  refine (bind_ok _ _ _).mpr ⟨text, (map_error_ok _ _ _).mpr spelt, ?_⟩
  refine (bind_ok _ _ _).mpr ⟨rows, told, congrArg Except.ok ?_⟩
  simp only [List.append_assoc, List.cons_append, List.nil_append]

omit told in
theorem report_forms (lines : List StyledLine) (made : trace.report d = .ok lines) :
    ∃ bytes text, Binary.encodeDefinition d = .ok bytes ∧ d.toText = .ok text := by
  obtain ⟨bytes, encoded, made⟩ := (bind_ok _ _ _).mp made
  obtain ⟨text, spelt, _⟩ := (bind_ok _ _ _).mp made
  exact ⟨bytes, text, (map_error_ok _ _ _).mp encoded, (map_error_ok _ _ _).mp spelt⟩

end Trace

namespace Definition

variable (d : Definition) (blank : CodePoint) (s : State)

theorem begun_shown (begins : d.configuration.startState = .ok s) (seen : blank.isControl = false)
    (word : ∀ c ∈ d.memory.getD [], c.isControl = false) (permissive : Bool) :
    ((made permissive [blank] s).perform d.configuration
      (.start ((d.memory.getD []).map Symbol.char))).machine.Within Symbol.Shown := by
  have char (c : CodePoint) (visible : c.isControl = false) : Symbol.Shown (.char c) :=
    ⟨rfl, List.forall_mem_singleton.mpr visible⟩
  rw [Machine.started d.configuration _ _ s begins]
  refine Machine.loaded_within Symbol.Shown _ _ (char blank seen) fun x mem => ?_
  obtain ⟨c, inside, rfl⟩ := List.mem_map.mp mem
  exact char c (word c inside)

section Shown

variable [Screen] (lawful : Screen.Lawful) (declared : d.blank = some [blank])
  (begins : d.configuration.startState = .ok s)
  (seen : blank.isControl = false) (word : ∀ c ∈ d.memory.getD [], c.isControl = false)
  (outputs : ∀ q ∈ d.configuration.states, ∀ t ∈ q.transitions, t.output.Shown)

include lawful declared begins seen word outputs

theorem traced_rows (plan : TracePlan) (limit : Option Nat) (bound : Nat) (radius : Int)
    (given : plan.numbers = .ok (limit, bound, radius))
    (natural : 0 ≤ radius) :
    let begun := (made plan.permissive [blank] s).perform d.configuration (.start ((d.memory.getD []).map Symbol.char))
    let t := Trace.ofRun d.configuration begun.machine begun.seen limit bound radius
    let dropped := Recent.dropped limit (t.machine.steps + 1)
    d.trace plan = .ok t ∧ ∃ rows, Frame.rowsFrom 0 t.radius t.history = .ok rows ∧
      rows.length = t.machine.steps + 1 - dropped ∧
      ∀ (i : Nat) (l : StyledLine), rows[i]? = some l →
        l.Tells ((Machine.stepped d.configuration)^[dropped + i] begun.machine) radius.toNat i := by
  intro begun t dropped
  have fresh : begun.machine.steps = 0 := by simp only [begun, Machine.started d.configuration _ _ s begins]
  have walk : Machine.stepped d.configuration = Machine.next d.configuration :=
    funext (Machine.stepped_next d.configuration)
  have shown (i : Nat) : ((Machine.stepped d.configuration)^[i] begun.machine).Within Symbol.Shown := by
    rw [walk]
    exact Machine.iterate_within _ d.configuration Symbol.Shown outputs
      (begun_shown d blank s begins seen word plan.permissive) i
  have history : t.history = Recent.last limit ((List.range (t.machine.steps + 1)).map fun i =>
      ((Machine.stepped d.configuration)^[i] begun.machine).frame radius.toNat) := by
    rw [walk, Int.toNat_of_nonneg natural]
    exact Trace.of_run_history d.configuration begun.machine begun.seen limit bound radius fresh
  obtain ⟨rows, made, length, each⟩ := Frame.rows_from_machines lawful radius.toNat (t.machine.steps + 1 - dropped) 0
    (fun i => (Machine.stepped d.configuration)^[dropped + i] begun.machine) fun i => shown (dropped + i)
  rw [← Recent.last_range limit (t.machine.steps + 1) fun i =>
    ((Machine.stepped d.configuration)^[i] begun.machine).frame radius.toNat,
    ← history, Int.toNat_of_nonneg natural] at made
  refine ⟨traced_ok d [blank] s declared begins plan limit bound radius given, rows, made, length, fun i l found => ?_⟩
  have tells := each i l found
  rwa [Nat.zero_add] at tells

/-- Off the rows of a report, which are numbered from nought, the machines after the steps whose
frames were kept are read. They are those of the steps from the first on, unless frames were driven
out. -/
theorem rows_tell_kept_steps (plan : TracePlan) (t : Trace) (came : d.trace plan = .ok t) (natural : 0 ≤ t.radius) :
    ∃ m limit, d.create plan.permissive = .ok m ∧ Quantity.count? plan.historyLimit = .ok limit ∧
      let begun := m.perform d.configuration (.start ((d.memory.getD []).map Symbol.char))
      let dropped := Recent.dropped limit (t.machine.steps + 1)
      ((∀ n, limit = some n → t.machine.steps < n) → dropped = 0) ∧
        ((∃ lines, t.report d = .ok lines) ↔ ∃ bytes text, Binary.encodeDefinition d = .ok bytes ∧
          d.toText = .ok text) ∧
        ∀ lines, t.report d = .ok lines →
          ∃ front rows, lines = front ++ StyledLine.of "History:\n" :: rows ++ [StyledLine.of (dashes 100)] ∧
            rows.length = t.machine.steps + 1 - dropped ∧
            ∀ (i : Nat) (l : StyledLine), rows[i]? = some l →
              l.Tells ((Machine.stepped d.configuration)^[dropped + i] begun.machine) t.radius.toNat i := by
  obtain ⟨⟨limit, bound, radius⟩, given⟩ := trace_numbers d plan t came
  obtain ⟨counted, _, _, _, _⟩ := (plan.numbers_ok limit bound radius).mp given
  have created := create_made d plan.permissive [blank] s declared begins
  have whole := Except.ok.inj (came.symm.trans (traced_ok d [blank] s declared begins plan limit bound radius given))
  have spread : t.radius = radius := by rw [whole, Trace.ofRun]
  rw [spread] at natural
  obtain ⟨_, rows, told, length, tells⟩ :=
    traced_rows d blank s lawful declared begins seen word outputs plan limit bound radius given natural
  rw [← whole] at told length tells
  rw [← spread] at tells
  refine ⟨_, limit, created, counted, fun room => ?_, ⟨?_, ?_⟩, fun lines made => ?_⟩
  · cases limit with
    | none => rfl
    | some n => exact Nat.sub_eq_zero_of_le (room n rfl)
  · rintro ⟨lines, made⟩
    exact t.report_forms d lines made
  · rintro ⟨bytes, text, encoded, spelt⟩
    obtain ⟨front, made⟩ := t.report_made d rows told bytes text encoded spelt
    exact ⟨_, made⟩
  · obtain ⟨bytes, text, encoded, spelt⟩ := t.report_forms d lines made
    obtain ⟨front, same⟩ := t.report_made d rows told bytes text encoded spelt
    exact ⟨front, rows, Except.ok.inj (made.symm.trans same), length, tells⟩

end Shown

def oneMoreStart : State where
  id := 0
  transitions := [⟨0, .right, .text "1", [.text "1"]⟩, ⟨1, .stay, .text "1", [.text "_"]⟩]

def oneMore : Definition where
  configuration := { states := [oneMoreStart, { id := 1, acceptance := .accept }] }
  charset := ["1", "_"]
  blank := some "_"
  memory := some "1"

theorem one_more_has_forms : ∃ bytes text, Binary.encodeDefinition oneMore = .ok bytes ∧ oneMore.toText = .ok text := by
  obtain ⟨bytes, encoded⟩ := is_some_ok (Binary.encodeDefinition oneMore) (by decide +kernel)
  obtain ⟨text, spelt⟩ := is_some_ok oneMore.toText (by decide +kernel)
  exact ⟨bytes, text, encoded, spelt⟩

def oneMorePlan (limit : Int) : TracePlan := { maxSteps := .int 5, radius := .int 1, historyLimit := .int limit }

def oneMoreBegun : Response := (made false "_" oneMoreStart).perform oneMore.configuration (.start [.text "1"])

def oneMoreTrace (limit : Nat) : Trace :=
  .ofRun oneMore.configuration oneMoreBegun.machine oneMoreBegun.seen (some limit) 5 1

theorem one_more_traced (limit : Nat) (counts : Quantity.count? (.int limit) = .ok (some limit)) :
    oneMore.trace (oneMorePlan limit) = .ok (oneMoreTrace limit) :=
  traced_ok oneMore "_" oneMoreStart rfl rfl (oneMorePlan limit) (some limit) 5 1
    (((oneMorePlan limit).numbers_ok _ _ _).mpr ⟨counts, nofun, rfl, rfl, fun _ => rfl⟩)

section Runs

open scoped StandIn

theorem three_rows_tell_two_steps : oneMore.trace (oneMorePlan 10) = .ok (oneMoreTrace 10) ∧
    ∃ front rows, (oneMoreTrace 10).report oneMore =
        .ok (front ++ StyledLine.of "History:\n" :: rows ++ [StyledLine.of (dashes 100)]) ∧
      rows.length = 3 ∧ ∀ (i : Nat) (l : StyledLine), rows[i]? = some l →
        l.Tells ((Machine.stepped oneMore.configuration)^[i] oneMoreBegun.machine) 1 i := by
  have counts : Quantity.count? (.int (10 : Nat)) = .ok (some 10) := by decide +kernel
  have traced := one_more_traced 10 counts
  obtain ⟨m, limit, created, counted, whole, forms, reports⟩ :=
    rows_tell_kept_steps oneMore '_' oneMoreStart StandIn.screen_lawful rfl rfl
      (by decide) (by decide) (by decide +kernel) (oneMorePlan 10) _ traced (by decide)
  cases created
  obtain rfl : some 10 = limit := Except.ok.inj (counts.symm.trans counted)
  have dropped := whole fun n same => by
    cases same
    decide +kernel
  obtain ⟨lines, made⟩ := forms.mpr one_more_has_forms
  obtain ⟨front, rows, rfl, length, tells⟩ := reports lines made
  refine ⟨traced, front, rows, made, ?_, fun i l found => ?_⟩
  · rw [length]
    decide +kernel
  · have told := tells i l found
    rwa [dropped, Nat.zero_add] at told

end Runs

/-- What was claimed of the rows, for symbols that fit and traces that kept enough. -/
def RowsTellSteps (fits : Text → Prop) (kept : Trace → Prop) : Prop :=
  ∀ [Screen], Screen.Lawful → ∀ (d : Definition) (blank : Text) (s : State),
    d.blank = some blank → d.configuration.startState = .ok s →
    fits blank → (∀ q ∈ d.configuration.states, ∀ t ∈ q.transitions, fits t.output.plain) →
    (∀ c ∈ d.memory.getD [], fits [c]) →
      ∀ (plan : TracePlan) (t : Trace) (m : Machine), d.trace plan = .ok t → kept t → 0 ≤ t.radius →
        d.create plan.permissive = .ok m →
        ∀ front rows, t.report d = .ok (front ++ StyledLine.of "History:\n" :: rows ++ [StyledLine.of (dashes 100)]) →
          rows.length = t.history.length → ∀ (i : Nat) (l : StyledLine), rows[i]? = some l →
            l.Tells ((Machine.stepped d.configuration)^[i]
              (m.perform d.configuration (.start ((d.memory.getD []).map Symbol.char))).machine)
              t.radius.toNat i

def shortRow (start : Text) (head : CodePoint) (rest : Text) : StyledLine :=
  { pieces := [⟨start, []⟩, ⟨[head], "red"⟩, ⟨rest, []⟩] }

theorem driven_out_rows_are_later : ¬ RowsTellSteps (·.length = 1) fun _ => True := by
  intro claimed
  have counts : Quantity.count? (.int (2 : Nat)) = .ok (some 2) := by decide +kernel
  have outputs : ∀ q ∈ oneMore.configuration.states, ∀ t ∈ q.transitions, t.output.plain.length = 1 := by decide +kernel
  have told : Frame.rowsFrom 0 (oneMoreTrace 2).radius (oneMoreTrace 2).history =
      .ok [shortRow "[00000000]   0:   .....1" '_' "_.....",
        shortRow "[00000001]   1:   .....1" '1' "_....."] := by decide +kernel
  obtain ⟨bytes, text, encoded, spelt⟩ := one_more_has_forms
  obtain ⟨front, reported⟩ := (oneMoreTrace 2).report_made oneMore _ told bytes text encoded spelt
  obtain ⟨r, read, shows⟩ :=
    @claimed StandIn.screen StandIn.screen_lawful oneMore "_" oneMoreStart rfl rfl rfl outputs (fun _ _ => rfl)
      (oneMorePlan 2) (oneMoreTrace 2) (made false "_" oneMoreStart) (one_more_traced 2 counts) trivial (by decide)
      (create_made oneMore false "_" oneMoreStart rfl rfl) front _ reported (by decide +kernel) 0 _ rfl
  have reading : HistoryRow.read? (@StyledLine.shown StandIn.screen (shortRow "[00000000]   0:   .....1" '_' "_.....")) =
      some ⟨0, 0, "1", '_', "_"⟩ := by decide +kernel
  obtain rfl := Option.some.inj (reading.symm.trans read)
  have head := shows.head
  revert head
  decide +kernel

def unprinted : Definition := { oneMore with blank := some "", memory := some "11" }

def unprintedPlan : TracePlan := { maxSteps := .int 0, radius := .int 1 }

def unprintedTrace : Trace :=
  let begun := (made false "" oneMoreStart).perform unprinted.configuration (.start [.text "1", .text "1"])
  .ofRun unprinted.configuration begun.machine begun.seen (some 10000) 0 1

theorem empty_symbol_moves_the_head : ¬ RowsTellSteps (·.length ≤ 1) fun t => t.machine.steps < t.history.length := by
  intro claimed
  have outputs : ∀ q ∈ unprinted.configuration.states, ∀ t ∈ q.transitions, t.output.plain.length ≤ 1 := by
    decide +kernel
  have traced : unprinted.trace unprintedPlan = .ok unprintedTrace :=
    traced_ok unprinted "" oneMoreStart rfl rfl unprintedPlan (some 10000) 0 1 rfl
  have told : Frame.rowsFrom 0 unprintedTrace.radius unprintedTrace.history =
      .ok [shortRow "[00000000]   0:   .....1" '1' "....."] := by decide +kernel
  obtain ⟨bytes, encoded⟩ := is_some_ok (Binary.encodeDefinition unprinted) (by decide +kernel)
  obtain ⟨text, spelt⟩ := is_some_ok unprinted.toText (by decide +kernel)
  obtain ⟨front, reported⟩ := unprintedTrace.report_made unprinted _ told bytes text encoded spelt
  obtain ⟨r, read, shows⟩ :=
    @claimed StandIn.screen StandIn.screen_lawful unprinted "" oneMoreStart rfl rfl (by decide) outputs
      (fun _ _ => Nat.le_refl 1) unprintedPlan unprintedTrace (made false "" oneMoreStart) traced
      (by decide +kernel) (by decide)
      (create_made unprinted false "" oneMoreStart rfl rfl) front _ reported (by decide +kernel) 0 _ rfl
  have reading : HistoryRow.read? (@StyledLine.shown StandIn.screen (shortRow "[00000000]   0:   .....1" '1' ".....")) =
      some ⟨0, 0, "1", '1', []⟩ := by decide +kernel
  obtain rfl := Option.some.inj (reading.symm.trans read)
  have right := shows.right
  revert right
  decide +kernel

def bell : Definition where
  configuration := { states := [{ id := 0 }] }
  charset := ["\x07", "_"]
  blank := some "_"
  memory := some "\x07"

def bellTrace : Trace :=
  let begun := (made false "_" { id := 0 }).perform bell.configuration (.start [.text "\x07"])
  .ofRun bell.configuration begun.machine begun.seen (some 10000) 0 1

theorem bell_is_not_seen : ¬ RowsTellSteps (·.length = 1) fun t => t.machine.steps < t.history.length := by
  intro claimed
  have outputs : ∀ q ∈ bell.configuration.states, ∀ t ∈ q.transitions, t.output.plain.length = 1 := by decide +kernel
  have traced : bell.trace unprintedPlan = .ok bellTrace :=
    traced_ok bell "_" { id := 0 } rfl rfl unprintedPlan (some 10000) 0 1 rfl
  have told : Frame.rowsFrom 0 bellTrace.radius bellTrace.history =
      .ok [shortRow "[00000000]   0:   ....._" '\x07' "_....."] := by decide +kernel
  obtain ⟨bytes, encoded⟩ := is_some_ok (Binary.encodeDefinition bell) (by decide +kernel)
  obtain ⟨text, spelt⟩ := is_some_ok bell.toText (by decide +kernel)
  obtain ⟨front, reported⟩ := bellTrace.report_made bell _ told bytes text encoded spelt
  obtain ⟨r, read, _⟩ :=
    @claimed StandIn.muffled StandIn.muffled_lawful bell "_" { id := 0 } rfl rfl rfl outputs (fun _ _ => rfl)
      unprintedPlan bellTrace (made false "_" { id := 0 }) traced (by decide +kernel) (by decide)
      (create_made bell false "_" { id := 0 } rfl rfl) front _ reported (by decide +kernel) 0 _ rfl
  have reading : HistoryRow.read?
      (@StyledLine.shown StandIn.muffled (shortRow "[00000000]   0:   ....._" '\x07' "_.....")) = none := by
    decide +kernel
  rw [reading] at read
  cases read

theorem RowsTellSteps.narrow {kept : Trace → Prop} (told : RowsTellSteps (·.length ≤ 1) kept) :
    RowsTellSteps (·.length = 1) kept :=
  fun [Screen] lawful d blank s declared begins single outputs word =>
    told lawful d blank s declared begins (Nat.le_of_eq single)
    (fun q known t among => Nat.le_of_eq (outputs q known t among)) fun c mem => Nat.le_of_eq (word c mem)

theorem rows_need_not_tell_steps : ¬ RowsTellSteps (·.length ≤ 1) (fun _ => True) ∧
    ¬ RowsTellSteps (·.length = 1) (fun _ => True) ∧
    ¬ RowsTellSteps (·.length ≤ 1) (fun t => t.machine.steps < t.history.length) ∧
    ¬ RowsTellSteps (·.length = 1) fun t => t.machine.steps < t.history.length :=
  ⟨fun claimed => driven_out_rows_are_later claimed.narrow, driven_out_rows_are_later,
    empty_symbol_moves_the_head, bell_is_not_seen⟩

end Definition

end TapeMachine
