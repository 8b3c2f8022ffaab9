import TapeMachine.Proofs.BytesToText
import TapeMachine.View.Inspection

set_option autoImplicit false

namespace TapeMachine

def emptyCell : Text := "---"

/-- What a cell says: the symbol that is written, the move, and the id of the state that is entered. -/
def moveCell (written : CodePoint) (action : Action) (target : Nat) : Text :=
  written :: action.capital :: numeral target

theorem numeral_injective (a b : Nat) (same : numeral a = numeral b) : a = b := by
  rw [← numeral_value_numeral a, same, numeral_value_numeral]

theorem move_cell_target (v w : CodePoint) (a b : Action) (m n : Nat)
    (same : moveCell v a m = moveCell w b n) : m = n := by
  obtain ⟨_, rest⟩ := List.cons.inj same
  obtain ⟨_, ids⟩ := List.cons.inj rest
  exact numeral_injective m n ids

theorem move_cell_filled (w : CodePoint) (a : Action) (n : Nat) : moveCell w a n ≠ emptyCell := by
  intro same
  obtain ⟨_, rest⟩ := List.cons.inj same
  obtain ⟨_, id⟩ := List.cons.inj rest
  have digit := numeral_digits n (CodePoint.ofChar '-') (id ▸ List.mem_cons_self)
  exact absurd digit (by decide)

namespace State

variable (s : State) (x : Symbol)

theorem next_none_iff : s.next? x = none ↔ ∀ t ∈ s.transitions, x ∉ t.inputs := by
  simp [next?, Transition.reads]

theorem cell_unread (unread : s.next? x = none) : s.cell x = emptyCell := by
  simp only [cell, unread]
  rfl

theorem cell_read (t : Transition) (written : CodePoint) (first : s.next? x = some t)
    (output : t.output = .char written) :
    s.cell x = moveCell written t.action t.target := by
  simp only [cell, first, output]
  rfl

end State

namespace Machine

/-- A strict machine that stands in a state with a symbol under its head, and has not halted. -/
structure Facing (m : Machine) (s : State) (x : Symbol) : Prop where
  strict : m.permissive = false
  active : m.status = some .active
  state : m.state.id = s.id
  symbol : m.tape.read m.head = x

/-- What a strict machine does where no step is defined: it reads, and rejects where it stands. -/
def refusal (m : Machine) : Response where
  machine := { m with status := some .rejected, steps := m.steps + 1 }
  seen := [.read m.head (m.tape.read m.head), .halted .rejected]

def entered (m : Machine) (written : Symbol) (action : Action) (target : State) : Machine :=
  { m with
    tape := m.tape.write m.head written
    head := m.head + action.offset
    state := target
    status := some (verdict target)
    steps := m.steps + 1 }

variable (c : Configuration) (m : Machine)

theorem perform_refused (strict : m.permissive = false) (stuck : m.Stuck c) : m.perform c .step = m.refusal := by
  obtain ⟨active, undefined⟩ := (stuck_iff c m).mp stuck
  have begun : m.status ≠ none := by simp [stuck.1]
  have after : m.next c = m.refusal.machine := by simp [refusal, next_stuck c m stuck, strict]
  have told : m.seen c = m.refusal.seen := by simp [seen, active, undefined, after, refusal]
  rw [perform, if_neg begun, after, told]
  rfl

theorem perform_entered (active : m.status = some .active) (t : Transition) (target : State)
    (enabled : m.enabled? c = some (t, target)) :
    (m.perform c .step).machine = m.entered t.output t.action target ∧
      .wrote m.head (m.tape.read m.head) t.output ∈ (m.perform c .step).seen := by
  have begun : m.status ≠ none := by simp [active]
  have running : m.isActive = true := by simp [isActive, active]
  rw [perform, if_neg begun]
  simp only [next, seen, running, enabled, if_true]
  exact ⟨rfl, by simp⟩

theorem refusal_writes_nothing (address : Int) (old new : Symbol) : .wrote address old new ∉ m.refusal.seen := by
  simp [refusal]

end Machine

namespace Definition

theorem obtained_control (d : Definition) (obtained : d.Obtained) : d.configuration.WellFormed := by
  cases obtained with
  | text t read => exact (of_lines_written (Text.splitLines t) d read).control
  | lines source read => exact (of_lines_written source d read).control
  | bytes bytes decoded => exact (decoded_control bytes d decoded).1
  | base64 t decoded =>
      obtain ⟨bytes, decoded⟩ := decode_base64_bytes t d decoded
      exact (decoded_control bytes d decoded).1

variable (d : Definition)

/-- What stands in the table for a state and a symbol, each by its place. -/
structure CellAt (row column : Nat) (s : State) (x cell : Text) : Prop where
  state : d.configuration.states[row]? = some s
  symbol : d.charset[column]? = some x
  told : ∃ cells, d.transitionTable[row]? = some (s, cells) ∧ cells[column]? = some cell

theorem cell_at_iff (row column : Nat) (s : State) (x cell : Text) : d.CellAt row column s x cell ↔
    d.configuration.states[row]? = some s ∧ d.charset[column]? = some x ∧ cell = s.cell (.text x) := by
  have row_told (inRow : d.configuration.states[row]? = some s) : d.transitionTable[row]? = some (s, d.cells s) := by
    rw [transitionTable, List.getElem?_map, inRow, Option.map_some]
  have cell_told (inColumn : d.charset[column]? = some x) : (d.cells s)[column]? = some (s.cell (.text x)) := by
    rw [cells, List.getElem?_map, inColumn, Option.map_some]
  constructor
  · rintro ⟨inRow, inColumn, cells, listed, told⟩
    refine ⟨inRow, inColumn, ?_⟩
    rw [row_told inRow, Option.some.injEq, Prod.mk.injEq] at listed
    rw [← listed.2, cell_told inColumn] at told
    exact (Option.some.inj told).symm
  · rintro ⟨inRow, inColumn, rfl⟩
    exact ⟨inRow, inColumn, d.cells s, row_told inRow, cell_told inColumn⟩

/-- A step as a cell tells it: the machine writes the symbol, moves and enters the state. -/
structure Tells (cell : Text) (m : Machine) (x : Symbol) (written : CodePoint) (action : Action)
    (target : State) : Prop where
  cell : cell = moveCell written action target.id
  known : target ∈ d.configuration.states
  after : (m.perform d.configuration .step).machine = m.entered (.char written) action target
  wrote : .wrote m.head x (.char written) ∈ (m.perform d.configuration .step).seen

theorem cell_told (obtained : d.Obtained) (s : State) (known : s ∈ d.configuration.states) (x : Symbol) (t : Transition)
    (first : s.next? x = some t) :
    ∃ written, t.output = .char written ∧ s.cell x = moveCell written t.action t.target := by
  have closed := (obtained_sound d obtained).closed
  obtain ⟨written, output, _⟩ := closed.symbols s known t (List.mem_of_find?_eq_some first) t.output List.mem_cons_self
  exact ⟨written, output, s.cell_read x t written first output⟩

theorem cell_empty_iff (obtained : d.Obtained) (s : State) (known : s ∈ d.configuration.states) (x : Symbol) :
    s.cell x = emptyCell ↔ ∀ t ∈ s.transitions, x ∉ t.inputs := by
  rw [← s.next_none_iff x]
  cases first : s.next? x with
  | none => exact iff_of_true (s.cell_unread x first) rfl
  | some t =>
      obtain ⟨written, _, told⟩ := d.cell_told obtained s known x t first
      rw [told]
      exact iff_of_false (move_cell_filled written t.action t.target) (by simp)

theorem cell_cases (obtained : d.Obtained) (s : State) (known : s ∈ d.configuration.states) (x : Symbol) (m : Machine)
    (facing : m.Facing s x) :
    (s.cell x = emptyCell ∧ m.perform d.configuration .step = m.refusal) ∨
    (∃ written action target, s.cell x = moveCell written action target ∧
      (∀ u ∈ d.configuration.states, u.id ≠ target) ∧
      m.perform d.configuration .step = m.refusal) ∨
    ∃ written action target, d.Tells (s.cell x) m x written action target := by
  have current : d.configuration.find? m.state.id = some s := by
    rw [facing.state]
    exact find_keyed State.id d.configuration.states s (d.obtained_control obtained).ids known
  have running : m.isActive = true := by simp [Machine.isActive, facing.active]
  have refused (undefined : m.enabled? d.configuration = none) : m.perform d.configuration .step = m.refusal :=
    m.perform_refused d.configuration facing.strict ((Machine.stuck_iff _ m).mpr ⟨running, undefined⟩)
  cases first : s.next? x with
  | none => exact .inl ⟨s.cell_unread x first, refused (by simp [Machine.enabled?, current, facing.symbol, first])⟩
  | some t =>
      obtain ⟨written, output, told⟩ := d.cell_told obtained s known x t first
      cases found : d.configuration.find? t.target with
      | none =>
          refine .inr (.inl ⟨written, t.action, t.target, told, ?_, refused ?_⟩)
          · intro u mem same
            have missing := List.find?_eq_none.mp found u mem
            simp [same] at missing
          · simp [Machine.enabled?, current, facing.symbol, first, found]
      | some target =>
          obtain ⟨inside, id⟩ := d.configuration.find_mem t.target target found
          have enabled : m.enabled? d.configuration = some (t, target) := by
            simp [Machine.enabled?, current, facing.symbol, first, found]
          obtain ⟨after, wrote⟩ := m.perform_entered d.configuration facing.active t target enabled
          rw [output] at after wrote
          rw [facing.symbol] at wrote
          refine .inr (.inr ⟨written, t.action, target, ?_, inside, after, wrote⟩)
          rw [told, Int.ofNat_inj.mp id]

theorem tells_taken (cell : Text) (m : Machine) (x : Symbol) (written : CodePoint) (action : Action) (target : State)
    (tells : d.Tells cell m x written action target) : m.perform d.configuration .step ≠ m.refusal := by
  intro refused
  have wrote := tells.wrote
  rw [refused] at wrote
  exact m.refusal_writes_nothing m.head x (.char written) wrote

/-- A cell without a move stands exactly where no transition of the state reads the symbol. A step
is undefined exactly where the cell has no move or names no state; every other step is the one that
the cell tells. -/
theorem cells_tell_steps_up_to_missing_targets (obtained : d.Obtained) (row column : Nat) (s : State) (x : Text)
    (inRow : d.configuration.states[row]? = some s) (inColumn : d.charset[column]? = some x) :
    ∃ cell, d.CellAt row column s x cell ∧
      (cell = emptyCell ↔ ∀ t ∈ s.transitions, .text x ∉ t.inputs) ∧
      ∀ m : Machine, m.Facing s (.text x) →
        (m.perform d.configuration .step = m.refusal ↔ cell = emptyCell ∨
          ∃ written action target, cell = moveCell written action target ∧ ∀ u ∈ d.configuration.states, u.id ≠ target) ∧
        (m.perform d.configuration .step ≠ m.refusal → ∃ written action target, d.Tells cell m
          (.text x) written action target) := by
  have known := List.mem_of_getElem? inRow
  refine ⟨s.cell (.text x), (d.cell_at_iff row column s x _).mpr ⟨inRow, inColumn, rfl⟩,
    d.cell_empty_iff obtained s known _, ?_⟩
  intro m facing
  rcases d.cell_cases obtained s known (.text x) m facing with
    ⟨dashed, refused⟩ | ⟨written, action, target, told, missing, refused⟩ |
    ⟨written, action, target, tells⟩
  · exact ⟨iff_of_true refused (.inl dashed), fun taken => absurd refused taken⟩
  · exact ⟨iff_of_true refused (.inr ⟨written, action, target, told, missing⟩), fun taken => absurd refused taken⟩
  · have taken := d.tells_taken _ m (.text x) written action target tells
    refine ⟨iff_of_false taken ?_, fun _ => ⟨written, action, target, tells⟩⟩
    rintro (dashed | ⟨w, a, id, told, missing⟩)
    · exact move_cell_filled written action target.id (tells.cell.symm.trans dashed)
    · exact missing target tells.known (move_cell_target _ _ _ _ _ _ (tells.cell.symm.trans told))

def crowdedRow : State :=
  ⟨0, .none, [⟨1, .right, .text "b", [.text "a"]⟩, ⟨9, .left, .text "_", [.text "a", .text "b"]⟩]⟩

def crowdedTable : Definition where
  configuration := { states := [crowdedRow, ⟨1, .accept, []⟩] }
  charset := ["a", "b", "_"]
  blank := some "_"

def facingWord (s : State) (word : List Symbol) : Machine where
  tape := (Tape.mk (.text "_") ∅).load 0 word
  permissive := false
  state := s
  status := some .active

theorem crowded_cells_tell_steps :
    let d := crowdedTable
    let step (word : List Symbol) := (facingWord crowdedRow word).perform d.configuration .step
    let refusal (word : List Symbol) := (facingWord crowdedRow word).refusal
    ofText "%charset a b _\n%blank _\n> 0\n1 A\n0 a -> b r 1\n0 ab -> _ l 9" = .ok d ∧
      (d.CellAt 0 0 crowdedRow "a" "bR1" ∧ step [.text "a"] ≠ refusal [.text "a"]) ∧
      (d.CellAt 0 1 crowdedRow "b" "_L9" ∧ step [.text "b"] = refusal [.text "b"]) ∧
      d.CellAt 0 2 crowdedRow "_" "---" ∧ step [] = refusal [] := by
  intro d step refusal
  have read : ofText "%charset a b _\n%blank _\n> 0\n1 A\n0 a -> b r 1\n0 ab -> _ l 9" = .ok d := by decide +kernel
  have obtained : d.Obtained := .text _ read
  have facing (word : List Symbol) (x : Text) (symbol : (facingWord crowdedRow word).tape.read 0 = .text x) :
      (facingWord crowdedRow word).Facing crowdedRow (.text x) := ⟨rfl, rfl, rfl, symbol⟩
  have cell_a : crowdedRow.cell (.text "a") = "bR1" := by decide +kernel
  have cell_b : crowdedRow.cell (.text "b") = "_L9" := by decide +kernel
  obtain ⟨_, at_a, _, steps_a⟩ := cells_tell_steps_up_to_missing_targets d obtained 0 0 crowdedRow "a" rfl rfl
  obtain ⟨_, at_b, _, steps_b⟩ := cells_tell_steps_up_to_missing_targets d obtained 0 1 crowdedRow "b" rfl rfl
  obtain ⟨_, at_blank, _, steps_blank⟩ := cells_tell_steps_up_to_missing_targets d obtained 0 2 crowdedRow "_" rfl rfl
  obtain rfl := ((d.cell_at_iff _ _ _ _ _).mp at_a).2.2
  obtain rfl := ((d.cell_at_iff _ _ _ _ _).mp at_b).2.2
  obtain rfl := ((d.cell_at_iff _ _ _ _ _).mp at_blank).2.2
  rw [cell_a] at at_a steps_a
  rw [cell_b] at at_b steps_b
  refine ⟨read, ⟨at_a, ?_⟩, ⟨at_b, ?_⟩, at_blank, ?_⟩
  · intro refused
    rcases (steps_a _ (facing [.text "a"] "a" rfl)).1.mp refused with dashed | ⟨w, action, id, told, missing⟩
    · exact absurd dashed (by decide)
    · have same : moveCell 'b' .right 1 = moveCell w action id := by
        rw [← told]
        decide +kernel
      exact missing ⟨1, .accept, []⟩ (by decide) (move_cell_target _ _ _ _ _ _ same)
  · exact (steps_b _ (facing [.text "b"] "b" rfl)).1.mpr (.inr ⟨'_', .left, 9, by decide +kernel, by decide⟩)
  · exact (steps_blank _ (facing [] "_" rfl)).1.mpr (.inl rfl)

def TellsSteps : Prop := ∀ row column s x cell, d.CellAt row column s x cell → ∀ m : Machine, m.Facing s (.text x) →
  (cell = emptyCell ↔ m.perform d.configuration .step = m.refusal) ∧
  (cell ≠ emptyCell → ∃ written action target, d.Tells cell m (.text x) written action target)

theorem missing_target_has_a_cell :
    let origin : State := ⟨0, .none, [⟨9, .right, .text "1", [.text "1"]⟩]⟩
    let d : Definition := { configuration := { states := [origin] }, charset := ["1", "_"], blank := some "_" }
    let m := facingWord origin [.text "1"]
    ofText "%charset 1 _\n%blank _\n> 0\n0 1 -> 1 r 9" = .ok d ∧ d.CellAt 0 0 origin "1" "1R9" ∧
      m.Facing origin (.text "1") ∧
      m.perform d.configuration .step = m.refusal ∧ ¬ d.TellsSteps := by
  intro origin d m
  have told : d.CellAt 0 0 origin "1" "1R9" := (d.cell_at_iff _ _ _ _ _).mpr ⟨rfl, rfl, by decide +kernel⟩
  have facing : m.Facing origin (.text "1") := ⟨rfl, rfl, rfl, rfl⟩
  have refused : m.perform d.configuration .step = m.refusal :=
    m.perform_refused d.configuration rfl ((Machine.stuck_iff _ m).mpr ⟨rfl, rfl⟩)
  refine ⟨by decide +kernel, told, facing, refused, ?_⟩
  intro tells
  have dashed := (tells 0 0 origin "1" "1R9" told m facing).1.mpr refused
  exact absurd dashed (by decide)

end Definition

end TapeMachine
