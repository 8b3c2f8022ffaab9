import TapeMachine.Proofs.DefinitionForm
import TapeMachine.Proofs.Policies
import TapeMachine.Proofs.TapeCells
import TapeMachine.Proofs.TextRoundTrip

set_option autoImplicit false

namespace TapeMachine

namespace Definition

/-- The definitions that come from lines, from bytes, or from text that stands for bytes. -/
inductive Obtained (d : Definition) : Prop where
  | text (t : Text) (read : ofText t = .ok d)
  | lines (source : List Text) (read : ofLines source = .ok d)
  | bytes (bytes : Bytes) (decoded : Binary.decodeDefinition bytes = .ok d)
  | base64 (t : Text) (decoded : Binary.decodeBase64 t = .ok d)

theorem decode_base64_bytes (t : Text) (d : Definition) (decoded : Binary.decodeBase64 t = .ok d) :
    ∃ bytes, Binary.decodeDefinition bytes = .ok d := by
  rw [Binary.decodeBase64] at decoded
  split at decoded
  · split at decoded
    · cases decoded
    · rename_i bytes _
      split at decoded
      · cases decoded
      · rename_i found same
        cases decoded
        exact ⟨bytes, same⟩
  · cases decoded

structure Sound (d : Definition) : Prop where
  closed : d.Closed
  start : ∃ id, d.configuration.start = Label.ofId id

theorem decoded_sound (bytes : Bytes) (d : Definition) (decoded : Binary.decodeDefinition bytes = .ok d) : d.Sound := by
  obtain ⟨r, _, _, rfl, covered⟩ := (Binary.definition_form_decode bytes d).mp decoded
  refine ⟨⟨covered, ?_, ?_⟩, r.start, rfl⟩
  · intro t mem
    obtain ⟨c, _, rfl⟩ := List.mem_map.mp mem
    exact ⟨c, rfl⟩
  · exact (first_seen_nodup r.charset).map fun _ _ same => List.singleton_inj.mp same

theorem obtained_sound (d : Definition) (obtained : d.Obtained) : d.Sound := by
  have written (source : List Text) (read : ofLines source = .ok d) : d.Sound := by
    have written := of_lines_written source d read
    obtain ⟨id, start, _⟩ := written.start
    exact ⟨written.closed, id, start⟩
  cases obtained with
  | text t read => exact written (Text.splitLines t) read
  | lines source read => exact written source read
  | bytes bytes decoded => exact decoded_sound bytes d decoded
  | base64 t decoded =>
      obtain ⟨bytes, decoded⟩ := decode_base64_bytes t d decoded
      exact decoded_sound bytes d decoded

/-- What makes a word unfit for a definition. -/
def Foreign (d : Definition) (word : Text) : Prop := d.blank = none ∨ ∃ c ∈ word, [c] ∉ d.charset

/-- The start label names no state. -/
def Lost (d : Definition) : Prop := ∀ s ∈ d.configuration.states, d.configuration.start ≠ Label.ofId s.id

theorem foreign_inputs_nil_iff (d : Definition) (word : Text) :
    d.foreignInputs word = [] ↔ ∀ c ∈ word, [c] ∈ d.charset := by
  rw [foreignInputs, Binary.sorted_nil_iff, first_seen_eq_nil_iff, List.map_eq_nil_iff, List.filter_eq_nil_iff]
  simp [declares]

theorem start_state_cases (d : Definition) (sound : d.Sound) :
    (∃ s, d.configuration.startState = .ok s ∧ ¬ d.Lost) ∨
      (d.configuration.startState = .error (.noState d.configuration.start) ∧ d.Lost) := by
  obtain ⟨id, start⟩ := sound.start
  rw [Configuration.startState, start, Configuration.get_id]
  cases found : d.configuration.find? id with
  | some s =>
      obtain ⟨known, same⟩ := d.configuration.find_mem id s found
      refine .inl ⟨s, rfl, fun lost => lost s known ?_⟩
      rw [start, Int.ofNat_inj.mp same]
  | none =>
      refine .inr ⟨rfl, ?_⟩
      intro s known same
      rw [start, Label.ofId, Label.ofId, Json.int.injEq, Int.ofNat_inj] at same
      have named := (Configuration.find_some_iff d.configuration id).mpr (List.mem_map.mpr ⟨s, known, same.symm⟩)
      rw [found] at named
      cases named

def failure? : Except RunFault Entry → Option FaultKind
  | .ok _ => none
  | .error fault => some (Fault.ofRun fault).kind

def Declared (d : Definition) (x : Symbol) : Prop := ∃ c, x = .char c ∧ [c] ∈ d.charset

variable (d : Definition) (word : Text) (bound : Json) (permissive : Bool)

theorem foreign_run (foreign : d.Foreign word) : failure? (d.runInput word bound permissive) = some .badValue := by
  rw [run_input_prepared, prepared]
  cases blank : d.blank with
  | none => rfl
  | some b =>
      cases symbols : d.foreignInputs word with
      | cons symbol others => rfl
      | nil =>
          obtain ⟨c, inside, outside⟩ := foreign.resolve_left (by simp [blank])
          exact absurd ((foreign_inputs_nil_iff d word).mp symbols c inside) outside

theorem fit_word (fit : ¬ d.Foreign word) : (∃ blank, d.blank = some blank) ∧ ∀ c ∈ word, [c] ∈ d.charset := by
  obtain ⟨marked, inside⟩ := not_or.mp fit
  refine ⟨Option.ne_none_iff_exists'.mp marked, ?_⟩
  intro c mem
  by_contra outside
  exact inside ⟨c, mem, outside⟩

theorem lost_run (sound : d.Sound) (fit : ¬ d.Foreign word) (lost : d.Lost) :
    failure? (d.runInput word bound permissive) = some .unknownState := by
  obtain ⟨⟨blank, marked⟩, inside⟩ := d.fit_word word fit
  have missing := ((start_state_cases d sound).resolve_left fun ⟨_, _, found⟩ => found lost).1
  rw [run_input_prepared, prepared, marked, (foreign_inputs_nil_iff d word).mpr inside, missing]
  rfl

theorem found_run (sound : d.Sound) (fit : ¬ d.Foreign word) (found : ¬ d.Lost) :
    ∃ blank s, d.blank = some blank ∧ d.configuration.startState = .ok s ∧
      d.runInput word bound permissive = ((Quantity.stepBound bound).mapError RunFault.quantity).bind fun steps =>
        concluded word ((Machine.next d.configuration)^[steps] (inscribedMachine blank s permissive word)) := by
  obtain ⟨⟨blank, marked⟩, inside⟩ := d.fit_word word fit
  obtain ⟨s, begins, _⟩ := (start_state_cases d sound).resolve_right fun ⟨_, lost⟩ => found lost
  refine ⟨blank, s, marked, begins, ?_⟩
  rw [run_input_prepared, prepared, marked, (foreign_inputs_nil_iff d word).mpr inside, begins]
  cases Quantity.stepBound bound with
  | error fault => rfl
  | ok steps => exact congrArg (concluded word) (Machine.run_iterate d.configuration _ steps)

theorem blank_declared (sound : d.Sound) (blank : Text) (marked : d.blank = some blank) : d.Declared (.text blank) := by
  obtain ⟨c, rfl⟩ := sound.closed.single blank (sound.closed.blank blank marked)
  exact ⟨c, rfl, sound.closed.blank [c] marked⟩

theorem iterate_declared (sound : d.Sound) (blank : Text) (marked : d.blank = some blank) (s : State)
    (inside : ∀ c ∈ word, [c] ∈ d.charset) (n : Nat) :
    ((Machine.next d.configuration)^[n] (inscribedMachine blank s permissive word)).Within d.Declared := by
  rw [← Machine.run_iterate]
  apply Machine.run_within
  · intro u known t mem
    exact sound.closed.symbols u known t mem t.output List.mem_cons_self
  · apply Machine.loaded_within
    · exact d.blank_declared sound blank marked
    · intro x mem
      obtain ⟨c, within, rfl⟩ := List.mem_map.mp mem
      exact ⟨c, rfl, inside c within⟩

theorem iterate_blank_sparse (blank : Text) (s : State) (n : Nat) :
    let m := (Machine.next d.configuration)^[n] (inscribedMachine blank s permissive word)
    m.tape.blank = .text blank ∧ m.tape.Sparse := by
  refine ⟨?_, ?_⟩
  · rw [Machine.iterate_blank]
    exact Tape.load_blank (Tape.mk (.text blank) ∅).clear 0 (word.map Symbol.char)
  · apply Machine.iterate_sparse
    exact Tape.load_sparse _ 0 _ (Tape.clear_sparse ⟨.text blank, ∅⟩)

theorem concluded_declared (m : Machine) (within : m.Within d.Declared) (sparse : m.tape.Sparse) :
    ∃ tape : Text, concluded word m = .ok ⟨word, m.status.getD .active, m.steps, m.head, m.state.id, tape⟩ ∧
      (∀ c ∈ tape, [c] ∈ d.charset) ∧
      (tape = [] ∨ ∃ first last, tape.head? = some first ∧ tape.getLast? = some last ∧
        .char first ≠ m.tape.blank ∧ .char last ≠ m.tape.blank) := by
  have declared : ∀ x ∈ m.tape.dense, d.Declared x := by
    intro x mem
    obtain ⟨address, _, rfl⟩ := List.mem_map.mp mem
    exact within address
  obtain ⟨tape, spelled, inside⟩ := chars_of_texts d.charset m.tape.dense declared
  refine ⟨tape, ?_, inside, ?_⟩
  · rw [concluded, joinSymbols, spelled, join_chars]
    rfl
  · rcases m.tape.dense_ends sparse with empty | ⟨first, last, starts, ends, visible, visibleLast⟩
    · rw [spelled, List.map_eq_nil_iff] at empty
      exact .inl empty
    · rw [spelled, List.head?_map, Option.map_eq_some_iff] at starts
      rw [spelled, List.getLast?_map, Option.map_eq_some_iff] at ends
      obtain ⟨c, head, rfl⟩ := starts
      obtain ⟨e, tail, rfl⟩ := ends
      exact .inr ⟨c, e, head, tail, visible, visibleLast⟩

theorem created_inscribed (blank : Text) (m : Machine)
    (created : Machine.create d.configuration (.text blank) permissive = .ok m) :
    ∃ s, (m.perform d.configuration (.start (word.map Symbol.char))).machine =
      inscribedMachine blank s permissive word := by
  obtain ⟨s, begins, done⟩ := (bind_ok _ _ _).mp created
  cases done
  exact ⟨s, by rw [Machine.started d.configuration _ _ s begins]; rfl⟩

theorem reached_declared (sound : d.Sound) (fit : ¬ d.Foreign word) (blank : Text) (m : Machine)
    (marked : d.blank = some blank)
    (created : Machine.create d.configuration (.text blank) permissive = .ok m) (n : Nat) (address : Int) (x : Symbol)
    (kept : ((Machine.stepped d.configuration)^[n]
      (m.perform d.configuration (.start (word.map Symbol.char))).machine).tape.cells[address]? = some x) :
    x ≠ .text blank ∧ d.Declared x := by
  have walk : Machine.stepped d.configuration = Machine.next d.configuration :=
    funext (Machine.stepped_next d.configuration)
  obtain ⟨s, begun⟩ := d.created_inscribed word permissive blank m created
  rw [walk, begun] at kept
  obtain ⟨base, sparse⟩ := d.iterate_blank_sparse word permissive blank s n
  have within := d.iterate_declared word permissive sound blank marked s (d.fit_word word fit).2 n address
  rw [Tape.read, kept] at within
  refine ⟨fun same => sparse address ?_, within⟩
  rw [kept, same, base]

theorem found_outcome (sound : d.Sound) (fit : ¬ d.Foreign word) (found : ¬ d.Lost) :
    (∃ fault, Quantity.stepBound bound = .error fault ∧ d.runInput word bound permissive = .error (.quantity fault)) ∨
    ∃ steps blank entry, Quantity.stepBound bound = .ok steps ∧ d.blank = some blank ∧
      d.runInput word bound permissive = .ok entry ∧
      (∀ c ∈ entry.tape, [c] ∈ d.charset) ∧
      (entry.tape = [] ∨ ∃ first last, entry.tape.head? = some first ∧ entry.tape.getLast? = some last ∧
        [first] ≠ blank ∧ [last] ≠ blank) := by
  obtain ⟨blank, s, marked, _, ran⟩ := d.found_run word bound permissive sound fit found
  cases bounded : Quantity.stepBound bound with
  | error fault => exact .inl ⟨fault, rfl, by rw [ran, bounded]; rfl⟩
  | ok steps =>
      obtain ⟨base, sparse⟩ := d.iterate_blank_sparse word permissive blank s steps
      have within := d.iterate_declared word permissive sound blank marked s (d.fit_word word fit).2 steps
      obtain ⟨tape, told, inside, ends⟩ := d.concluded_declared word _ within sparse
      refine .inr ⟨steps, blank, _, rfl, marked, by rw [ran, bounded]; exact told, inside, ends.imp_right ?_⟩
      intro ⟨first, last, head, tail, visible, visibleLast⟩
      rw [base] at visible visibleLast
      exact ⟨first, last, head, tail, fun same => visible (congrArg Symbol.text same),
        fun same => visibleLast (congrArg Symbol.text same)⟩

theorem returned_iff (outcome : Except RunFault Entry) : (∃ entry, outcome = .ok entry) ↔ failure? outcome = none := by
  cases outcome with
  | error fault => simp [failure?]
  | ok entry => simp [failure?]

theorem failure_cases (sound : d.Sound) :
    let failure := failure? (d.runInput word bound permissive)
    (d.Foreign word ∧ failure = some .badValue) ∨
    (¬ d.Foreign word ∧ d.Lost ∧ failure = some .unknownState) ∨
    (¬ d.Foreign word ∧ ¬ d.Lost ∧ (¬ ∃ steps, Quantity.stepBound bound = .ok steps) ∧ failure = some .badType) ∨
    (¬ d.Foreign word ∧ ¬ d.Lost ∧ (∃ steps, Quantity.stepBound bound = .ok steps) ∧ failure = none) := by
  intro failure
  by_cases foreign : d.Foreign word
  · exact .inl ⟨foreign, d.foreign_run word bound permissive foreign⟩
  · by_cases lost : d.Lost
    · exact .inr (.inl ⟨foreign, lost, d.lost_run word bound permissive sound foreign lost⟩)
    · rcases d.found_outcome word bound permissive sound foreign lost with
        ⟨fault, failed, ran⟩ | ⟨steps, _, entry, bounded, _, ran, _⟩
      · refine .inr (.inr (.inl ⟨foreign, lost, by simp [failed], ?_⟩))
        simp only [failure, ran, failure?, step_bound_kind bound fault failed]
      · refine .inr (.inr (.inr ⟨foreign, lost, ⟨steps, bounded⟩, ?_⟩))
        simp only [failure, ran, failure?]

/-- A definition that was read uses its charset only. A run on a word is refused as a bad value
exactly if there is no blank or a symbol is foreign, and for a missing state exactly if it is not
and the start is no state; otherwise it has an entry, if the bound is a number. All cells hold
declared symbols but the blank, and the tape of the entry begins and ends with one. -/
theorem obtained_definition_keeps_to_its_charset (obtained : d.Obtained) :
    d.Closed ∧ ∀ (word : Text) (bound : Json) (permissive : Bool),
      let outcome := d.runInput word bound permissive
      (failure? outcome = some .badValue ↔ d.Foreign word) ∧
      (failure? outcome = some .unknownState ↔ ¬ d.Foreign word ∧ d.Lost) ∧
      ((∃ entry, outcome = .ok entry) ↔ ¬ d.Foreign word ∧ ¬ d.Lost ∧ ∃ steps, Quantity.stepBound bound = .ok steps) ∧
      (¬ d.Foreign word → ∀ blank m, d.blank = some blank → Machine.create d.configuration
        (.text blank) permissive = .ok m →
        ∀ n address x, ((Machine.stepped d.configuration)^[n]
            (m.perform d.configuration (.start (word.map Symbol.char))).machine).tape.cells[(address : Int)]? = some x →
          x ≠ .text blank ∧ d.Declared x) ∧
      ∀ entry, outcome = .ok entry → (∀ c ∈ entry.tape, [c] ∈ d.charset) ∧
        (entry.tape = [] ∨ ∃ first last, entry.tape.head? = some first ∧ entry.tape.getLast? = some last ∧
          d.blank ≠ some [first] ∧ d.blank ≠ some [last]) := by
  have sound := obtained_sound d obtained
  refine ⟨sound.closed, ?_⟩
  intro word bound permissive outcome
  have ways := d.failure_cases word bound permissive sound
  refine ⟨?_, ?_, ?_, d.reached_declared word permissive sound, ?_⟩
  · rcases ways with ⟨foreign, failed⟩ | ⟨fit, _, failed⟩ | ⟨fit, _, _, failed⟩ | ⟨fit, _, _, failed⟩
    · exact iff_of_true failed foreign
    all_goals exact iff_of_false (by rw [failed]; decide) fit
  · rcases ways with ⟨foreign, failed⟩ | ⟨fit, lost, failed⟩ | ⟨_, found, _, failed⟩ | ⟨_, found, _, failed⟩
    · exact iff_of_false (by rw [failed]; decide) fun both => both.1 foreign
    · exact iff_of_true failed ⟨fit, lost⟩
    all_goals exact iff_of_false (by rw [failed]; decide) fun both => found both.2
  · rw [returned_iff]
    rcases ways with ⟨foreign, failed⟩ | ⟨_, lost, failed⟩ | ⟨_, _, endless, failed⟩ | ⟨fit, found, bounded, failed⟩
    · exact iff_of_false (by rw [failed]; decide) fun all => all.1 foreign
    · exact iff_of_false (by rw [failed]; decide) fun all => all.2.1 lost
    · exact iff_of_false (by rw [failed]; decide) fun all => endless all.2.2
    · exact iff_of_true failed ⟨fit, found, bounded⟩
  · intro entry ran
    have through := (returned_iff outcome).mp ⟨entry, ran⟩
    obtain ⟨fit, found⟩ : ¬ d.Foreign word ∧ ¬ d.Lost := by
      rcases ways with ⟨_, failed⟩ | ⟨_, _, failed⟩ | ⟨_, _, _, failed⟩ | ⟨fit, found, _, _⟩
      · cases failed.symm.trans through
      · cases failed.symm.trans through
      · cases failed.symm.trans through
      · exact ⟨fit, found⟩
    rcases d.found_outcome word bound permissive sound fit found with
      ⟨fault, _, refused⟩ | ⟨_, blank, _, _, marked, returned, inside, ends⟩
    · cases refused.symm.trans ran
    · cases returned.symm.trans ran
      refine ⟨inside, ends.imp_right ?_⟩
      intro ⟨first, last, head, tail, visible, visibleLast⟩
      rw [marked]
      exact ⟨first, last, head, tail, fun same => visible (Option.some.inj same).symm,
        fun same => visibleLast (Option.some.inj same).symm⟩

theorem erasing_definition_keeps_to_its_charset :
    let t : Text := "%charset a b _\n%blank _\n> 5\n7 A\n5 b -> _ r 5\n5 a -> b l 7"
    let d : Definition := {
      configuration := {
        states := [⟨5, .none, [⟨5, .right, .text "_", [.text "b"]⟩, ⟨7, .left, .text "b", [.text "a"]⟩]⟩,
          ⟨7, .accept, []⟩]
        start := Label.ofId 5 }
      charset := ["a", "b", "_"]
      blank := some "_" }
    let run (word : Text) := d.runInput word (.int 8) false
    ofText t = .ok d ∧ d.Closed ∧ d.Foreign "bax" ∧ failure? (run "bax") = some .badValue ∧
      ¬ d.Foreign "ba" ∧ ¬ d.Lost ∧
      ∃ entry, run "ba" = .ok entry ∧ entry.tape = "b" ∧ (∀ c ∈ entry.tape, [c] ∈ d.charset) := by
  intro t d run
  have read : ofText t = .ok d := by decide +kernel
  obtain ⟨closed, runs⟩ := obtained_definition_keeps_to_its_charset d (.text t read)
  have foreign : d.Foreign "bax" := .inr ⟨CodePoint.ofChar 'x', by decide, by decide⟩
  have told : ∃ entry, run "ba" = .ok entry ∧ entry.tape = "b" := ⟨_, rfl, rfl⟩
  obtain ⟨entry, ran, tape⟩ := told
  obtain ⟨_, _, returned, _, ends⟩ := runs "ba" (.int 8) false
  obtain ⟨fit, found, _⟩ := returned.mp ⟨entry, ran⟩
  exact ⟨read, closed, foreign, (runs "bax" (.int 8) false).1.mpr foreign, fit, found, entry, ran,
    tape, (ends entry ran).1⟩

end Definition

end TapeMachine
