import TapeMachine.Pool.Simulation
import TapeMachine.Proofs.JsonText
import TapeMachine.Proofs.Meaning
import TapeMachine.Proofs.TotalTape

set_option autoImplicit false

namespace TapeMachine

namespace Machine

def Within (p : Symbol → Prop) (m : Machine) : Prop := ∀ address, p (m.tape.read address)

variable (c : Configuration) (p : Symbol → Prop)

theorem enabled_leaves (m : Machine) (t : Transition) (target : State) (enabled : m.enabled? c = some (t, target)) :
    ∃ s ∈ c.states, t ∈ s.transitions := by
  simp only [enabled?, Option.bind_eq_bind, Option.bind_eq_some_iff, Option.pure_def, Option.some.injEq,
    Prod.mk.injEq] at enabled
  obtain ⟨s, found, u, chosen, v, _, rfl, _⟩ := enabled
  exact ⟨s, List.mem_of_find?_eq_some found, List.mem_of_find?_eq_some chosen⟩

theorem next_within (m : Machine) (written : ∀ s ∈ c.states, ∀ t ∈ s.transitions, p t.output) (within : m.Within p) :
    (m.next c).Within p := by
  rw [next]
  split
  · split
    · rename_i t target enabled
      obtain ⟨s, known, mem⟩ := enabled_leaves c m t target enabled
      intro address
      rw [Tape.read_write]
      split
      · exact written s known t mem
      · exact within address
    · exact within
  · exact within

theorem run_within (bound : Nat) (m : Machine) (written : ∀ s ∈ c.states, ∀ t ∈ s.transitions, p t.output)
    (within : m.Within p) : (m.run c bound).Within p := by
  induction bound generalizing m with
  | zero => exact within
  | succ bound ih =>
      rw [run]
      split
      · exact ih (m.next c) (next_within c p m written within)
      · exact within

theorem loaded_within (t : Tape) (word : List Symbol) (blank : p t.blank) (each : ∀ x ∈ word, p x) (address : Int) :
    p ((t.clear.load 0 word).read address) := by
  rw [Tape.read_load_clear, TotalMachine.inscribed]
  split
  · cases found : word[address.toNat]? with
    | none => exact blank
    | some x => exact each x (List.mem_of_getElem? found)
  · exact blank

end Machine

def Symbol.Scalar (x : Symbol) : Prop := ∃ t, x = .text t ∧ t.Scalar

theorem join_symbols_scalar (index : Nat) (symbols : List Symbol) (each : ∀ x ∈ symbols, x.Scalar) :
    ∃ t, joinSymbolsFrom index symbols = .ok t ∧ t.Scalar := by
  induction symbols generalizing index with
  | nil => exact ⟨[], rfl, by simp [Text.Scalar]⟩
  | cons x rest ih =>
      obtain ⟨t, rfl, first⟩ := each x List.mem_cons_self
      obtain ⟨others, joined, scalar⟩ := ih (index + 1) fun y mem => each y (List.mem_cons_of_mem _ mem)
      exact ⟨t ++ others, by rw [joinSymbolsFrom, joined]; rfl, (Text.scalar_append t others).mpr ⟨first, scalar⟩⟩

@[simp] theorem mem_sorted (t : Text) (ts : List Text) : t ∈ Text.sorted ts ↔ t ∈ ts := by
  have placed (u : Text) (us : List Text) : t ∈ Text.place u us ↔ t = u ∨ t ∈ us := by
    induction us with
    | nil => simp [Text.place]
    | cons v vs ih =>
        rw [Text.place]
        split
        · simp
        · simp only [List.mem_cons, ih]
          exact or_left_comm
  induction ts with
  | nil => rfl
  | cons u us ih => exact (placed u (Text.sorted us)).trans ((or_congr Iff.rfl ih).trans List.mem_cons.symm)

namespace Definition

structure Clean (d : Definition) : Prop where
  written : d.Written
  scalar : ∀ t ∈ d.charset, t.Scalar

theorem read_symbols (t : Text) (line : Line) (read : Line.read? t = some line) : line.symbols ⊆ t := by
  cases Line.read_form t line read with
  | charset word gap rest _ _ _ _ =>
      intro c mem
      obtain ⟨w, found, first⟩ := List.mem_filterMap.mp mem
      have inside := Text.words_subset rest w found (List.mem_of_head? first)
      exact List.mem_append_right word (List.mem_append_right gap inside)
  | _ => simp [Line.symbols]

theorem clean_of_text (t : Text) (d : Definition) (read : ofText t = .ok d) (scalar : t.Scalar) : d.Clean where
  written := of_lines_written (Text.splitLines t) d read
  scalar := by
    obtain ⟨lines, reads, rfl⟩ := of_lines_meaning (Text.splitLines t) d read
    intro symbol mem
    obtain ⟨c, declared, rfl⟩ := List.mem_map.mp mem
    obtain ⟨line, listed, inside⟩ := List.mem_flatMap.mp ((mem_first_seen c _).mp declared)
    have formed : some line ∈ (Text.splitLines t).map fun raw => Line.read? (Line.trimmed raw) := by
      rw [reads]
      exact List.mem_map_of_mem listed
    obtain ⟨raw, source, read⟩ := List.mem_map.mp formed
    have shown := Text.trim_subset _ (read_symbols _ line read inside)
    obtain ⟨e, given, became⟩ := List.mem_map.mp shown
    have kept := Text.split_lines_scalar t scalar raw source e given
    have point : c.isSurrogate = false := by
      split at became
      · rw [← became]
        decide
      · rwa [← became]
    exact List.forall_mem_singleton.mpr point

variable (d : Definition) (clean : d.Clean)

include clean

theorem clean_blank (blank : Text) (declared : d.blank = some blank) : blank.Scalar :=
  clean.scalar blank (clean.written.closed.blank blank declared)

theorem clean_outputs (s : State) (known : s ∈ d.configuration.states) (t : Transition)
    (mem : t ∈ s.transitions) : t.output.Scalar := by
  obtain ⟨c, shape, declared⟩ := clean.written.closed.symbols s known t mem t.output List.mem_cons_self
  exact ⟨[c], shape, clean.scalar [c] declared⟩

theorem clean_start (fault : LookupFault) (failed : d.configuration.startState = .error fault) :
    fault.message.Scalar := by
  obtain ⟨id, named, _⟩ := clean.written.start
  have missed : fault = .noState (Label.ofId id) := by
    have key : Json.isKey (Label.ofId id) = true := rfl
    rw [Configuration.startState, named, Configuration.get, Configuration.named?, if_pos key] at failed
    cases found : (Label.ofId id).id?.bind d.configuration.find? with
    | none =>
        rw [found] at failed
        cases failed
        rfl
    | some s =>
        rw [found] at failed
        cases failed
  have label : (Label.ofId id).plain.Scalar := Text.signed_numeral_scalar id
  rw [missed, LookupFault.message]
  exact (Text.scalar_append _ _).mpr ⟨(Text.scalar_append _ _).mpr ⟨by decide, label⟩, by decide⟩

omit clean in
theorem foreign_inputs_subset (word symbol : Text) (mem : symbol ∈ d.foreignInputs word) : symbol ⊆ word := by
  have listed := (mem_sorted symbol _).mp mem
  obtain ⟨c, inside, rfl⟩ := List.mem_map.mp ((mem_first_seen symbol _).mp listed)
  simpa using List.mem_of_mem_filter inside

def inscribedMachine (blank : Text) (s : State) (permissive : Bool) (word : Text) : Machine where
  tape := (Tape.mk (.text blank) ∅).clear.load 0 (word.map Symbol.char)
  permissive := permissive
  state := s
  status := some .active

def prepared (word : Text) (bound : Json) : Except RunFault (Text × State × Nat) :=
  match d.blank with
  | none => .error .noBlank
  | some blank =>
    match d.foreignInputs word with
    | [] =>
      match d.configuration.startState with
      | .error fault => .error (.lookup fault)
      | .ok s =>
        match Quantity.stepBound bound with
        | .error fault => .error (.quantity fault)
        | .ok steps => .ok (blank, s, steps)
    | symbols => .error (.foreignInput word symbols)

def concluded (word : Text) (m : Machine) : Except RunFault Entry :=
  ((joinSymbols m.tape.dense).mapError RunFault.notText).map fun tape => ⟨word, m.status.getD .active,
    m.steps, m.head, m.state.id, tape⟩

omit clean in
theorem run_input_prepared (word : Text) (bound : Json) (permissive : Bool) :
    d.runInput word bound permissive = (d.prepared word bound).bind fun (blank, s, steps) =>
      concluded word ((inscribedMachine blank s permissive word).run d.configuration steps) := by
  cases blank : d.blank with
  | none => simp [runInput, prepared, blank]
  | some b =>
      cases foreign : d.foreignInputs word with
      | cons symbol others =>
          simp [runInput, prepared, blank, foreign]
      | nil =>
          cases begins : d.configuration.startState with
          | error fault =>
              simp [runInput, prepared, blank, foreign, Machine.create, begins, lifted]
          | ok s =>
              have ready : d.runInput word bound permissive =
                (Quantity.stepBound bound).mapError RunFault.quantity >>= fun steps =>
                  let m := (inscribedMachine b s permissive word).run d.configuration steps
                  (joinSymbols m.tape.dense).mapError RunFault.notText >>= fun tape =>
                    .ok ⟨word, m.status.getD .active, m.steps, m.head, m.state.id, tape⟩ := by
                simp [runInput, blank, foreign, Machine.create, Machine.start, Machine.reset, begins,
                  lifted, inscribedMachine]
              rw [ready, prepared, blank, foreign, begins]
              cases Quantity.stepBound bound with
              | error fault => rfl
              | ok steps =>
                  simp only [ok_map_error, ok_bind, ok_bound, concluded]
                  cases joinSymbols
                    ((inscribedMachine b s permissive word).run d.configuration steps).tape.dense <;> rfl

omit clean in
theorem run_input_cases (word : Text) (bound : Json) (permissive : Bool) (outcome : Except RunFault Entry)
    (ran : d.runInput word bound permissive = outcome) :
    (d.blank = none ∧ outcome = .error .noBlank) ∨
    (outcome = .error (.foreignInput word (d.foreignInputs word))) ∨
    (∃ fault, d.configuration.startState = .error fault ∧ outcome = .error (.lookup fault)) ∨
    (∃ fault, Quantity.stepBound bound = .error fault ∧ outcome = .error (.quantity fault)) ∨
    ∃ blank s steps, d.blank = some blank ∧ d.foreignInputs word = [] ∧ d.configuration.startState = .ok s ∧
      Quantity.stepBound bound = .ok steps ∧
      let m := (inscribedMachine blank s permissive word).run d.configuration steps
      outcome = ((joinSymbols m.tape.dense).mapError RunFault.notText).map fun tape =>
        ⟨word, m.status.getD .active, m.steps, m.head, m.state.id, tape⟩ := by
  rw [run_input_prepared, prepared] at ran
  subst ran
  cases blank : d.blank with
  | none => exact .inl ⟨rfl, rfl⟩
  | some b =>
      right
      cases foreign : d.foreignInputs word with
      | cons symbol others => exact .inl rfl
      | nil =>
          right
          cases begins : d.configuration.startState with
          | error fault => exact .inl ⟨fault, rfl, rfl⟩
          | ok s =>
              right
              cases bounded : Quantity.stepBound bound with
              | error fault => exact .inl ⟨fault, rfl, rfl⟩
              | ok steps => exact .inr ⟨b, s, steps, rfl, rfl, rfl, rfl, rfl⟩

theorem clean_run_joins (blank : Text) (s : State) (permissive : Bool) (word : Text) (steps : Nat)
    (declared : d.blank = some blank)
    (scalar : word.Scalar) :
    ∃ t, joinSymbols ((inscribedMachine blank s permissive word).run d.configuration steps).tape.dense =
      .ok t ∧ t.Scalar := by
  have marked : (inscribedMachine blank s permissive word).Within Symbol.Scalar := by
    refine Machine.loaded_within Symbol.Scalar _ _ ⟨blank, rfl, clean_blank d clean blank declared⟩ ?_
    intro x mem
    obtain ⟨c, inside, rfl⟩ := List.mem_map.mp mem
    exact ⟨[c], rfl, List.forall_mem_singleton.mpr (scalar c inside)⟩
  have left := Machine.run_within d.configuration Symbol.Scalar steps _ (clean_outputs d clean) marked
  apply join_symbols_scalar
  intro x mem
  obtain ⟨address, _, rfl⟩ := List.mem_map.mp mem
  exact left address

end Definition

/-- A result that can be read again as soon as its numbers have a text. -/
def WordResult.Scalar : WordResult → Prop
  | .decided entry => entry.input.Scalar ∧ entry.tape.Scalar
  | .failed input fault => input.Scalar ∧ fault.message.Scalar

def WordResult.input : WordResult → Text
  | .decided entry => entry.input
  | .failed input _ => input

theorem foreign_message_scalar (word : Text) (symbols : List Text) (scalar : word.Scalar)
    (parts : ∀ symbol ∈ symbols, symbol ⊆ word) :
    (RunFault.foreignInput word symbols).message.Scalar := by
  have listed : (quotedList symbols).Scalar := by
    have each : ∀ part ∈ symbols.map Text.quoted, part.Scalar := by
      intro part mem
      obtain ⟨symbol, found, rfl⟩ := List.mem_map.mp mem
      exact Text.quoted_scalar symbol (Text.scalar_subset symbol word (parts symbol found) scalar)
    exact (Text.scalar_append _ _).mpr
      ⟨(Text.scalar_append _ _).mpr ⟨by decide, Text.scalar_join _ _ (by decide) each⟩, by decide⟩
  simp only [RunFault.message, Text.scalar_append]
  exact ⟨⟨⟨by decide, Text.quoted_scalar word scalar⟩, by decide⟩, listed⟩

theorem step_bound_kind (bound : Json) (fault : QuantityFault) (failed : Quantity.stepBound bound = .error fault) :
    (Fault.ofRun (.quantity fault)).kind = .badType := by
  cases bound with
  | float d =>
      simp only [Quantity.stepBound] at failed
      split at failed <;> cases failed
  | _ => cases failed <;> rfl

theorem report_decided (run : PoolRun) (d : Definition) (word : Text) (entry : Entry)
    (ran : d.runInput word run.maxSteps run.permissive = .ok entry) : run.report d word = .ok (.decided entry) := by
  rw [PoolRun.report, ran]

theorem report_failed (run : PoolRun) (d : Definition) (word : Text) (fault : RunFault) (result : WordResult)
    (ran : d.runInput word run.maxSteps run.permissive = .error fault) (reported : run.report d word = .ok result) :
    result = .failed word fault ∧ PoolRun.isExpected (Fault.ofRun fault).kind = true := by
  rw [PoolRun.report, ran] at reported
  simp only at reported
  split at reported
  · rename_i expected
    exact ⟨(Except.ok.inj reported).symm, expected⟩
  · cases reported

theorem report_entry (run : PoolRun) (d : Definition) (word : Text) (entry : Entry)
    (reported : run.report d word = .ok (.decided entry)) :
    d.runInput word run.maxSteps run.permissive = .ok entry := by
  cases ran : d.runInput word run.maxSteps run.permissive with
  | ok found =>
      rw [report_decided run d word found ran] at reported
      cases reported
      rfl
  | error fault => cases (report_failed run d word fault _ ran reported).1

theorem report_scalar (run : PoolRun) (d : Definition) (clean : d.Clean) (word : Text) (result : WordResult)
    (reported : run.report d word = .ok result) (scalar : word.Scalar) : result.Scalar ∧ result.input = word := by
  have failed (fault : RunFault) (ran : d.runInput word run.maxSteps run.permissive = .error fault)
    (told : fault.message.Scalar) :
      result.Scalar ∧ result.input = word := by
    rw [(report_failed run d word fault result ran reported).1]
    exact ⟨⟨scalar, told⟩, rfl⟩
  rcases d.run_input_cases word run.maxSteps run.permissive _ rfl with
    ⟨_, ran⟩ | ran | ⟨fault, begins, ran⟩ | ⟨fault, bounded, ran⟩ | ⟨blank, s, steps, declared, _, _, _, ran⟩
  · exact failed _ ran (by decide)
  · exact failed _ ran (foreign_message_scalar word _ scalar fun symbol mem => d.foreign_inputs_subset word symbol mem)
  · exact failed _ ran (d.clean_start clean fault begins)
  · have expected := (report_failed run d word _ result ran reported).2
    rw [step_bound_kind run.maxSteps fault bounded] at expected
    exact absurd expected (by decide)
  · obtain ⟨t, joined, told⟩ := d.clean_run_joins clean blank s run.permissive word steps declared scalar
    simp only [joined] at ran
    rw [report_decided run d word _ ran] at reported
    cases reported
    exact ⟨⟨scalar, told⟩, rfl⟩

theorem status_name_scalar (status : Status) : status.name.Scalar := by cases status <;> decide

theorem result_plain (result : WordResult) (scalar : result.Scalar) (writable : result.toJson.isWritable = true) :
    Json.Plain 1 result.toJson := by
  cases result with
  | decided entry =>
      obtain ⟨input, tape⟩ := scalar
      simp only [WordResult.toJson, Entry.toJson, Json.isWritable, Json.areWritableFields, Bool.true_and,
        Bool.and_true, Bool.and_eq_true,
        decide_eq_true_eq] at writable
      obtain ⟨steps, head, state⟩ := writable
      refine .object _ ?_ ?_ ?_
      · simp only [List.map_cons, List.map_nil]
        decide
      · simp only [List.forall_mem_cons]
        refine ⟨by decide, by decide, by decide, by decide, by decide, by decide, by decide, by simp⟩
      · simp only [List.forall_mem_cons]
        exact ⟨.text _ input, .text _ (status_name_scalar _), .bool _, .int _ steps, .int _ head,
          .int _ state, .text _ tape, by simp⟩
  | failed input fault =>
      obtain ⟨given, told⟩ := scalar
      refine .object _ ?_ ?_ ?_
      · simp only [List.map_cons, List.map_nil]
        decide
      · simp only [List.forall_mem_cons]
        exact ⟨by decide, by decide, by decide, by simp⟩
      · simp only [List.forall_mem_cons]
        exact ⟨.text _ given, .text _ (by decide), .text _ told, by simp⟩

end TapeMachine
