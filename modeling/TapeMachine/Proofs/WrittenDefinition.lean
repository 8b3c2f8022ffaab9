import TapeMachine.Definition.Reader
import TapeMachine.Proofs.LineReading
import TapeMachine.Proofs.Outcome
import TapeMachine.Proofs.WellFormed

set_option autoImplicit false

namespace TapeMachine

open Text (Gap Solid Digits)

def Short (id : Nat) : Prop := id < tenTo digitLimit

structure Definition.Written (d : Definition) : Prop where
  closed : d.Closed
  control : d.configuration.WellFormed
  solid : ∀ c, [c] ∈ d.charset → c.isBlank = false
  memory : d.memory ≠ some []
  ids : ∀ s ∈ d.configuration.states, Short s.id
  targets : ∀ s ∈ d.configuration.states, ∀ t ∈ s.transitions, Short t.target
  start : ∃ id, d.configuration.start = Label.ofId id ∧ (id = 0 ∨ id ∈ d.configuration.states.map State.id)
  labels : d.configuration.labels = []

structure State.Fits (s : State) (charset : List Text) : Prop where
  control : s.WellFormed
  id : Short s.id
  targets : ∀ t ∈ s.transitions, Short t.target
  symbols : ∀ t ∈ s.transitions, ∀ x ∈ t.output :: t.inputs, ∃ c, x = .char c ∧ [c] ∈ charset

def Line.Sound : Line → Prop
  | .charset symbols => Solid symbols
  | .memory word => word ≠ []
  | .state _ id _ => Digits id
  | .transition source inputs _ _ target => Digits source ∧ inputs ≠ [] ∧ Digits target
  | _ => True

theorem words_solid (t w : Text) (mem : w ∈ Text.words t) : Solid w := by
  fun_induction Text.words t generalizing w with
  | case1 => simp at mem
  | case2 => simp at mem
  | case3 c visible =>
      rw [List.mem_singleton.mp mem]
      simpa [Solid] using visible
  | case4 c d t blank ih => exact ih w mem
  | case5 c d t visible next ih =>
      rcases List.mem_cons.mp mem with rfl | tail
      · simpa [Solid] using visible
      · exact ih w tail
  | case6 c d t visible next found ih =>
      rw [List.mem_singleton.mp mem]
      simpa [Solid] using visible
  | case7 c d t visible next v vs found ih =>
      rcases List.mem_cons.mp mem with rfl | tail
      · refine (Text.solid_cons c v).mpr ⟨by simpa using visible, ?_⟩
        exact ih v (by rw [found]; exact List.mem_cons_self)
      · exact ih w (by rw [found]; exact List.mem_cons_of_mem v tail)

theorem firsts_solid (t : Text) : Solid ((Text.words t).filterMap List.head?) := by
  intro c mem
  obtain ⟨w, within, first⟩ := List.mem_filterMap.mp mem
  exact words_solid t w within c (List.mem_of_mem_head? first)

theorem read_sound (t : Text) (line : Line) (read : Line.read? t = some line) : line.Sound := by
  cases Line.read_form t line read with
  | empty => trivial
  | comment => trivial
  | charset word gap rest => exact firsts_solid rest
  | blank => trivial
  | memory word gap rest named first starts =>
      obtain ⟨c, tail, rfl, _⟩ := starts
      exact List.cons_ne_nil c tail
  | state t id isStart acceptance form =>
      obtain ⟨marker, gap, tag, marks, number, isGap, tags⟩ := form
      exact number
  | transition t source inputs target output action form =>
      obtain ⟨_, _, _, _, _, _, isSource, _, reads, _, _, _, _, _, _, isTarget⟩ := form
      exact ⟨isSource, reads.1, isTarget⟩

namespace Definition

theorem read_id_short (digits : Text) (id : Nat) (number : Digits digits)
    (read : readId digits = .ok id) : Short id := by
  rw [readId] at read
  split at read
  · simp at read
  · rename_i within
    cases read
    have below := numeral_value_below digits number.2
    exact Nat.lt_of_lt_of_le below (ten_to_mono digits.length digitLimit (Nat.le_of_not_lt within))

theorem check_declared_iff (d : Definition) (symbols : Text) :
    d.checkDeclared symbols = .ok () ↔ ∀ c ∈ symbols, [c] ∈ d.charset := by
  have none : firstSeen (symbols.filter fun c => !d.declares c) = [] ↔ ∀ c ∈ symbols, [c] ∈ d.charset := by
    simp [List.filter_eq_nil_iff, declares]
  rw [← none, checkDeclared]
  split
  · rename_i empty
    simp [empty]
  · rename_i foreign
    simp [foreign]

theorem empty_written : Written {} where
  closed := ⟨⟨by simp, by simp, by simp⟩, by simp, by simp⟩
  control := ⟨by simp, by simp⟩
  solid := by simp
  memory := by simp
  ids := by simp
  targets := by simp
  start := ⟨0, rfl, .inl rfl⟩
  labels := rfl

theorem mem_declare (d : Definition) (symbols : List CodePoint) (t : Text) :
    t ∈ (d.declare symbols).charset ↔ t ∈ d.charset ∨ ∃ c ∈ symbols, t = [c] := by
  obtain ⟨configuration, charset, blank, memory⟩ := d
  simp only [declare]
  induction symbols generalizing charset with
  | nil => simp
  | cons c cs ih =>
      rw [List.foldl_cons, ih]
      by_cases declared : [c] ∈ charset
      · simp only [List.contains_iff_mem.mpr declared, if_true, List.exists_mem_cons_iff]
        constructor
        · rintro (old | new)
          · exact .inl old
          · exact .inr (.inr new)
        · rintro (old | rfl | new)
          · exact .inl old
          · exact .inl declared
          · exact .inr new
      · simp [declared, or_assoc]

theorem declare_nodup (d : Definition) (symbols : List CodePoint) (distinct : d.charset.Nodup) :
    (d.declare symbols).charset.Nodup := by
  obtain ⟨configuration, charset, blank, memory⟩ := d
  simp only [declare] at distinct ⊢
  induction symbols generalizing charset with
  | nil => exact distinct
  | cons c cs ih =>
      rw [List.foldl_cons]
      apply ih
      by_cases declared : [c] ∈ charset
      · simpa [declared] using distinct
      · rw [if_neg (by simpa using declared), ← List.concat_eq_append]
        exact List.Nodup.concat declared distinct

theorem declare_new (symbols : List CodePoint) (distinct : symbols.Nodup) :
    ({} : Definition).declare symbols = { charset := symbols.map ([·]) } := by
  have grown (earlier : List CodePoint) (apart : (earlier ++ symbols).Nodup) :
      symbols.foldl (fun acc c => if acc.contains [c] then acc else acc ++ [[c]]) (earlier.map ([·])) =
        (earlier ++ symbols).map ([·]) := by
    induction symbols generalizing earlier with
    | nil => simp
    | cons c cs ih =>
        have absent : c ∉ earlier := by
          intro mem
          exact (List.nodup_append.mp apart).2.2 c mem c List.mem_cons_self rfl
        have moved : earlier ++ c :: cs = (earlier ++ [c]) ++ cs := by simp
        rw [moved] at apart ⊢
        rw [List.foldl_cons, if_neg (by simpa using absent),
          ← ih (List.nodup_cons.mp distinct).2 (earlier ++ [c]) apart]
        simp
  simpa [declare] using grown [] distinct

theorem written_fits (d : Definition) (s : State) (written : d.Written) (mem : s ∈ d.configuration.states) :
    s.Fits d.charset where
  control := written.control.states s mem
  id := written.ids s mem
  targets := written.targets s mem
  symbols := written.closed.symbols s mem

theorem written_add (d : Definition) (s : State) (written : d.Written) (fits : s.Fits d.charset) :
    Written { d with configuration := d.configuration.add s } := by
  obtain ⟨id, starts, known⟩ := written.start
  have all (u : State) (mem : u ∈ (d.configuration.add s).states) : u.Fits d.charset := by
    rcases Configuration.mem_place s u d.configuration.states mem with rfl | old
    · exact fits
    · exact written_fits d u written old
  refine ⟨⟨⟨written.closed.blank, written.closed.memory, ?_⟩, written.closed.single, written.closed.distinct⟩,
    Configuration.add_well_formed d.configuration s written.control fits.control, written.solid,
      written.memory, ?_, ?_, ?_,
    written.labels⟩
  · exact fun u mem => (all u mem).symbols
  · exact fun u mem => (all u mem).id
  · exact fun u mem => (all u mem).targets
  · refine ⟨id, starts, known.imp_right fun mem => ?_⟩
    exact (Configuration.place_id_mem s d.configuration.states id).mpr (.inr mem)

theorem written_declare (d : Definition) (symbols : List CodePoint) (written : d.Written) (solid : Solid symbols) :
    (d.declare symbols).Written := by
  have kept (t : Text) (mem : t ∈ d.charset) : t ∈ (d.declare symbols).charset :=
    (mem_declare d symbols t).mpr (.inl mem)
  refine ⟨⟨⟨?_, ?_, ?_⟩, ?_, declare_nodup d symbols written.closed.distinct⟩, written.control, ?_,
    written.memory, written.ids,
    written.targets, written.start, written.labels⟩
  · exact fun t blank => kept t (written.closed.blank t blank)
  · exact fun word memory c mem => kept [c] (written.closed.memory word memory c mem)
  · intro s mem t within x used
    obtain ⟨c, same, declared⟩ := written.closed.symbols s mem t within x used
    exact ⟨c, same, kept [c] declared⟩
  · intro t mem
    rcases (mem_declare d symbols t).mp mem with old | ⟨c, _, rfl⟩
    · exact written.closed.single t old
    · exact ⟨c, rfl⟩
  · intro c mem
    rcases (mem_declare d symbols [c]).mp mem with old | ⟨e, new, same⟩
    · exact written.solid c old
    · rw [List.singleton_inj.mp same]
      exact solid e new

theorem declared_state_fits (d : Definition) (id : Nat) (acceptance : Acceptance)
    (written : d.Written) (short : Short id) :
    State.Fits ⟨id, acceptance, ((d.configuration.find? id).map State.transitions).getD []⟩ d.charset := by
  cases found : d.configuration.find? id with
  | none => exact ⟨⟨by simp, by simp⟩, short, by simp, by simp⟩
  | some s =>
      have fits := written_fits d s written (Configuration.find_mem d.configuration id s found).1
      exact ⟨⟨fits.control.targets, fits.control.transitions⟩, short, fits.targets, fits.symbols⟩

theorem written_start (d : Definition) (id : Nat) (written : d.Written)
    (known : id ∈ d.configuration.states.map State.id) :
    Written { d with configuration := { d.configuration with start := Label.ofId id } } :=
  ⟨⟨⟨written.closed.blank, written.closed.memory, written.closed.symbols⟩, written.closed.single,
    written.closed.distinct⟩,
    ⟨written.control.ids, written.control.states⟩, written.solid, written.memory, written.ids, written.targets,
    ⟨id, rfl, .inr known⟩, written.labels⟩

theorem filed_state_fits (s : State) (t : Transition) (charset : List Text) (fits : s.Fits charset)
    (good : t.WellFormed)
    (short : Short t.target) (used : ∀ x ∈ t.output :: t.inputs, ∃ c, x = .char c ∧ [c] ∈ charset) :
    (s.withTransition t).Fits charset := by
  refine ⟨State.with_transition_well_formed s t fits.control good, fits.id, ?_, ?_⟩
  · intro u mem
    rcases Transition.mem_file t u s.transitions mem with old | rfl | ⟨v, within, _, rfl⟩
    · exact fits.targets u old
    · exact short
    · exact fits.targets v within
  · intro u mem x within
    rcases Transition.mem_file t u s.transitions mem with old | rfl | ⟨v, old, _, rfl⟩
    · exact fits.symbols u old x within
    · exact used x within
    · rcases List.mem_cons.mp within with rfl | listed
      · exact fits.symbols v old v.output List.mem_cons_self
      · rw [Transition.merge, mem_first_seen, List.mem_append] at listed
        rcases listed with old' | new
        · exact fits.symbols v old x (List.mem_cons_of_mem v.output old')
        · exact used x (List.mem_cons_of_mem t.output new)

theorem read_transition_well_formed (target : Nat) (action : Action) (output : CodePoint) (inputs : Text)
    (filled : inputs ≠ []) :
    Transition.WellFormed ⟨target, action, .char output, (SymbolSource.word inputs).symbols⟩ where
  filled := by
    rw [SymbolSource.symbols, SymbolSource.all, ne_eq, first_seen_eq_nil_iff, List.map_eq_nil_iff]
    exact filled
  distinct := first_seen_nodup (inputs.map Symbol.char)

theorem read_transition_symbols (d : Definition) (inputs : Text) (output : CodePoint)
    (declared : ∀ c ∈ inputs ++ [output], [c] ∈ d.charset) :
    ∀ x ∈ Symbol.char output :: (SymbolSource.word inputs).symbols, ∃ c, x = .char c ∧ [c] ∈ d.charset := by
  intro x mem
  rcases List.mem_cons.mp mem with rfl | listed
  · exact ⟨output, rfl, declared output (by simp)⟩
  · rw [SymbolSource.symbols, mem_first_seen, SymbolSource.all, List.mem_map] at listed
    obtain ⟨c, within, rfl⟩ := listed
    exact ⟨c, rfl, declared c (List.mem_append_left [output] within)⟩

theorem enter_written (d d' : Definition) (line : Line) (written : d.Written) (sound : line.Sound)
    (entered : d.enter line = .ok d') :
    d'.Written := by
  cases line with
  | empty =>
      cases entered
      exact written
  | comment =>
      cases entered
      exact written
  | charset symbols =>
      cases entered
      exact written_declare d symbols written sound
  | blank c =>
      rw [enter] at entered
      split at entered
      · rename_i declared
        cases entered
        have member : [c] ∈ d.charset := by simpa [declares] using declared
        refine ⟨⟨⟨?_, written.closed.memory, written.closed.symbols⟩, written.closed.single, written.closed.distinct⟩,
          written.control, written.solid, written.memory, written.ids, written.targets, written.start, written.labels⟩
        intro t same
        rwa [← Option.some.inj same]
      · simp at entered
  | memory word =>
      rw [enter] at entered
      obtain ⟨⟨⟩, checked, done⟩ := (bind_ok _ _ _).mp entered
      cases done
      refine ⟨⟨⟨written.closed.blank, ?_, written.closed.symbols⟩, written.closed.single, written.closed.distinct⟩,
        written.control, written.solid, ?_, written.ids, written.targets, written.start, written.labels⟩
      · intro w same
        rw [← Option.some.inj same]
        exact (check_declared_iff d word).mp checked
      · exact fun same => sound (Option.some.inj same)
  | state isStart digits acceptance =>
      rw [enter] at entered
      obtain ⟨id, named, done⟩ := (bind_ok _ _ _).mp entered
      have fits := declared_state_fits d id acceptance written (read_id_short digits id sound named)
      have declared : (d.declareState id acceptance).Written := written_add d _ written fits
      cases isStart with
      | false =>
          cases done
          exact declared
      | true =>
          cases done
          apply written_start (d.declareState id acceptance) id declared
          exact (Configuration.place_id_mem _ d.configuration.states id).mpr (.inl rfl)
  | transition source inputs output action target =>
      obtain ⟨isSource, filled, isTarget⟩ := sound
      rw [enter] at entered
      obtain ⟨sourceId, sourced, entered⟩ := (bind_ok _ _ _).mp entered
      obtain ⟨⟨⟩, checked, entered⟩ := (bind_ok _ _ _).mp entered
      obtain ⟨targetId, targeted, done⟩ := (bind_ok _ _ _).mp entered
      cases done
      apply written_add d _ written
      apply filed_state_fits
      · cases found : d.configuration.find? sourceId with
        | none => exact ⟨⟨by simp, by simp⟩, read_id_short source sourceId isSource sourced, by simp, by simp⟩
        | some s => exact written_fits d s written (Configuration.find_mem d.configuration sourceId s found).1
      · exact read_transition_well_formed targetId action output inputs filled
      · exact read_id_short target targetId isTarget targeted
      · exact read_transition_symbols d inputs output ((check_declared_iff d (inputs ++ [output])).mp checked)

theorem read_from_written (d d' : Definition) (number : Nat) (lines : List Text) (written : d.Written)
    (read : d.readFrom number lines = .ok d') : d'.Written := by
  induction lines generalizing d number with
  | nil =>
      cases read
      exact written
  | cons raw rest ih =>
      rw [readFrom] at read
      split at read
      · rename_i next entered
        refine ih next (number + 1) ?_ read
        rw [enterText] at entered
        split at entered
        · rename_i line formed
          exact enter_written d next line written (read_sound _ line formed) entered
        · simp at entered
      · simp at read

theorem of_lines_written (lines : List Text) (d : Definition) (read : ofLines lines = .ok d) : d.Written :=
  read_from_written {} d 1 lines empty_written read

end Definition

end TapeMachine
