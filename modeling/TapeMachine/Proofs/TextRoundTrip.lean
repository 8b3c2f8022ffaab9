import TapeMachine.Proofs.PrintedLines
import TapeMachine.Proofs.WrittenDefinition

set_option autoImplicit false

namespace TapeMachine.Definition

open Text (Gap Solid Digits Tidy)

theorem read_from_append (d : Definition) (number : Nat) (front back : List Text) :
    d.readFrom number (front ++ back) =
      (d.readFrom number front).bind fun next => next.readFrom (number + front.length) back := by
  induction front generalizing d number with
  | nil => rfl
  | cons raw rest ih =>
      rw [List.cons_append, readFrom, readFrom]
      split
      · rw [ih, List.length_cons, Nat.add_assoc, Nat.add_comm 1]
      · rfl

structure Leads (d : Definition) (lines : List Text) (d' : Definition) : Prop where
  clean : ∀ t ∈ lines, CodePoint.ofChar '\n' ∉ t
  read : ∀ number, d.readFrom number lines = .ok d'

theorem leads_nothing (d : Definition) : d.Leads [] d := ⟨by simp, fun _ => rfl⟩

theorem leads_append (d next d' : Definition) (front back : List Text) (first : d.Leads front next)
    (second : next.Leads back d') :
    d.Leads (front ++ back) d' where
  clean := List.forall_mem_append.mpr ⟨first.clean, second.clean⟩
  read := by
    intro number
    rw [read_from_append, first.read number]
    exact second.read (number + front.length)

theorem leads_line (d d' : Definition) (t : Text) (line : Line) (tidy : Tidy t) (formed : Line.read? t = some line)
    (entered : d.enter line = .ok d') : d.Leads [t] d' where
  clean := by simpa using Text.tidy_no_feed t tidy
  read := by
    intro number
    simp only [readFrom, Text.tidy_trimmed t tidy, enterText, formed, entered]

theorem leads_empty_line (d : Definition) : d.Leads [[]] d := ⟨by simp, fun _ => rfl⟩

theorem leads_text (d : Definition) (lines : List Text) (leads : Leads {} lines d) :
    ofText (Text.join "\n" lines ++ "\n") = .ok d := by
  cases lines with
  | nil => exact leads.read 1
  | cons l ls =>
      have ended := leads_append _ _ _ _ _ leads (leads_empty_line d)
      rw [ofText, Text.split_lines_join l ls leads.clean]
      exact ended.read 1

theorem read_id_numeral (id : Nat) (short : Short id) : readId (numeral id) = .ok id := by
  have fits : (numeral id).length ≤ digitLimit := numeral_length id 4299 short
  rw [readId, if_neg (Nat.not_lt.mpr fits), numeral_value_numeral]

theorem leads_charset (d : Definition) (written : d.Written) :
    Leads {} (if d.charset = [] then [] else ["%charset " ++ Text.join " " d.charset]) { charset := d.charset } := by
  obtain ⟨cs, same, distinct⟩ := charset_points d written.closed
  have solid : Solid cs := fun c mem => written.solid c (by rw [same]; exact List.mem_map_of_mem mem)
  rw [same]
  cases cs with
  | nil => exact leads_nothing _
  | cons c cs =>
      have tidy := Text.tidy_join c cs solid
      have formed := Line.read_charset _ tidy
      have firsts : ((c :: cs).map ([·])).filterMap List.head? = c :: cs := by
        simp [List.filterMap_map, Function.comp_def]
      rw [Text.words_join (c :: cs) solid, firsts] at formed
      rw [if_neg (by simp)]
      refine leads_line _ _ _ _ (Text.tidy_spaced "%charset" _ ?_ tidy) formed ?_
      · exact Text.tidy_solid "%charset" (by unfold Solid; decide) (by decide)
      · exact congrArg Except.ok (declare_new (c :: cs) distinct)

theorem leads_memory (d : Definition) (written : d.Written) :
    Leads { charset := d.charset } (match d.memory with
      | none => []
      | some [] => []
      | some word => ["%memory " ++ word]) { charset := d.charset, memory := d.memory } := by
  have filled := written.memory
  have declared := written.closed.memory
  cases same : d.memory with
  | none => exact leads_nothing _
  | some word =>
      rw [same] at filled declared
      cases word with
      | nil => exact absurd rfl filled
      | cons c cs =>
          have members := declared (c :: cs) rfl
          have solid : Solid (c :: cs) := fun e mem => written.solid e (members e mem)
          refine leads_line _ _ _ _ ?_ (Line.read_memory (c :: cs) solid (by simp)) ?_
          · exact Text.tidy_spaced "%memory" _ (Text.tidy_solid "%memory" (by unfold Solid; decide) (by decide))
              (Text.tidy_solid (c :: cs) solid (by simp))
          · have checked := (check_declared_iff { charset := d.charset } (c :: cs)).mpr members
            simp only [enter, checked]
            rfl

theorem leads_blank (d : Definition) (written : d.Written) :
    Leads { charset := d.charset, memory := d.memory } (match d.blank with
      | none => []
      | some b => ["%blank " ++ b]) { charset := d.charset, memory := d.memory, blank := d.blank } := by
  have declared := written.closed.blank
  cases same : d.blank with
  | none => exact leads_nothing _
  | some b =>
      have member := declared b same
      obtain ⟨c, rfl⟩ := written.closed.single b member
      have visible := written.solid c member
      have solid : Solid [c] := by simpa [Solid] using visible
      refine leads_line _ _ _ _ ?_ (Line.read_blank c visible) ?_
      · exact Text.tidy_spaced "%blank" _ (Text.tidy_solid "%blank" (by unfold Solid; decide) (by decide))
          (Text.tidy_solid [c] solid (by simp))
      · simp [enter, declares, member]

theorem leads_header (d : Definition) (written : d.Written) :
    Leads {} d.headerLines { charset := d.charset, memory := d.memory, blank := d.blank } :=
  leads_append _ _ _ _ _ (leads_append _ _ _ _ _ (leads_charset d written) (leads_memory d written))
    (leads_blank d written)

def sketch (d : Definition) (states : List State) (start : Label) : Definition :=
  { charset := d.charset, memory := d.memory, blank := d.blank, configuration := { states, start } }

theorem tidy_numeral (id : Nat) : Tidy (numeral id) := Text.tidy_solid (numeral id)
    (numeral_solid id) (numeral_ne_nil id)

theorem tidy_state_line (start : Label) (s : State) : Tidy (stateLine start s) := by
  have marked : Tidy ((if start.names s.id then "> " else [] : Text) ++ numeral s.id) := by
    split
    · exact Text.tidy_spaced ">" _ (Text.tidy_solid ">" (by unfold Solid; decide) (by decide)) (tidy_numeral s.id)
    · exact tidy_numeral s.id
  have tagged (tag : Text) (solid : Solid tag) (filled : tag ≠ []) :=
    Text.tidy_spaced _ tag marked (Text.tidy_solid tag solid filled)
  rw [stateLine]
  cases s.acceptance with
  | none => simpa using marked
  | accept => exact tagged "A" (by unfold Solid; decide) (by decide)
  | reject => exact tagged "R" (by unfold Solid; decide) (by decide)

theorem read_state_line (start : Label) (s : State) :
    Line.read? (stateLine start s) = some (.state (start.names s.id) (numeral s.id) s.acceptance) := by
  have marks : Line.Marker (start.names s.id) (if start.names s.id then "> " else [] : Text) := by
    cases start.names s.id with
    | false => rfl
    | true => exact ⟨" ", Line.single_space_gap, rfl⟩
  have number := numeral_is_digits s.id
  have tagged (gap tag : Text) (isGap : Gap gap) :=
    Line.read_state _ (numeral s.id) gap tag _ s.acceptance marks number isGap
  rw [stateLine, List.append_assoc]
  generalize s.acceptance = acceptance at tagged
  cases acceptance with
  | none => exact tagged [] [] (by simp [Gap]) rfl
  | accept => exact tagged " " "A" Line.single_space_gap rfl
  | reject => exact tagged " " "R" Line.single_space_gap rfl

theorem declare_state_new (d : Definition) (states : List State) (start : Label) (s : State)
    (new : s.id ∉ states.map State.id) :
    (d.sketch states start).declareState s.id s.acceptance = d.sketch
    (states ++ [{ s with transitions := [] }]) start := by
  have absent : (d.sketch states start).configuration.find? s.id = none := Configuration.find_none _ s.id new
  have placed := Configuration.place_new { s with transitions := [] } states new
  rw [declareState, absent, sketch, sketch, Configuration.add, ← placed]
  rfl

theorem leads_state_line (d : Definition) (states : List State) (start : Label) (n : Nat) (s : State)
    (new : s.id ∉ states.map State.id) (short : Short s.id) :
    (d.sketch states start).Leads [stateLine (Label.ofId n) s]
      (d.sketch (states ++ [{ s with transitions := [] }]) (if n = s.id then Label.ofId n else start)) := by
  refine leads_line _ _ _ _ (tidy_state_line _ s) (read_state_line _ s) ?_
  have declared := declare_state_new d states start s new
  have names : (Label.ofId n).names s.id = decide (n = s.id) := by
    rw [Bool.eq_iff_iff, Label.names_of_id, decide_eq_true_iff]
  rw [enter, read_id_numeral s.id short, names]
  by_cases marked : n = s.id
  · simp only [ok_bind, declared, marked, decide_true, if_true]
    rfl
  · simp only [ok_bind, declared, marked, decide_false, if_false]
    rfl

theorem leads_state_lines (d : Definition) (known states : List State) (start : Label) (n : Nat)
    (distinct : ((known ++ states).map State.id).Nodup) (short : ∀ s ∈ states, Short s.id) :
    (d.sketch known start).Leads (states.map (stateLine (Label.ofId n)))
      (d.sketch (known ++ states.map fun s => { s with transitions := [] })
        (if n ∈ states.map State.id then Label.ofId n else start)) := by
  induction states generalizing known start with
  | nil => simpa using leads_nothing (d.sketch known start)
  | cons s rest ih =>
      have new := key_new State.id known rest s distinct
      have first := leads_state_line d known start n s new (short s List.mem_cons_self)
      have second := ih (known ++ [{ s with transitions := [] }]) (if n = s.id then Label.ofId n else start)
        (by simpa using distinct) (fun u mem => short u (List.mem_cons_of_mem s mem))
      have both := leads_append _ _ _ _ _ first second
      have starts : (if n ∈ rest.map State.id then Label.ofId n else if n = s.id then Label.ofId n else start) =
          if n ∈ (s :: rest).map State.id then Label.ofId n else start := by
        by_cases same : n = s.id <;> simp [same]
      rwa [starts, List.append_assoc] at both

def transitionText (source : Nat) (t : Transition) : Text :=
  numeral source ++ " " ++ t.inputs.flatMap Symbol.plain ++ " -> " ++ t.output.plain ++ " " ++
    [t.action.letter] ++ " " ++
    numeral t.target

@[simp] theorem char_texts (t : Text) : (t.map Symbol.char).flatMap Symbol.plain = t := by
  induction t with
  | nil => rfl
  | cons c rest ih =>
      rw [List.map_cons, List.flatMap_cons, ih]
      rfl

@[simp] theorem join_chars (index : Nat) (t : Text) : joinSymbolsFrom index (t.map Symbol.char) = .ok t := by
  induction t generalizing index with
  | nil => rfl
  | cons c rest ih =>
      rw [List.map_cons, Symbol.char, joinSymbolsFrom, ih (index + 1)]
      rfl

structure Printable (charset : List Text) (t : Transition) (inputs : Text) (output : CodePoint) : Prop where
  reads : t.inputs = inputs.map Symbol.char
  writes : t.output = .char output
  filled : inputs ≠ []
  distinct : inputs.Nodup
  declared : ∀ c ∈ inputs ++ [output], [c] ∈ charset

theorem chars_of_texts (charset : List Text) (symbols : List Symbol)
    (texts : ∀ x ∈ symbols, ∃ c, x = .char c ∧ [c] ∈ charset) :
    ∃ cs : Text, symbols = cs.map Symbol.char ∧ ∀ c ∈ cs, [c] ∈ charset := by
  induction symbols with
  | nil => exact ⟨[], rfl, by simp⟩
  | cons x rest ih =>
      obtain ⟨c, rfl, declared⟩ := texts x List.mem_cons_self
      obtain ⟨cs, rfl, others⟩ := ih fun y mem => texts y (List.mem_cons_of_mem _ mem)
      exact ⟨c :: cs, rfl, List.forall_mem_cons.mpr ⟨declared, others⟩⟩

theorem fits_printable (charset : List Text) (s : State) (t : Transition) (fits : s.Fits charset)
    (mem : t ∈ s.transitions) :
    ∃ inputs output, Printable charset t inputs output := by
  have used := fits.symbols t mem
  have good := fits.control.transitions t mem
  obtain ⟨output, writes, declared⟩ := used t.output List.mem_cons_self
  obtain ⟨inputs, reads, others⟩ := chars_of_texts charset t.inputs fun x within =>
    used x (List.mem_cons_of_mem _ within)
  have filled := good.filled
  have distinct := good.distinct
  rw [reads] at filled distinct
  refine ⟨inputs, output, reads, writes, fun empty => filled (by rw [empty, List.map_nil]),
    List.Nodup.of_map _ distinct, ?_⟩
  intro c within
  rcases List.mem_append.mp within with input | written
  · exact others c input
  · rwa [List.mem_singleton.mp written]

theorem transition_line_text (charset : List Text) (source : Nat) (t : Transition) (inputs : Text) (output : CodePoint)
    (printable : Printable charset t inputs output) : transitionLine source t = .ok (transitionText source t) := by
  rw [transitionLine, transitionText, printable.reads, joinSymbols, join_chars, char_texts]
  rfl

theorem file_transition_new (d : Definition) (before after : List State) (start : Label) (s : State) (t : Transition)
    (first : s.id ∉ before.map State.id) (new : t.target ∉ s.transitions.map Transition.target) :
    (d.sketch (before ++ s :: after) start).fileTransition s.id t =
      d.sketch (before ++ { s with transitions := s.transitions ++ [t] } :: after) start := by
  have found : (d.sketch (before ++ s :: after) start).configuration.find? s.id = some s :=
    Configuration.find_split before after s first start []
  have filed : s.withTransition t = { s with transitions := s.transitions ++ [t] } := by
    rw [State.withTransition, Transition.file_new t s.transitions new]
  have placed := Configuration.place_split before after { s with transitions := s.transitions ++ [t] } s rfl first
  rw [fileTransition, found, Option.getD_some, filed, Configuration.add]
  simp only [sketch, placed]

theorem leads_transition_line (d : Definition) (before after : List State) (start : Label) (s : State) (t : Transition)
    (inputs : Text) (output : CodePoint) (printable : Printable d.charset t inputs output)
    (visible : ∀ c, [c] ∈ d.charset → c.isBlank = false) (first : s.id ∉ before.map State.id) (short : Short s.id)
    (target : Short t.target) (new : t.target ∉ s.transitions.map Transition.target) :
    (d.sketch (before ++ s :: after) start).Leads [transitionText s.id t]
      (d.sketch (before ++ { s with transitions := s.transitions ++ [t] } :: after) start) := by
  have solid : Solid (inputs ++ [output]) := fun c mem => visible c (printable.declared c mem)
  obtain ⟨solidInputs, solidOutput⟩ := (Text.solid_append inputs [output]).mp solid
  have visibleOutput := solidOutput output (by simp)
  have shown : transitionText s.id t =
      numeral s.id ++ " " ++ inputs ++ " -> " ++ [output] ++ " " ++ [t.action.letter] ++ " " ++ numeral t.target := by
    rw [transitionText, printable.reads, printable.writes, char_texts]
    rfl
  rw [shown]
  refine leads_line _ _ _ (.transition (numeral s.id) inputs output t.action (numeral t.target)) ?_ ?_ ?_
  · have letter : t.action.letter.isBlank = false := by cases t.action <;> decide
    exact Line.tidy_transition (numeral s.id) inputs (numeral t.target) output t.action.letter (numeral_is_digits s.id)
      printable.filled solidInputs visibleOutput letter (numeral_is_digits t.target)
  · exact Line.read_transition (numeral s.id) inputs (numeral t.target) output t.action
      (numeral_is_digits s.id) printable.filled
      solidInputs visibleOutput (numeral_is_digits t.target)
  · have checked :=
      (check_declared_iff (d.sketch (before ++ s :: after) start) (inputs ++ [output])).mpr printable.declared
    -- The line lists the inputs without repetition already, so nothing is dropped from them.
    have listed : (SymbolSource.word inputs).symbols = t.inputs := by
      rw [printable.reads]
      exact first_seen_of_nodup _ (printable.distinct.map fun a b => Symbol.char_injective)
    have same : Transition.mk t.target t.action (.char output) t.inputs = t := by rw [← printable.writes]
    simp only [enter, read_id_numeral s.id short, read_id_numeral t.target target, checked, listed, same, ok_bind]
    rw [file_transition_new d before after start s t first new]
    rfl

theorem leads_transition_lines (d : Definition) (before after : List State) (start : Label) (s : State)
    (rest : List Transition)
    (visible : ∀ c, [c] ∈ d.charset → c.isBlank = false) (first : s.id ∉ before.map State.id) (short : Short s.id)
    (targets : ∀ t ∈ rest, Short t.target) (distinct : ((s.transitions ++ rest).map Transition.target).Nodup)
    (printable : ∀ t ∈ rest, ∃ inputs output, Printable d.charset t inputs output) :
    (d.sketch (before ++ s :: after) start).Leads (rest.map (transitionText s.id))
      (d.sketch (before ++ { s with transitions := s.transitions ++ rest } :: after) start) := by
  induction rest generalizing s with
  | nil => simpa using leads_nothing (d.sketch (before ++ s :: after) start)
  | cons t rest ih =>
      obtain ⟨inputs, output, printed⟩ := printable t List.mem_cons_self
      have new := key_new Transition.target s.transitions rest t distinct
      have one := leads_transition_line d before after start s t inputs output printed visible first short
        (targets t List.mem_cons_self) new
      have others := ih { s with transitions := s.transitions ++ [t] } first short
        (fun u mem => targets u (List.mem_cons_of_mem t mem)) (by simpa using distinct)
        (fun u mem => printable u (List.mem_cons_of_mem t mem))
      simpa using leads_append _ _ _ _ _ one others

theorem leads_transition_groups (d : Definition) (done todo : List State) (start : Label)
    (visible : ∀ c, [c] ∈ d.charset → c.isBlank = false) (distinct : ((done ++ todo).map State.id).Nodup)
    (short : ∀ s ∈ todo, Short s.id) (fits : ∀ s ∈ todo, s.Fits d.charset) :
    (d.sketch (done ++ todo.map fun s => { s with transitions := [] }) start).Leads
      (todo.flatMap fun s => s.transitions.map (transitionText s.id)) (d.sketch (done ++ todo) start) := by
  induction todo generalizing done with
  | nil => simpa using leads_nothing (d.sketch done start)
  | cons s rest ih =>
      have first := key_new State.id done rest s distinct
      have good := fits s List.mem_cons_self
      have filled := leads_transition_lines d done (rest.map fun s => { s with transitions := [] }) start
        { s with transitions := [] } s.transitions visible first
          (short s List.mem_cons_self) good.targets good.control.targets
        (fun t mem => fits_printable d.charset s t good mem)
      have others := ih (done ++ [s]) (by simpa using distinct) (fun u mem => short u (List.mem_cons_of_mem s mem))
        (fun u mem => fits u (List.mem_cons_of_mem s mem))
      simpa using leads_append _ _ _ _ _ filled (by simpa using others)

def printedLines (d : Definition) : List Text :=
  d.headerLines ++ d.configuration.states.map (stateLine d.configuration.start) ++
    d.configuration.states.flatMap fun s => s.transitions.map (transitionText s.id)

theorem fit_lines (d : Definition) (fits : ∀ s ∈ d.configuration.states, s.Fits d.charset) :
    d.toLines = .ok d.printedLines := by
  have each (s : State) (mem : s ∈ d.configuration.states) :
      s.transitions.mapM (transitionLine s.id) = .ok (s.transitions.map (transitionText s.id)) := by
    apply map_all_ok
    intro t within
    obtain ⟨inputs, output, printable⟩ := fits_printable d.charset s t (fits s mem) within
    exact transition_line_text d.charset s.id t inputs output printable
  rw [toLines, transitionLines, map_all_ok _ _ d.configuration.states each, printedLines, List.flatMap_def]
  rfl

theorem written_lines (d : Definition) (written : d.Written) : d.toLines = .ok d.printedLines :=
  fit_lines d fun s mem => written_fits d s written mem

theorem leads_lines (d : Definition) (written : d.Written) : Leads {} d.printedLines d := by
  obtain ⟨n, starts, known⟩ := written.start
  have distinct := written.control.ids
  have states := leads_state_lines d [] d.configuration.states (Label.ofId 0) n distinct written.ids
  have groups :=
    leads_transition_groups d [] d.configuration.states d.configuration.start written.solid distinct written.ids
    (fun s mem => written_fits d s written mem)
  have start : (if n ∈ d.configuration.states.map State.id then Label.ofId n else Label.ofId 0) =
      d.configuration.start := by
    rw [starts]
    split
    · rfl
    · rename_i absent
      rw [known.resolve_right absent]
  have whole : d.sketch ([] ++ d.configuration.states) d.configuration.start = d := by
    obtain ⟨⟨states, start, labels⟩, charset, blank, memory⟩ := d
    rw [sketch, ← show labels = [] from written.labels]
    rfl
  rw [start] at states
  rw [whole] at groups
  rw [printedLines, starts]
  rw [starts] at states groups
  exact leads_append _ _ _ _ _ (leads_append _ _ _ _ _ (leads_header d written) states) groups

/-- Whatever is read from a text or from lines is printed as a text that is read as the same definition. -/
theorem printed_definition_is_read_back (source : Text) (sourceLines : List Text) (d : Definition)
    (read : ofText source = .ok d ∨ ofLines sourceLines = .ok d) :
    ∃ t d', d.toText = .ok t ∧ ofText t = .ok d' ∧ d' = d ∧ d'.toText = .ok t := by
  have written : d.Written := by
    rcases read with text | lines
    · exact of_lines_written (Text.splitLines source) d text
    · exact of_lines_written sourceLines d lines
  have printed : d.toText = .ok (Text.join "\n" d.printedLines ++ "\n") := by
    rw [toText, written_lines d written]
    rfl
  exact ⟨_, d, printed, leads_text d d.printedLines (leads_lines d written), rfl, printed⟩

theorem crowded_definition_is_read_back :
    let source : Text :=
  "%charset - > ; / % 1 a\n%blank ;\n%memory ->;/%1a\n12 -> -> > l 7\n12 -; -> % - 12\n12 1a> -> 1 R 7\n7 a"
    let d : Definition := {
      configuration := { states := [
        ⟨12, .none, [⟨7, .left, .text ">", [.text "-", .text ">", .text "1", .text "a"]⟩,
          ⟨12, .stay, .text "%", [.text "-", .text ";"]⟩]⟩,
        ⟨7, .accept, []⟩] }
      charset := ["-", ">", ";", "/", "%", "1", "a"]
      blank := some ";"
      memory := some "->;/%1a" }
    ofText source = .ok d ∧ ∃ t d', d.toText = .ok t ∧ ofText t = .ok d' ∧ d' = d ∧ d'.toText = .ok t := by
  intro source d
  have read : ofText source = .ok d := rfl
  exact ⟨read, printed_definition_is_read_back source [] d (.inl read)⟩

end TapeMachine.Definition
