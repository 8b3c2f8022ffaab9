import TapeMachine.Proofs.Alphabet

set_option autoImplicit false

namespace TapeMachine

theorem word_short (n : Nat) (small : n < Word.span 8) : Short n := by
  have digits : Word.span 8 ≤ tenTo 20 := by decide
  exact Nat.lt_of_lt_of_le small (Nat.le_trans digits (ten_to_mono 20 digitLimit (by decide)))

namespace Binary

theorem transition_form_fields (codec : SymbolCodec) (t : Transition) (bytes : Bytes)
    (form : TransitionForm codec t bytes) :
    t.deduplicated.WellFormed ∧ Short t.target := by
  obtain ⟨_, _, _, _, _, _, filled, _, _, _, enters⟩ := form
  refine ⟨⟨?_, first_seen_nodup t.inputs⟩, word_short t.target enters.1⟩
  rw [Transition.deduplicated, ne_eq, first_seen_eq_nil_iff]
  exact List.ne_nil_of_length_pos filled

theorem state_form_fields (codec : SymbolCodec) (record : State) (bytes : Bytes) (form : StateForm codec record bytes) :
    (merged record).WellFormed ∧ Short record.id ∧ ∀ t ∈ (merged record).transitions, Short t.target := by
  obtain ⟨_, _, _, _, named, _, _, listed⟩ := form
  have fields (t : Transition) (mem : t ∈ record.transitions) : t.deduplicated.WellFormed ∧ Short t.target := by
    obtain ⟨part, form⟩ := list_form_each _ _ _ listed t mem
    exact transition_form_fields codec t part form
  have filed : merged record = State.ofTransitions record.id record.acceptance
    (record.transitions.map Transition.deduplicated) := by
    rw [State.ofTransitions, Transition.file_all_gather, merged]
  refine ⟨?_, word_short record.id named.1, ?_⟩
  · rw [filed]
    apply State.of_transitions_well_formed
    intro t mem
    obtain ⟨u, within, rfl⟩ := List.mem_map.mp mem
    exact (fields u within).1
  · intro t mem
    obtain ⟨⟨u, within, target, _⟩, _⟩ := Transition.mem_gather t record.transitions mem
    rw [target]
    exact (fields u within).2

end Binary

namespace Definition

/-- No symbol of the charset is a blank code point. -/
def Visible (d : Definition) : Prop := ∀ c, [c] ∈ d.charset → c.isBlank = false

/-- What the text of a definition says: there is no line for an empty word. -/
def said (d : Definition) : Definition := { d with memory := d.memory.filter fun word => word ≠ [] }

@[simp] theorem said_lines (d : Definition) : d.said.printedLines = d.printedLines := by
  obtain ⟨configuration, charset, blank, memory⟩ := d
  match memory with
  | none => rfl
  | some [] => rfl
  | some (_ :: _) => rfl

theorem said_self (d : Definition) (filled : d.memory ≠ some []) : d.said = d := by
  obtain ⟨configuration, charset, blank, memory⟩ := d
  match memory with
  | none => rfl
  | some [] => exact absurd rfl filled
  | some (_ :: _) => rfl

variable (bytes : Bytes) (d : Definition) (decoded : Binary.decodeDefinition bytes = .ok d)

include decoded

theorem decoded_control : d.configuration.WellFormed ∧ d.configuration.labels = [] ∧
    ∀ s ∈ d.configuration.states, s.Fits d.charset := by
  have closed := (decoded_sound bytes d decoded).closed
  obtain ⟨r, form, _, rfl, _⟩ := (Binary.definition_form_decode bytes d).mp decoded
  obtain ⟨_, _, _, _, _, _, _, controls, _⟩ := form
  obtain ⟨_, _, _, distinct, listed⟩ := controls
  have fields (s : State) (mem : s ∈ r.meaning.configuration.states) :
      s.WellFormed ∧ Short s.id ∧ ∀ t ∈ s.transitions, Short t.target := by
    obtain ⟨record, known, rfl⟩ := List.mem_map.mp mem
    obtain ⟨part, form⟩ := list_form_each _ _ _ listed record known
    exact Binary.state_form_fields .char record part form
  have ids : r.meaning.configuration.states.map State.id = r.states.map State.id := List.map_map
  refine ⟨⟨ids ▸ distinct, fun s mem => (fields s mem).1⟩, rfl, ?_⟩
  intro s mem
  obtain ⟨good, id, targets⟩ := fields s mem
  exact ⟨good, id, targets, closed.symbols s mem⟩

theorem decoded_said_written (found : ¬ d.Lost) (visible : d.Visible) : d.said.Written := by
  obtain ⟨control, labels, fits⟩ := decoded_control bytes d decoded
  obtain ⟨closed, _⟩ := decoded_sound bytes d decoded
  have start : ∃ id, d.configuration.start = Label.ofId id ∧ (id = 0 ∨ id ∈ d.configuration.states.map State.id) := by
    simp only [Lost, not_forall, not_not] at found
    obtain ⟨s, known, begins⟩ := found
    exact ⟨s.id, begins, .inr (List.mem_map_of_mem known)⟩
  refine ⟨⟨⟨closed.blank, ?_, closed.symbols⟩, closed.single, closed.distinct⟩, control, visible, ?_,
    fun s mem => (fits s mem).id,
    fun s mem => (fits s mem).targets, start, labels⟩
  · intro word held
    exact closed.memory word (Option.filter_eq_some_iff.mp held).1
  · simp [said, Option.filter_eq_some_iff]

/-- A definition that was decoded and whose start id is one of its states always has a text. The
text is read as a definition that is equal exactly where no symbol is blank and the word to start
with is not empty; an empty word alone is lost. -/
theorem decoded_definition_is_read_back_iff (found : ¬ d.Lost) :
    ∃ t, d.toText = .ok t ∧
      ((∃ d', ofText t = .ok d' ∧ d'.same d = true) ↔ d.Visible ∧ d.memory ≠ some []) ∧
      (d.Visible → ofText t = .ok d.said) := by
  obtain ⟨control, _, fits⟩ := decoded_control bytes d decoded
  have printed : d.toText = .ok (Text.join "\n" d.printedLines ++ "\n") := by
    rw [toText, fit_lines d fits]
    rfl
  have back (visible : d.Visible) : ofText (Text.join "\n" d.printedLines ++ "\n") = .ok d.said := by
    rw [← said_lines]
    exact leads_text d.said _ (leads_lines d.said (decoded_said_written bytes d decoded found visible))
  refine ⟨_, printed, ⟨?_, ?_⟩, back⟩
  · rintro ⟨d', read, same⟩
    have written := of_lines_written (Text.splitLines _) d' read
    simp only [Definition.same, Bool.and_eq_true, decide_eq_true_eq] at same
    obtain ⟨⟨⟨_, charset⟩, _⟩, memory⟩ := same
    rw [Visible, ← charset, ← memory]
    exact ⟨written.solid, written.memory⟩
  · rintro ⟨visible, filled⟩
    refine ⟨d, by rw [back visible, said_self d filled], ?_⟩
    have starts : d.configuration.start.same d.configuration.start = true := by
      obtain ⟨id, start⟩ := (decoded_sound bytes d decoded).start
      rw [start]
      simp [Label.same, Json.sameKey, Label.ofId, Json.asInt?]
    simp [Definition.same, Configuration.same_states d.configuration d.configuration control rfl starts]

omit decoded

theorem merging_bytes_are_read_back :
    let once := [2] ++ Word.encode 4 1 ++ [97, 0, 0, 0] ++ [95, 0, 0, 0] ++ Word.encode 8 7
    let again := [1] ++ Word.encode 4 2 ++ [98, 0, 0, 0, 97, 0, 0, 0] ++ [98, 0, 0, 0] ++ Word.encode 8 7
    let inner := Word.encode 4 2 ++ (Word.encode 8 7 ++ [1] ++ Word.encode 4 0) ++
      (Word.encode 8 5 ++ [0] ++ Word.encode 4 2 ++ once ++ again)
    let bytes := Word.encode 4 76 ++ inner ++ [1, 0, 0, 0, 95] ++ [2, 0, 0, 0, 97, 98] ++ [3, 0, 0, 0, 97,
      98, 95] ++ Word.encode 8 5
    let d : Definition := {
      configuration := {
        states := [⟨7, .accept, []⟩, ⟨5, .none, [⟨7, .right, .text "_", [.text "a", .text "b"]⟩]⟩]
        start := Label.ofId 5 }
      charset := ["a", "b", "_"]
      blank := some "_"
      memory := some "ab" }
    Binary.decodeDefinition bytes = .ok d ∧ ¬ d.Lost ∧ d.Visible ∧ d.memory ≠ some [] ∧
      ∃ t d', d.toText = .ok t ∧ ofText t = .ok d' ∧ d'.same d = true := by
  intro once again inner bytes d
  have decoded : Binary.decodeDefinition bytes = .ok d := by decide +kernel
  have found : ¬ d.Lost := fun lost => lost ⟨5, .none, [⟨7, .right, .text "_", [.text "a", .text "b"]⟩]⟩ (by decide) rfl
  have visible : d.Visible := by
    have each : ∀ t ∈ d.charset, ∀ c ∈ t, c.isBlank = false := by decide
    exact fun c mem => each [c] mem c List.mem_cons_self
  have filled : d.memory ≠ some [] := by decide
  obtain ⟨t, printed, back, _⟩ := decoded_definition_is_read_back_iff bytes d decoded found
  obtain ⟨d', read, same⟩ := back.mpr ⟨visible, filled⟩
  exact ⟨decoded, found, visible, filled, t, d', printed, read, same⟩

def singleState (charset : List Text) (memory : Option Text) : Definition where
  configuration := { states := [⟨0, .accept, []⟩] }
  charset := charset
  blank := some "_"
  memory := memory

def singleStateBytes (charset memory : Bytes) : Bytes :=
  Word.encode 4 17 ++ (Word.encode 4 1 ++ Word.encode 8 0 ++ [1] ++ Word.encode 4 0) ++ [1, 0, 0, 0, 95] ++
    (Word.encode 4 memory.length ++ memory) ++ (Word.encode 4 charset.length ++ charset) ++ Word.encode 8 0

theorem empty_word_and_blank_symbol_are_lost :
    (∃ t, Binary.decodeDefinition (singleStateBytes [97, 95] []) = .ok (singleState ["a", "_"] (some [])) ∧
      (singleState ["a", "_"] (some [])).toText = .ok t ∧ ofText t = .ok (singleState ["a", "_"] none) ∧
      (singleState ["a", "_"] none).same (singleState ["a", "_"] (some [])) = false) ∧
    (∃ t, Binary.decodeDefinition (singleStateBytes [97, 32, 95] [97]) = .ok (singleState ["a", " ", "_"] (some "a")) ∧
      (singleState ["a", " ", "_"] (some "a")).toText = .ok t ∧ ofText t = .ok (singleState ["a", "_"] (some "a")) ∧
      (singleState ["a", "_"] (some "a")).same (singleState ["a", " ", "_"] (some "a")) = false) ∧
    ∀ charset memory, ¬ (singleState charset memory).Lost := by
  refine ⟨?_, ?_, ?_⟩
  · exact ⟨_, by decide +kernel, rfl, by decide +kernel, by decide +kernel⟩
  · exact ⟨_, by decide +kernel, rfl, by decide +kernel, by decide +kernel⟩
  · intro charset memory lost
    exact lost ⟨0, .accept, []⟩ List.mem_cons_self rfl

end Definition

end TapeMachine
