import TapeMachine.Binary.Definition
import TapeMachine.Fault
import TapeMachine.Proofs.BinaryForm

set_option autoImplicit false

namespace TapeMachine.Binary

open Decoder

structure DefinitionRecord where
  states : List State
  blank : Option Text
  memory : Option Text
  charset : Text
  start : Nat

def DefinitionRecord.meaning (r : DefinitionRecord) : Definition where
  configuration := { states := r.states.map merged, start := Label.ofId r.start }
  charset := (firstSeen r.charset).map ([·])
  blank := r.blank
  memory := r.memory

inductive DefinitionForm (r : DefinitionRecord) : Bytes → Prop where
  | mk (length inner blank memory charset start : Bytes) (counted : Int32Form inner.length length)
      (controls : ConfigurationForm .char r.states inner) (blanks : TextForm r.blank blank)
      (remembers : TextForm r.memory memory)
      (spans : TextForm (some r.charset) charset) (starts : UnsignedForm 8 r.start start) :
      DefinitionForm r (length ++ inner ++ blank ++ memory ++ charset ++ start)

theorem place_ne_nil (t : Text) (ts : List Text) : Text.place t ts ≠ [] := by
  cases ts with
  | nil => simp [Text.place]
  | cons u us =>
      rw [Text.place]
      split <;> simp

@[simp] theorem sorted_nil_iff (ts : List Text) : Text.sorted ts = [] ↔ ts = [] := by
  cases ts with
  | nil => simp [Text.sorted]
  | cons t ts => simpa [Text.sorted] using place_ne_nil t (ts.foldr Text.place [])

theorem foreign_nothing_iff (d : Definition) : d.foreignTexts = [] ↔ ∀ t ∈ d.usedTexts, t ∈ d.charset := by
  rw [Definition.foreignTexts, sorted_nil_iff, first_seen_eq_nil_iff, List.filter_eq_nil_iff]
  simp

theorem covered_iff (d : Definition)
    (chars : ∀ s ∈ d.configuration.states, ∀ t ∈ s.transitions, ∀ x ∈ t.output :: t.inputs, ∃ c, x = .char c) :
    d.Covered ↔ d.foreignTexts = [] := by
  rw [foreign_nothing_iff]
  simp only [Definition.usedTexts, List.mem_append, List.mem_flatMap, List.mem_filterMap,
    List.mem_map, Option.mem_toList]
  constructor
  · rintro covered t ((⟨c, mem, rfl⟩ | blank) | ⟨s, mem, u, within, x, used, same⟩)
    · cases memory : d.memory with
      | none => simp [memory] at mem
      | some word => exact covered.memory word memory c (by simpa [memory] using mem)
    · exact covered.blank t blank
    · obtain ⟨c, rfl, declared⟩ := covered.symbols s mem u within x used
      cases same
      exact declared
  · intro used
    refine ⟨fun t blank => used t (.inl (.inr blank)), ?_, ?_⟩
    · intro word memory c mem
      exact used [c] (.inl (.inl ⟨c, by simpa [memory] using mem, rfl⟩))
    · intro s mem t within x listed
      obtain ⟨c, rfl⟩ := chars s mem t within x listed
      exact ⟨c, rfl, used [c] (.inr ⟨s, mem, t, within, .char c, listed, rfl⟩)⟩

theorem merged_chars (records : List State) (bytes : Bytes) (form : ConfigurationForm .char records bytes) :
    ∀ s ∈ records.map merged, ∀ t ∈ s.transitions, ∀ x ∈ t.output :: t.inputs, ∃ c, x = .char c := by
  obtain ⟨count, states, counted, distinct, listed⟩ := form
  have char (x : Symbol) (bytes : Bytes) (form : SymbolForm .char x bytes) : ∃ c, x = .char c := by
    cases form with
    | char c => exact ⟨c, rfl⟩
  intro s mem t within x used
  obtain ⟨record, known, rfl⟩ := List.mem_map.mp mem
  obtain ⟨part, id, tag, count, transitions, named, tagged, counted, transitionsListed⟩ :=
    list_form_each _ _ _ listed record known
  obtain ⟨⟨u, first, _, writes⟩, inputs⟩ := Transition.mem_gather t record.transitions within
  rcases List.mem_cons.mp used with rfl | reads
  · obtain ⟨part, action, count, inputs, output, target, _, _, _, _, written, _⟩ :=
      list_form_each _ _ _ transitionsListed u first
    rw [writes]
    exact char u.output output written
  · obtain ⟨v, known, listed⟩ := inputs x reads
    obtain ⟨part, action, count, inputs, output, target, _, _, _, read, _, _⟩ :=
      list_form_each _ _ _ transitionsListed v known
    obtain ⟨part, form⟩ := list_form_each _ _ _ read x listed
    exact char x part form

theorem inner_reads : inner.Reads fun c bytes => ∃ length body records, Int32Form body.length length ∧
    ConfigurationForm .char records body ∧ c = { states := records.map merged } ∧ bytes = length ++ body := by
  refine answers_congr _ _ _ (answers_bind _ _ _ _ (count_answers .configurationLength 1) fun size =>
    answers_checked _ _ (take_reads .configuration size) (fun bytes c => decodeConfiguration .char bytes = .ok c) _
      (fun bytes c decoded => by rw [decoded])
      (fun bytes none => by
        obtain ⟨fault, failed⟩ := only_fault _ none
        exact ⟨fault, by rw [failed]⟩)) ?_
  intro c bytes left
  simp only [configuration_form_decode]
  constructor
  · rintro ⟨size, length, body, ⟨counted, _⟩, ⟨_, ⟨same, rfl⟩, records, form, rfl⟩, rfl⟩
    exact ⟨length, body, records, same ▸ counted, form, rfl, rfl⟩
  · rintro ⟨length, body, records, counted, form, rfl, rfl⟩
    exact ⟨body.length, length, body, ⟨counted, by simp⟩, ⟨body, ⟨rfl, rfl⟩, records, form, rfl⟩, rfl⟩

theorem blank_reads : blank.Reads fun text bytes => TextForm text bytes ∧ ∀ t, text = some t → ∃ c, t = [c] := by
  refine answers_congr _ _ _ (answers_checked _ _ (text_reads .blank)
    (fun (text text' : Option Text) => text = text' ∧ ∀ t, text = some t → ∃ c, t = [c]) _ ?_ ?_) ?_
  · rintro text _ ⟨rfl, single⟩
    cases text with
    | none => rfl
    | some t =>
        obtain ⟨c, rfl⟩ := single t rfl
        rfl
  · intro text bad
    match text with
    | none => exact absurd ⟨rfl, by simp⟩ (bad none)
    | some [] => exact ⟨.badBlank [], rfl⟩
    | some [c] => exact absurd ⟨rfl, by simp⟩ (bad (some [c]))
    | some (c :: d :: t) => exact ⟨.badBlank (c :: d :: t), rfl⟩
  · intro text bytes left
    constructor
    · rintro ⟨_, form, rfl, single⟩
      exact ⟨form, single⟩
    · rintro ⟨form, single⟩
      exact ⟨text, form, rfl, single⟩

theorem charset_reads : charset.Reads fun t bytes => TextForm (some t) bytes := by
  refine answers_congr _ _ _ (answers_checked _ _ (text_reads .charset) (fun text t => text = some t) _
    (fun text t found => by rw [found])
    (fun text none => ⟨.noCharset, by rw [Option.eq_none_iff_forall_ne_some.mpr none]⟩)) ?_
  intro t bytes left
  simp only [exists_eq_right]

theorem check_alphabet_answers (d : Definition) :
    (checkAlphabet d).Answers fun d' bytes _ => d.foreignTexts = [] ∧ d' = d ∧ bytes = [] := by
  refine answers_congr _ _ _
    (answers_when _ (fun (_ : Unit) => d.foreignTexts = []) (fun _ => pure d) _ (fun _ => answers_pure d)
    (fun _ found => by rw [checkAlphabet, found]) ?_) (by simp)
  intro foreign
  cases found : d.foreignTexts with
  | nil => exact absurd found (foreign ())
  | cons t ts => exact ⟨.foreignSymbols (t :: ts), by rw [checkAlphabet, found]⟩

theorem definition_form_decode (bytes : Bytes) (d : Definition) :
    decodeDefinition bytes = .ok d ↔
      ∃ r, DefinitionForm r bytes ∧ (∀ t, r.blank = some t → ∃ c, t = [c]) ∧ d = r.meaning ∧ d.Covered := by
  refine Iff.trans (run_whole _ _ (answers_bind _ _ _ _ inner_reads fun c =>
    answers_bind _ _ _ _ blank_reads fun blank => answers_bind _ _ _ _ (text_reads .memory) fun memory =>
      answers_bind _ _ _ _ charset_reads fun charset => answers_bind _ _ _ _ (unsigned_reads .start 8) fun start =>
        answers_bind _ _ _ _ finish_answers fun _ => check_alphabet_answers _) ?_ bytes d) ?_
  · rintro d bytes left ⟨_, _, _, _,
      ⟨_, _, _, _, ⟨_, _, _, _, ⟨_, _, _, _, ⟨_, _, _, _, ⟨_, _, _, ⟨_, done⟩, _⟩, _⟩, _⟩, _⟩, _⟩, _⟩
    exact (List.append_eq_nil_iff.mp done).2
  · constructor
    · rintro ⟨_, _, _, ⟨length, body, records, counted, controls, rfl, rfl⟩, ⟨blank, blankBytes, _, ⟨blanks, single⟩,
        ⟨memory, memoryBytes, _, remembers, ⟨charset, charsetBytes, _, spans, ⟨start, startBytes, _, starts,
          ⟨_, _, _, ⟨rfl, _⟩, ⟨known, rfl, rfl⟩, rfl⟩, rfl⟩, rfl⟩, rfl⟩, rfl⟩, rfl⟩
      have form := DefinitionForm.mk (r := ⟨records, blank, memory, charset, start⟩) length body blankBytes memoryBytes
        charsetBytes startBytes counted controls blanks remembers spans starts
      refine ⟨_, by simpa using form, single, rfl, ?_⟩
      exact (covered_iff (DefinitionRecord.meaning ⟨records, blank, memory, charset, start⟩)
        (merged_chars records body controls)).mpr known
    · rintro ⟨r, form, single, rfl, covered⟩
      obtain ⟨length, body, blank, memory, charset, start, counted, controls, blanks, remembers, spans, starts⟩ := form
      have known := (covered_iff r.meaning (merged_chars r.states body controls)).mp covered
      exact ⟨{ states := r.states.map merged }, length ++ body, blank ++ (memory ++ (charset ++ start)),
        ⟨length, body, r.states, counted, controls, rfl, rfl⟩, ⟨r.blank, blank, _, ⟨blanks, single⟩,
          ⟨r.memory, memory, _, remembers, ⟨r.charset, charset, _, spans, ⟨r.start, start, [], starts,
            ⟨(), [], [], ⟨rfl, rfl⟩, ⟨known, rfl, rfl⟩, rfl⟩, by simp⟩, rfl⟩, rfl⟩, rfl⟩, by simp⟩

/-- Both decoders take exactly the documented forms and give what these stand for; all else they refuse as malformed. -/
theorem decoders_take_exactly_the_forms (codec : SymbolCodec) (bytes : Bytes) :
    (∀ c, decodeConfiguration codec bytes = .ok c ↔
      ∃ records, ConfigurationForm codec records bytes ∧ c = { states := records.map merged }) ∧
    (∀ d, decodeDefinition bytes = .ok d ↔
      ∃ r, DefinitionForm r bytes ∧ (∀ t, r.blank = some t → ∃ c, t = [c]) ∧ d = r.meaning ∧ d.Covered) ∧
    ((∃ fault, decodeConfiguration codec bytes = .error fault ∧ (Fault.ofDecode fault).kind = .malformedBytes) ↔
      ¬ ∃ records, ConfigurationForm codec records bytes) ∧
    ((∃ fault, decodeDefinition bytes = .error fault ∧ (Fault.ofDecode fault).kind = .malformedBytes) ↔
      ¬ ∃ r, DefinitionForm r bytes ∧ (∀ t, r.blank = some t → ∃ c, t = [c]) ∧ r.meaning.Covered) := by
  refine ⟨configuration_form_decode codec bytes, definition_form_decode bytes, ?_, ?_⟩
  · constructor
    · rintro ⟨fault, failed, _⟩ ⟨records, form⟩
      have taken := (configuration_form_decode codec bytes _).mpr ⟨records, form, rfl⟩
      rw [failed] at taken
      cases taken
    · intro formless
      obtain ⟨fault, failed⟩ := only_fault (decodeConfiguration codec bytes) fun c taken => by
        obtain ⟨records, form, _⟩ := (configuration_form_decode codec bytes c).mp taken
        exact formless ⟨records, form⟩
      exact ⟨fault, failed, rfl⟩
  · constructor
    · rintro ⟨fault, failed, _⟩ ⟨r, form, single, covered⟩
      have taken := (definition_form_decode bytes _).mpr ⟨r, form, single, rfl, covered⟩
      rw [failed] at taken
      cases taken
    · intro formless
      obtain ⟨fault, failed⟩ := only_fault (decodeDefinition bytes) fun d taken => by
        obtain ⟨r, form, single, rfl, covered⟩ := (definition_form_decode bytes d).mp taken
        exact formless ⟨r, form, single, covered⟩
      exact ⟨fault, failed, rfl⟩

example : decodeConfiguration .int32 ([1, 0, 0, 0] ++ [7, 0, 0, 0, 0, 0, 0, 0] ++ [1] ++ [1, 0, 0, 0] ++
    ([2] ++ [1, 0, 0, 0] ++ [255, 255, 255, 255] ++ [5, 0, 0, 0] ++ [9, 0, 0, 0, 0, 0, 0, 0])) =
    .ok { states := [⟨7, .accept, [⟨9, .right, .int 5, [.int (-1)]⟩]⟩] } := rfl

end TapeMachine.Binary
