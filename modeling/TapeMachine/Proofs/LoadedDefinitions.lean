import TapeMachine.Proofs.BinaryRoundTrip
import TapeMachine.Proofs.BytesToText
import TapeMachine.Proofs.RunStart
import TapeMachine.Proofs.WordReports

set_option autoImplicit false

namespace TapeMachine

namespace Definition

structure Filed (d : Definition) : Prop where
  sound : d.Sound
  control : d.configuration.WellFormed
  fits : ∀ s ∈ d.configuration.states, s.Fits d.charset
  scalar : ∀ c, [c] ∈ d.charset → c.isSurrogate = false

structure Narrow (d : Definition) : Prop where
  ids : ∀ s ∈ d.configuration.states, s.id < twoTo 64
  targets : ∀ s ∈ d.configuration.states, ∀ t ∈ s.transitions, t.target < twoTo 64
  start : ∀ id, d.configuration.start = Label.ofId id → id < twoTo 64
  control : d.configuration.byteCount < twoTo 31
  texts : ∀ t ∈ d.blank.toList ++ d.memory.toList ++ [d.charset.flatten], ∀ body,
    Utf8.encode t = some body → body.length < twoTo 31

theorem clean_filed (d : Definition) (clean : d.Clean) : d.Filed where
  sound := d.clean_sound clean
  control := clean.written.control
  fits := fun s mem => written_fits d s clean.written mem
  scalar := fun c mem => clean.scalar [c] mem c List.mem_cons_self

theorem decoded_filed (bytes : Bytes) (d : Definition) (decoded : Binary.decodeDefinition bytes = .ok d) : d.Filed := by
  obtain ⟨control, _, fits⟩ := decoded_control bytes d decoded
  refine ⟨decoded_sound bytes d decoded, control, fits, ?_⟩
  obtain ⟨r, form, _, rfl, _⟩ := (Binary.definition_form_decode bytes d).mp decoded
  obtain ⟨_, _, _, _, _, _, _, _, _, _, spans, _⟩ := form
  intro c mem
  obtain ⟨e, listed, same⟩ := List.mem_map.mp mem
  cases same
  cases spans with
  | present _ _ body written _ =>
      exact Text.encode_scalar r.charset body written c ((mem_first_seen c r.charset).mp listed)

theorem load_filed (path : Path) (d : Definition) (s s' : Session)
    (ran : (load path).runIn s = (.ok d, s')) : d.Filed := by
  rw [load] at ran
  split at ran
  · obtain ⟨bytes, t, _, ran⟩ := (Job.bind_run_ok _ _ _ _ _).mp ran
    rw [Job.run_lift] at ran
    exact decoded_filed bytes d ((map_error_ok _ _ d).mp (Prod.mk.inj ran).1)
  · split at ran
    · obtain ⟨text, t, _, ran⟩ := (Job.bind_run_ok _ _ _ _ _).mp ran
      rw [Job.run_lift] at ran
      obtain ⟨bytes, decoded⟩ := decode_base64_bytes text d ((map_error_ok _ _ d).mp (Prod.mk.inj ran).1)
      exact decoded_filed bytes d decoded
    · exact clean_filed d (load_lines_clean path d s s' ran)

variable (d : Definition) (filed : d.Filed)

include filed

theorem filed_text : ∃ t, d.toText = .ok t := by
  refine ⟨Text.join "\n" d.printedLines ++ "\n", ?_⟩
  rw [toText, fit_lines d filed.fits]
  rfl

theorem narrow_encoded (narrow : d.Narrow) : ∃ bytes, Binary.encodeDefinition d = .ok bytes := by
  obtain ⟨id, start⟩ := filed.sound.start
  have begins : ∃ n : Nat, n < twoTo 64 ∧ Quantity.whole d.configuration.start = .ok (n : Int) :=
    ⟨id, narrow.start id start, by rw [start]; rfl⟩
  exact encoded_exists d filed.sound.closed filed.control narrow.ids narrow.targets begins
    filed.scalar narrow.control narrow.texts

theorem encoded_narrow (bytes : Bytes) (encoded : Binary.encodeDefinition d = .ok bytes) : d.Narrow := by
  obtain ⟨n, named, form⟩ := (Binary.encode_definition_iff d bytes filed.control).mp encoded
  obtain ⟨length, inner, blank, memory, charset, start, counted, controls, blanks, remembers, spans, starts⟩ := form
  have counted_text (t : Option Text) (part : Bytes) (form : TextForm t part) :
      ∀ u ∈ t.toList, ∀ body, Utf8.encode u = some body → body.length < twoTo 31 := by
    cases form with
    | absent => simp
    | present u length body written counted =>
        intro v mem other same
        obtain rfl : v = u := by simpa using mem
        rw [written] at same
        cases same
        exact_mod_cast counted.2.1
  have size := Binary.configuration_form_length .char d.configuration inner controls
  obtain ⟨_, _, _, _, listed⟩ := controls
  refine ⟨?_, ?_, ?_, ?_, ?_⟩
  · intro s mem
    obtain ⟨_, form⟩ := list_form_each _ _ _ listed s mem
    obtain ⟨_, _, _, _, named, _, _, _⟩ := form
    exact named.1
  · intro s mem t within
    obtain ⟨_, form⟩ := list_form_each _ _ _ listed s mem
    obtain ⟨_, _, _, _, _, _, _, listed⟩ := form
    obtain ⟨_, form⟩ := list_form_each _ _ _ listed t within
    obtain ⟨_, _, _, _, _, _, _, _, _, _, enters⟩ := form
    exact enters.1
  · intro id begins
    rw [begins] at named
    obtain rfl : id = n := Int.ofNat_inj.mp (Except.ok.inj named)
    exact starts.1
  · rw [← size]
    exact_mod_cast counted.2.1
  · simp only [List.forall_mem_append]
    exact ⟨⟨counted_text d.blank blank blanks, counted_text d.memory memory remembers⟩,
      counted_text (some d.charset.flatten) charset spans⟩

theorem encoded_iff_narrow : (∃ bytes, Binary.encodeDefinition d = .ok bytes) ↔ d.Narrow :=
  ⟨fun ⟨bytes, encoded⟩ => encoded_narrow d filed bytes encoded, narrow_encoded d filed⟩

end Definition

end TapeMachine
