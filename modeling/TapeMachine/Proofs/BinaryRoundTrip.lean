import TapeMachine.Proofs.Base64
import TapeMachine.Proofs.Encoding

set_option autoImplicit false

namespace TapeMachine

theorem merged_well_formed (s : State) (good : s.WellFormed) : Binary.merged s = s := by
  rw [Binary.merged, Transition.gather_of_well_formed s.transitions good.targets good.transitions]

namespace Definition

/-- The definition with a start id in place of its start label, and with nothing filed under another label. -/
def numbered (d : Definition) (start : Nat) : Definition :=
  { d with configuration := { states := d.configuration.states, start := Label.ofId start } }

theorem charset_flatten (d : Definition) (closed : d.Closed) : (firstSeen d.charset.flatten).map ([·]) = d.charset := by
  obtain ⟨cs, same, distinct⟩ := charset_points d closed
  have flat : (cs.map ([·])).flatten = cs := by
    rw [← List.flatMap_def]
    exact List.flatMap_singleton' cs
  rw [same, flat, first_seen_of_nodup cs distinct]

theorem record_meaning (d : Definition) (start : Nat) (closed : d.Closed) (good : d.configuration.WellFormed) :
    Binary.DefinitionRecord.meaning ⟨d.configuration.states, d.blank, d.memory, d.charset.flatten, start⟩ =
      d.numbered start := by
  have states : d.configuration.states.map Binary.merged = d.configuration.states := by
    refine (List.map_congr_left ?_).trans (List.map_id d.configuration.states)
    exact fun s mem => merged_well_formed s (good.states s mem)
  rw [Binary.DefinitionRecord.meaning, states, charset_flatten d closed]
  rfl

theorem whole_same (label : Label) (n : Nat) (named : Quantity.whole label = .ok (n : Int)) :
    (Label.ofId n).same label = true := by
  cases label with
  | int i =>
      cases named
      simp [Label.same, Label.ofId, Json.sameKey, Json.asInt?]
  | bool b =>
      rw [Quantity.whole, Except.ok.injEq, Quantity.ofTruth] at named
      simp [Label.same, Label.ofId, Json.sameKey, Json.asInt?, named]
  | null => cases named
  | float d => cases named
  | text t => cases named
  | list items => cases named
  | object fields => cases named

theorem same_numbered (d : Definition) (start : Nat) (good : d.configuration.WellFormed)
    (named : Quantity.whole d.configuration.start = .ok (start : Int)) : (d.numbered start).same d = true := by
  have control := Configuration.same_states (d.numbered start).configuration d.configuration ⟨good.ids, good.states⟩ rfl
    (whole_same d.configuration.start start named)
  rw [same, control]
  simp [numbered]

theorem decode_base64_padded (d : Definition) (bytes : Bytes) (before after : Text) (left : Text.Gap before)
    (right : Text.Gap after)
    (decoded : Binary.decodeDefinition bytes = .ok d) :
    Binary.decodeBase64 (before ++ Base64.encode bytes ++ after) = .ok d := by
  have plain := Base64.encode_plain bytes
  have trimmed := Text.trim_gaps before after (Base64.encode bytes) left right fun c mem => (plain c mem).2
  have ascii : (Base64.encode bytes).all (fun c => decide (c.val < 0x80)) = true := by
    rw [List.all_eq_true]
    intro c mem
    exact decide_eq_true (plain c mem).1
  simp only [Binary.decodeBase64, trimmed, ascii, if_true, Base64.decode_encode, decoded]

theorem encoded_exists (d : Definition) (closed : d.Closed) (good : d.configuration.WellFormed)
    (ids : ∀ s ∈ d.configuration.states, s.id < twoTo 64)
    (targets : ∀ s ∈ d.configuration.states, ∀ t ∈ s.transitions, t.target < twoTo 64)
    (start : ∃ n : Nat, n < twoTo 64 ∧ Quantity.whole d.configuration.start = .ok (n : Int))
    (scalar : ∀ c, [c] ∈ d.charset → c.isSurrogate = false) (control : d.configuration.byteCount < twoTo 31)
    (texts : ∀ t ∈ d.blank.toList ++ d.memory.toList ++ [d.charset.flatten], ∀ body, Utf8.encode t = some body →
      body.length < twoTo 31) :
    ∃ bytes, Binary.encodeDefinition d = .ok bytes := by
  obtain ⟨n, small, named⟩ := start
  have chars (s : State) (mem : s ∈ d.configuration.states) (t : Transition) (within : t ∈ s.transitions) (x : Symbol)
      (used : x ∈ t.output :: t.inputs) : ∃ c, x = .char c := by
    obtain ⟨c, same, _⟩ := closed.symbols s mem t within x used
    exact ⟨c, same⟩
  obtain ⟨inner, controls⟩ := Binary.configuration_form_exists d.configuration good chars ids targets control
  obtain ⟨length, counted⟩ := count_form_exists inner.length (by
    rw [Binary.configuration_form_length .char d.configuration inner controls]
    exact control)
  obtain ⟨blank, blanks⟩ := Binary.text_form_exists d.blank
    (by
      intro t same c mem
      obtain ⟨e, rfl⟩ := closed.single t (closed.blank t same)
      rw [List.mem_singleton.mp mem]
      exact scalar e (closed.blank [e] same))
    (fun t same => texts t (by simp [same]))
  obtain ⟨memory, remembers⟩ := Binary.text_form_exists d.memory
    (fun t same c mem => scalar c (closed.memory t same c mem))
    (fun t same => texts t (by simp [same]))
  obtain ⟨charset, spans⟩ := Binary.text_form_exists (some d.charset.flatten)
    (by
      intro t same c mem
      cases same
      obtain ⟨u, known, within⟩ := List.mem_flatten.mp mem
      obtain ⟨e, rfl⟩ := closed.single u known
      rw [List.mem_singleton.mp within]
      exact scalar e known)
    (fun t same => texts t (by cases same; simp))
  obtain ⟨starting, starts⟩ := unsigned_form_exists 8 n small
  exact ⟨_, (Binary.encode_definition_iff d _ good).mpr
    ⟨n, named, .mk length inner blank memory charset starting counted controls blanks remembers spans starts⟩⟩

/-- A closed definition is read back from its bytes and from the text for these, with its states and
transitions in their order; and where every number fits its field there are such bytes. -/
theorem encoded_definition_is_read_back (d : Definition) (closed : d.Closed) (good : d.configuration.WellFormed) :
    (∀ bytes, Binary.encodeDefinition d = .ok bytes → ∃ (n : Nat) (text : Text),
      Quantity.whole d.configuration.start = .ok (n : Int) ∧ (d.numbered n).same d = true ∧
      Binary.decodeDefinition bytes = .ok (d.numbered n) ∧ Binary.encodeBase64 d = .ok text ∧
      ∀ u v, Text.Gap u → Text.Gap v → Binary.decodeBase64 (u ++ text ++ v) = .ok (d.numbered n)) ∧
    ((∀ s ∈ d.configuration.states, s.id < twoTo 64) →
      (∀ s ∈ d.configuration.states, ∀ t ∈ s.transitions, t.target < twoTo 64) →
      (∃ n : Nat, n < twoTo 64 ∧ Quantity.whole d.configuration.start = .ok (n : Int)) →
      (∀ c, [c] ∈ d.charset → c.isSurrogate = false) → d.configuration.byteCount < twoTo 31 →
      (∀ t ∈ d.blank.toList ++ d.memory.toList ++ [d.charset.flatten], ∀ body, Utf8.encode t = some body →
        body.length < twoTo 31) →
      ∃ bytes, Binary.encodeDefinition d = .ok bytes) := by
  refine ⟨?_, encoded_exists d closed good⟩
  intro bytes encoded
  obtain ⟨n, named, form⟩ := (Binary.encode_definition_iff d bytes good).mp encoded
  have meaning := record_meaning d n closed good
  have decoded : Binary.decodeDefinition bytes = .ok (d.numbered n) :=
    (Binary.definition_form_decode bytes (d.numbered n)).mpr ⟨_, form,
      fun t same => closed.single t (closed.blank t same),
      meaning.symm, ⟨closed.blank, closed.memory, closed.symbols⟩⟩
  have written : Binary.encodeBase64 d = .ok (Base64.encode bytes) := by
    rw [Binary.encodeBase64, encoded]
    rfl
  exact ⟨n, Base64.encode bytes, named, same_numbered d n good named, decoded, written,
    fun u v left right => decode_base64_padded (d.numbered n) bytes u v left right decoded⟩

theorem wide_definition_is_read_back :
    let d : Definition := {
      configuration := {
        states := [
          ⟨18446744073709551615, .reject, []⟩,
          ⟨2, .none, [⟨18446744073709551615, .left, .text "€", [.text "é", .text " "]⟩,
            ⟨2, .right, .text "😀", [.text "a"]⟩]⟩]
        start := .bool true }
      charset := ["a", "é", "€", "😀", " "]
      blank := some "é"
      memory := some [] }
    d.Closed ∧ d.configuration.WellFormed ∧ ∃ bytes text, Binary.encodeDefinition d = .ok bytes ∧
      Binary.encodeBase64 d = .ok text ∧
      Binary.decodeDefinition bytes = .ok (d.numbered 1) ∧ Binary.decodeBase64 (" \n" ++ text ++ "\t") =
        .ok (d.numbered 1) := by
  intro d
  have closed : d.Closed := by
    refine ⟨⟨?_, ?_, ?_⟩, ?_, by decide⟩
    · rintro t ⟨⟩
      decide
    · rintro word ⟨⟩
      decide
    · simp only [d, List.forall_mem_cons]
      refine ⟨by simp, ⟨?_, ?_, by simp⟩, by simp⟩
      · exact ⟨⟨_, rfl, by decide⟩, ⟨_, rfl, by decide⟩, ⟨_, rfl, by decide⟩, by simp⟩
      · exact ⟨⟨_, rfl, by decide⟩, ⟨_, rfl, by decide⟩, by simp⟩
    · simp only [d, List.forall_mem_cons]
      exact ⟨⟨_, rfl⟩, ⟨_, rfl⟩, ⟨_, rfl⟩, ⟨_, rfl⟩, ⟨_, rfl⟩, by simp⟩
  have good : d.configuration.WellFormed := by
    refine ⟨by decide, ?_⟩
    simp only [d, List.forall_mem_cons]
    refine ⟨⟨by decide, by simp⟩, ⟨by decide, ?_⟩, by simp⟩
    simp only [List.forall_mem_cons]
    exact ⟨⟨by decide, by decide⟩, ⟨by decide, by decide⟩, by simp⟩
  have scalar : ∀ t ∈ d.charset, ∀ c ∈ t, c.isSurrogate = false := by decide
  have short : ∀ t ∈ d.blank.toList ++ d.memory.toList ++ [d.charset.flatten],
    (Utf8.encode t).all (·.length < twoTo 31) = true := by decide
  have both := encoded_definition_is_read_back d closed good
  obtain ⟨bytes, encoded⟩ := both.2 (by decide) (by decide) ⟨1, by decide, rfl⟩
    (fun c mem => scalar [c] mem c List.mem_cons_self) (by decide) (fun t mem body written => by
      have bound := short t mem
      rw [written] at bound
      exact of_decide_eq_true bound)
  obtain ⟨n, text, named, _, decoded, written, padded⟩ := both.1 bytes encoded
  obtain rfl : n = 1 := by
    cases named
    rfl
  exact ⟨closed, good, bytes, text, encoded, written, decoded,
    padded " \n" "\t" (by unfold Text.Gap; decide) (by unfold Text.Gap; decide)⟩

end Definition

end TapeMachine
