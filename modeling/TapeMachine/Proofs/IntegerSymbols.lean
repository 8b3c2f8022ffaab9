import TapeMachine.Proofs.Reencoding

set_option autoImplicit false

namespace TapeMachine

namespace Symbol

def number? : Symbol → Option Int
  | .int i => some i
  | .text t => (Literal.readInteger t).toOption
  | .null => none

def numbered (s : Symbol) : Symbol := (s.number?.map Symbol.int).getD s

theorem numbered_number (s : Symbol) (i : Int) (found : s.number? = some i) : s.numbered = .int i := by
  rw [numbered, found]
  rfl

end Symbol

/-- What is left of a transition when only the numbers of its symbols are kept. -/
def Transition.numbered (t : Transition) : Transition := (t.renamed Symbol.numbered).deduplicated

def State.numbered (s : State) : State := { s with transitions := s.transitions.map Transition.numbered }

def Transition.used (t : Transition) : List Symbol := t.output :: t.inputs

def State.used (s : State) : List Symbol := s.transitions.flatMap Transition.used

def Configuration.used (c : Configuration) : List Symbol := c.states.flatMap State.used

theorem Symbol.numbered_same_iff (s : Symbol) (known : ∃ i, s.number? = some i) : s.numbered = s ↔ ∃ i, s = .int i := by
  obtain ⟨i, found⟩ := known
  rw [numbered_number s i found]
  constructor
  · intro same
    exact ⟨i, same.symm⟩
  · intro whole
    obtain ⟨n, rfl⟩ := whole
    cases found
    rfl

theorem Transition.numbered_same_iff (t : Transition) (distinct : t.inputs.Nodup)
    (known : ∀ x ∈ t.used, ∃ i, x.number? = some i) :
    t.numbered = t ↔ ∀ x ∈ t.used, ∃ i, x = .int i := by
  constructor
  · intro same x mem
    have output : t.output.numbered = t.output := congrArg Transition.output same
    have inputs : firstSeen (t.inputs.map Symbol.numbered) = t.inputs := congrArg Transition.inputs same
    rcases List.mem_cons.mp mem with rfl | listed
    · exact (Symbol.numbered_same_iff t.output (known _ mem)).mp output
    · rw [← inputs, mem_first_seen] at listed
      obtain ⟨y, within, rfl⟩ := List.mem_map.mp listed
      obtain ⟨i, found⟩ := known y (List.mem_cons_of_mem t.output within)
      exact ⟨i, Symbol.numbered_number y i found⟩
  · intro whole
    have kept (x : Symbol) (mem : x ∈ t.used) : x.numbered = x :=
      (Symbol.numbered_same_iff x (known x mem)).mpr (whole x mem)
    have inputs : t.inputs.map Symbol.numbered = t.inputs :=
      (Binary.map_same_iff Symbol.numbered t.inputs).mpr fun x mem => kept x (List.mem_cons_of_mem t.output mem)
    rw [numbered, renamed, kept t.output List.mem_cons_self, inputs, deduplicated,
      first_seen_of_nodup t.inputs distinct]

theorem State.numbered_same_iff (s : State) (good : s.WellFormed) (known : ∀ x ∈ s.used, ∃ i, x.number? = some i) :
    s.numbered = s ↔ ∀ x ∈ s.used, ∃ i, x = .int i := by
  have fields : s.numbered = s ↔ s.transitions.map Transition.numbered = s.transitions := by
    obtain ⟨id, acceptance, transitions⟩ := s
    simp [numbered]
  rw [fields, Binary.map_same_iff, used, List.forall_mem_flatMap]
  refine forall₂_congr fun t mem => ?_
  exact t.numbered_same_iff (good.transitions t mem).distinct fun x listed =>
    known x (List.mem_flatMap_of_mem mem listed)

theorem Configuration.numbered_same_iff (c : Configuration) (good : c.WellFormed)
    (known : ∀ x ∈ c.used, ∃ i, x.number? = some i) :
    c.states.map State.numbered = c.states ↔ ∀ x ∈ c.used, ∃ i, x = .int i := by
  rw [Binary.map_same_iff, used, List.forall_mem_flatMap]
  refine forall₂_congr fun s mem => ?_
  exact s.numbered_same_iff (good.states s mem) fun x listed => known x (List.mem_flatMap_of_mem mem listed)

namespace Binary

theorem number_form_iff (s : Symbol) (bytes : Bytes) :
    SymbolForm .int32 s bytes ↔ ∃ i, s = .int i ∧ Int32Form i bytes := by
  constructor
  · intro form
    cases form with
    | int32 i _ written => exact ⟨i, rfl, written⟩
  · intro found
    obtain ⟨i, rfl, written⟩ := found
    exact .int32 i bytes written

theorem encode_number_iff (s : Symbol) (bytes : Bytes) :
    SymbolCodec.encode .int32 s = .ok bytes ↔ SymbolForm .int32 s.numbered bytes := by
  have signed (i : Int) : Int32Form i bytes ↔ Word.encodeSigned? i = some bytes := by
    rw [← encode_signed_iff, out_of_range_ok]
  rw [number_form_iff]
  simp only [signed]
  cases s with
  | null => simp [SymbolCodec.encode, Symbol.numbered, Symbol.number?]
  | int i => cases written : Word.encodeSigned? i <;> simp [SymbolCodec.encode, Symbol.numbered,
      Symbol.number?, written]
  | text t =>
      cases read : Literal.readInteger t with
      | error fault => simp [SymbolCodec.encode, Symbol.numbered, Symbol.number?, read, Except.toOption]
      | ok i =>
          cases written : Word.encodeSigned? i <;>
            simp [SymbolCodec.encode, Symbol.numbered, Symbol.number?, read, written, Except.toOption]

theorem merged_numbered (s : State) (good : s.WellFormed) : merged (s.renamed Symbol.numbered) = s.numbered := by
  have targets : ((s.transitions.map (Transition.renamed Symbol.numbered)).map Transition.target).Nodup := by
    simpa [Function.comp_def, Transition.renamed] using good.targets
  rw [merged, State.renamed, Transition.gather_of_distinct _ targets, List.map_map]
  rfl

theorem number_form_fits (s : Symbol) (bytes : Bytes) (form : SymbolForm .int32 s.numbered bytes) :
    ∃ i, s.number? = some i ∧ -(twoTo 31 : Int) ≤ i ∧ i < twoTo 31 := by
  obtain ⟨i, found, low, high, _⟩ := (number_form_iff _ _).mp form
  cases known : s.number? with
  | some n =>
      rw [Symbol.numbered_number s n known] at found
      cases found
      exact ⟨i, rfl, low, high⟩
  | none =>
      rw [Symbol.numbered, known] at found
      obtain rfl : s = .int i := found
      cases known

theorem configuration_form_fits (c : Configuration) (bytes : Bytes)
    (form : ConfigurationForm .int32 (c.states.map (State.renamed Symbol.numbered)) bytes)
    (x : Symbol) (mem : x ∈ c.used) :
    ∃ i, x.number? = some i ∧ -(twoTo 31 : Int) ≤ i ∧ i < twoTo 31 := by
  obtain ⟨s, known, within⟩ := List.mem_flatMap.mp mem
  obtain ⟨t, filed, listed⟩ := List.mem_flatMap.mp within
  obtain ⟨_, _, _, _, states⟩ := form
  obtain ⟨_, _, _, _, _, _, _, _, transitions⟩ := list_form_each _ _ _ states _ (List.mem_map_of_mem known)
  obtain ⟨_, _, _, _, _, _, _, _, _, reads, writes, _⟩ := list_form_each _ _ _ transitions _ (List.mem_map_of_mem filed)
  rcases List.mem_cons.mp listed with rfl | input
  · exact number_form_fits t.output _ writes
  · obtain ⟨part, form⟩ := list_form_each _ _ _ reads _ (List.mem_map_of_mem input)
    exact number_form_fits x part form

/-- What the encoder of numbers writes is decoded as the same states in the same order, each symbol
as the number that it is or spells. So the symbols come back where all of them are numbers, and
nowhere else. -/
theorem integer_codec_gives_numbers_back (c : Configuration) (good : c.WellFormed) (bytes : Bytes)
    (written : encodeConfiguration .int32 c = .ok bytes) :
    decodeConfiguration .int32 bytes = .ok { states := c.states.map State.numbered } ∧
      (∀ x ∈ c.used, ∃ i, x.number? = some i ∧ -(twoTo 31 : Int) ≤ i ∧ i < twoTo 31) ∧
      (c.states.map State.numbered = c.states ↔ ∀ x ∈ c.used, ∃ i, x = .int i) := by
  have form := (encode_configuration_form .int32 Symbol.numbered encode_number_iff c bytes good).mp written
  have fits := configuration_form_fits c bytes form
  have states : (c.states.map (State.renamed Symbol.numbered)).map merged = c.states.map State.numbered := by
    rw [List.map_map]
    exact List.map_congr_left fun s mem => merged_numbered s (good.states s mem)
  refine ⟨?_, fits, ?_⟩
  · rw [configuration_form_decode]
    exact ⟨_, form, by rw [states]⟩
  · apply c.numbered_same_iff good
    intro x mem
    obtain ⟨i, found, _⟩ := fits x mem
    exact ⟨i, found⟩

theorem spelt_numbers_come_back_as_numbers :
    let toTen : Transition := ⟨10, .left, .int (-1), [.int 0, .text " +1_0", .int 10]⟩
    let toNine : Transition := ⟨9, .stay, .text "-07", [.int 7]⟩
    let c : Configuration := { states := [⟨10, .reject, []⟩, ⟨twoTo 40, .none, [toTen, toNine]⟩] }
    ∃ bytes, c.WellFormed ∧ encodeConfiguration .int32 c = .ok bytes ∧
      decodeConfiguration .int32 bytes = .ok { states := [⟨10, .reject, []⟩, ⟨twoTo 40, .none,
        [⟨10, .left, .int (-1), [.int 0, .int 10]⟩, ⟨9, .stay, .int (-7), [.int 7]⟩]⟩] } := by
  intro toTen toNine c
  have good : c.WellFormed := by
    refine ⟨by decide, ?_⟩
    simp only [c, List.forall_mem_cons]
    refine ⟨⟨by decide, by simp⟩, ⟨by decide, ?_⟩, by simp⟩
    simp only [List.forall_mem_cons]
    exact ⟨⟨by decide, by decide⟩, ⟨by decide, by decide⟩, by simp⟩
  have written : (encodeConfiguration .int32 c).toOption.isSome = true := by decide +kernel
  obtain ⟨bytes, found⟩ := Option.isSome_iff_exists.mp written
  have encoded := (to_option_ok _ _).mp found
  obtain ⟨decoded, _⟩ := integer_codec_gives_numbers_back c good bytes encoded
  exact ⟨bytes, good, encoded, by rw [decoded]; decide +kernel⟩

theorem digit_text_comes_back_as_number :
    let c : Configuration := { states := [⟨0, .none, [⟨0, .stay, .text "1", [.text "1", .int 1]⟩]⟩] }
    let bytes : Bytes := [1, 0, 0, 0] ++ [0, 0, 0, 0, 0, 0, 0, 0] ++ [0] ++ [1, 0, 0, 0] ++ [0] ++ [2, 0, 0, 0] ++
      [1, 0, 0, 0] ++ [1, 0, 0, 0] ++ [1, 0, 0, 0] ++ [0, 0, 0, 0, 0, 0, 0, 0]
    c.WellFormed ∧ encodeConfiguration .int32 c = .ok bytes ∧
      decodeConfiguration .int32 bytes = .ok { states := [⟨0, .none, [⟨0, .stay, .int 1, [.int 1]⟩]⟩] } ∧
      ¬ ∃ c', decodeConfiguration .int32 bytes = .ok c' ∧ c'.states = c.states := by
  intro c bytes
  have good : c.WellFormed := by
    refine ⟨by decide, ?_⟩
    simp only [c, List.forall_mem_cons]
    refine ⟨⟨by decide, ?_⟩, by simp⟩
    simp only [List.forall_mem_cons]
    exact ⟨⟨by decide, by decide⟩, by simp⟩
  have decoded : decodeConfiguration .int32 bytes = .ok { states := [⟨0, .none, [⟨0, .stay, .int 1, [.int 1]⟩]⟩] } := by
    decide +kernel
  refine ⟨good, by decide +kernel, decoded, ?_⟩
  intro returned
  obtain ⟨c', again, same⟩ := returned
  rw [decoded] at again
  cases again
  exact absurd same (by decide +kernel)

end Binary

end TapeMachine
