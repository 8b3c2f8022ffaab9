import Mathlib.Algebra.GroupWithZero.Nat
import Mathlib.Algebra.Order.BigOperators.Group.List
import Mathlib.Algebra.Order.Group.Nat
import TapeMachine.Proofs.DefinitionForm

set_option autoImplicit false

namespace TapeMachine

theorem list_form_congr {α : Type} (Form Form' : α → Bytes → Prop) (items : List α) (bytes : Bytes)
    (same : ∀ a ∈ items, ∀ part, Form a part ↔ Form' a part) :
    ListForm Form items bytes ↔ ListForm Form' items bytes := by
  constructor
  · intro form
    induction form with
    | nil => exact .nil
    | cons a items front back first others ih =>
        exact .cons a items front back ((same a List.mem_cons_self front).mp first)
          (ih fun b mem => same b (List.mem_cons_of_mem a mem))
  · intro form
    induction form with
    | nil => exact .nil
    | cons a items front back first others ih =>
        exact .cons a items front back ((same a List.mem_cons_self front).mpr first)
          (ih fun b mem => same b (List.mem_cons_of_mem a mem))

theorem list_form_map {α β : Type} (Form : β → Bytes → Prop) (f : α → β) (items : List α) (bytes : Bytes) :
    ListForm Form (items.map f) bytes ↔ ListForm (fun a => Form (f a)) items bytes := by
  constructor
  · intro form
    induction items generalizing bytes with
    | nil =>
        cases form
        exact .nil
    | cons a items ih =>
        cases form with
        | cons _ _ front back first others => exact .cons a items front back first (ih back others)
  · intro form
    induction form with
    | nil => exact .nil
    | cons a items front back first others ih => exact .cons (f a) (items.map f) front back first ih

def Transition.renamed (image : Symbol → Symbol) (t : Transition) : Transition :=
  { t with output := image t.output, inputs := t.inputs.map image }

def State.renamed (image : Symbol → Symbol) (s : State) : State :=
  { s with transitions := s.transitions.map (Transition.renamed image) }

@[simp] theorem Transition.renamed_self : Transition.renamed (fun x => x) = fun t => t := by
  funext t
  simp [renamed]

@[simp] theorem State.renamed_self : State.renamed (fun x => x) = fun s => s := by
  funext s
  simp [renamed]

namespace Binary

@[simp] theorem out_of_range_ok (found : Option Bytes) (bytes : Bytes) :
    orOutOfRange found = .ok bytes ↔ found = some bytes := by
  cases found <;> simp [orOutOfRange]

theorem encode_id_iff (i : Int) (bytes : Bytes) : encodeId i = .ok bytes ↔ ∃ n :
    Nat, i = n ∧ UnsignedForm 8 n bytes := by
  rw [encodeId, out_of_range_ok, Word.encodeUnsigned?]
  simp only [Option.ite_none_right_eq_some, Option.some.injEq, UnsignedForm]
  constructor
  · rintro ⟨⟨low, high⟩, rfl⟩
    exact ⟨i.toNat, by omega, by omega, rfl⟩
  · rintro ⟨n, rfl, small, rfl⟩
    exact ⟨by omega, rfl⟩

theorem encode_signed_iff (i : Int) (bytes : Bytes) : orOutOfRange (Word.encodeSigned? i) = .ok bytes ↔
    Int32Form i bytes := by
  rw [out_of_range_ok, Word.encodeSigned?]
  simp only [Option.ite_none_right_eq_some, Option.some.injEq, Int32Form]
  constructor
  · rintro ⟨⟨low, high⟩, rfl⟩
    exact ⟨low, high, rfl⟩
  · rintro ⟨low, high, rfl⟩
    exact ⟨⟨low, high⟩, rfl⟩

theorem encode_count_iff (n : Nat) (bytes : Bytes) : encodeCount n = .ok bytes ↔ Int32Form n bytes :=
  encode_signed_iff n bytes

theorem encode_all_iff {α : Type} (encode : α → Except EncodeFault Bytes) (items : List α) (bytes : Bytes) :
    encodeAll encode items = .ok bytes ↔ ListForm (fun a part => encode a = .ok part) items bytes := by
  induction items generalizing bytes with
  | nil =>
      constructor
      · intro done
        cases done
        exact .nil
      · intro form
        cases form
        rfl
  | cons a items ih =>
      simp only [encodeAll, bind_ok, ih]
      constructor
      · rintro ⟨front, first, back, others, done⟩
        cases done
        exact .cons a items front back first others
      · intro form
        cases form with
        | cons a items front back first others => exact ⟨front, first, back, others, rfl⟩

theorem encode_char_iff (s : Symbol) (bytes : Bytes) :
    SymbolCodec.encode .char s = .ok bytes ↔ SymbolForm .char s bytes := by
  constructor
  · intro done
    match s, done with
    | .text [c], done =>
        cases done
        exact .char c
  · intro form
    cases form
    rfl

theorem action_tag_form (a : Action) (bytes : Bytes) : UnsignedForm 1 a.tag bytes ↔ bytes = Word.encode 1 a.tag := by
  have small : a.tag < Word.span 1 := by cases a <;> decide
  exact ⟨fun form => form.2, fun same => ⟨small, same⟩⟩

theorem acceptance_tag_form (a : Acceptance) (bytes : Bytes) :
    UnsignedForm 1 a.tag bytes ↔ bytes = Word.encode 1 a.tag := by
  have small : a.tag < Word.span 1 := by cases a <;> decide
  exact ⟨fun form => form.2, fun same => ⟨small, same⟩⟩

theorem encode_natural_iff (n : Nat) (bytes : Bytes) : encodeId n = .ok bytes ↔ UnsignedForm 8 n bytes := by
  rw [encode_id_iff]
  constructor
  · rintro ⟨m, same, form⟩
    rwa [Int.ofNat_inj.mp same]
  · intro form
    exact ⟨n, rfl, form⟩

section Symbols

variable (codec : SymbolCodec) (image : Symbol → Symbol)
  (each : ∀ s bytes, codec.encode s = .ok bytes ↔ SymbolForm codec (image s) bytes)

include each

theorem encode_transition_form (t : Transition) (bytes : Bytes) (filled : t.inputs ≠ []) :
    encodeTransition codec t = .ok bytes ↔ TransitionForm codec (t.renamed image) bytes := by
  have some : 1 ≤ (t.renamed image).inputs.length := by
    simpa [Transition.renamed, Nat.one_le_iff_ne_zero] using filled
  have size : (t.renamed image).inputs.length = t.inputs.length := List.length_map image
  have symbols (part : Bytes) := list_form_map (SymbolForm codec) image t.inputs part
  simp only [encodeTransition, bind_ok, encode_count_iff, encode_all_iff, each, encode_natural_iff, ← symbols]
  constructor
  · intro written
    obtain ⟨count, counted, inputs, reads, output, writes, target, enters, done⟩ := written
    cases done
    rw [← size] at counted
    exact .mk _ count inputs output target ((action_tag_form _ _).mpr rfl) some counted reads writes enters
  · intro form
    obtain ⟨tag, count, inputs, output, target, tagged, _, counted, reads, writes, enters⟩ := form
    obtain rfl := (action_tag_form _ _).mp tagged
    rw [size] at counted
    exact ⟨count, counted, inputs, reads, output, writes, target, enters, rfl⟩

theorem encode_state_form (s : State) (bytes : Bytes) (filled : ∀ t ∈ s.transitions, t.inputs ≠ []) :
    encodeState codec s = .ok bytes ↔ StateForm codec (s.renamed image) bytes := by
  have size : (s.renamed image).transitions.length = s.transitions.length := List.length_map _
  have transitions (part : Bytes) :
      ListForm (fun t part => encodeTransition codec t = .ok part) s.transitions part ↔
        ListForm (TransitionForm codec) (s.renamed image).transitions part := by
    rw [State.renamed, list_form_map]
    exact list_form_congr _ _ s.transitions part fun t mem part =>
      encode_transition_form codec image each t part (filled t mem)
  simp only [encodeState, bind_ok, encode_count_iff, encode_all_iff, transitions, encode_natural_iff]
  constructor
  · intro written
    obtain ⟨id, named, count, counted, transitions, listed, done⟩ := written
    cases done
    rw [← size] at counted
    exact .mk id _ count transitions named ((acceptance_tag_form _ _).mpr rfl) counted listed
  · intro form
    obtain ⟨id, tag, count, transitions, named, tagged, counted, listed⟩ := form
    obtain rfl := (acceptance_tag_form _ _).mp tagged
    rw [size] at counted
    exact ⟨id, named, count, counted, transitions, listed, rfl⟩

theorem encode_configuration_form (c : Configuration) (bytes : Bytes) (good : c.WellFormed) :
    encodeConfiguration codec c = .ok bytes ↔ ConfigurationForm codec (c.states.map (State.renamed image)) bytes := by
  have size : (c.states.map (State.renamed image)).length = c.states.length := List.length_map _
  have distinct : ((c.states.map (State.renamed image)).map State.id).Nodup := by
    simpa [Function.comp_def, State.renamed] using good.ids
  have states (part : Bytes) :
      ListForm (fun s part => encodeState codec s = .ok part) c.states part ↔
        ListForm (StateForm codec) (c.states.map (State.renamed image)) part := by
    rw [list_form_map]
    apply list_form_congr
    intro s mem part
    exact encode_state_form codec image each s part fun t listed => ((good.states s mem).transitions t listed).filled
  simp only [encodeConfiguration, bind_ok, encode_count_iff, encode_all_iff, states]
  constructor
  · intro written
    obtain ⟨count, counted, states, listed, done⟩ := written
    cases done
    rw [← size] at counted
    exact .mk count states counted distinct listed
  · intro form
    obtain ⟨count, states, counted, _, listed⟩ := form
    rw [size] at counted
    exact ⟨count, counted, states, listed, rfl⟩

end Symbols

theorem encode_configuration_iff (c : Configuration) (bytes : Bytes) (good : c.WellFormed) :
    encodeConfiguration .char c = .ok bytes ↔ ConfigurationForm .char c.states bytes := by
  rw [encode_configuration_form .char (fun s => s) encode_char_iff c bytes good, State.renamed_self, List.map_id']

theorem encode_text_iff (text : Option Text) (bytes : Bytes) : encodeText text = .ok bytes ↔ TextForm text bytes := by
  cases text with
  | none =>
      rw [encodeText, encode_signed_iff]
      constructor
      · intro missing
        exact .absent bytes missing
      · intro form
        cases form with
        | absent length missing => exact missing
  | some t =>
      rw [encodeText]
      cases written : Utf8.encode t with
      | none =>
          simp only [reduceCtorEq, false_iff]
          intro form
          cases form with
          | present t length body encoded counted =>
              rw [written] at encoded
              cases encoded
      | some body =>
          simp only [bind_ok, encode_count_iff]
          constructor
          · rintro ⟨length, counted, done⟩
            cases done
            exact .present t length body written counted
          · intro form
            cases form with
            | present t length body' encoded counted =>
                rw [written] at encoded
                cases encoded
                exact ⟨length, counted, rfl⟩

theorem encode_label_iff (label : Label) (bytes : Bytes) :
    encodeLabel label = .ok bytes ↔ ∃ n : Nat, Quantity.whole label = .ok (n : Int) ∧ UnsignedForm 8 n bytes := by
  cases label <;> simp only [encodeLabel, Quantity.whole, encode_id_iff, Except.ok.injEq, reduceCtorEq,
    false_and, exists_false]
  rfl

theorem encode_definition_iff (d : Definition) (bytes : Bytes) (good : d.configuration.WellFormed) :
    encodeDefinition d = .ok bytes ↔ ∃ n : Nat, Quantity.whole d.configuration.start = .ok (n : Int) ∧
      DefinitionForm ⟨d.configuration.states, d.blank, d.memory, d.charset.flatten, n⟩ bytes := by
  simp only [encodeDefinition, bind_ok, encode_configuration_iff _ _ good, encode_count_iff,
    encode_text_iff, encode_label_iff]
  constructor
  · rintro ⟨inner, controls, length, counted, blank, blanks, memory, remembers, charset, spans, start,
      ⟨n, named, starts⟩, done⟩
    cases done
    exact ⟨n, named, .mk length inner blank memory charset start counted controls blanks remembers spans starts⟩
  · rintro ⟨n, named, length, inner, blank, memory, charset, start, counted, controls, blanks, remembers, spans, starts⟩
    exact ⟨inner, controls, length, counted, blank, blanks, memory, remembers, charset, spans, start,
      ⟨n, named, starts⟩, rfl⟩

end Binary

def Transition.byteCount (t : Transition) : Nat := 1 + 4 + 4 * t.inputs.length + 4 + 8

def State.byteCount (s : State) : Nat := 8 + 1 + 4 + (s.transitions.map Transition.byteCount).sum

def Configuration.byteCount (c : Configuration) : Nat := 4 + (c.states.map State.byteCount).sum

theorem list_form_length {α : Type} (Form : α → Bytes → Prop) (size : α → Nat)
    (each : ∀ a part, Form a part → part.length = size a) (items : List α) (bytes : Bytes)
    (form : ListForm Form items bytes) :
    bytes.length = (items.map size).sum := by
  induction form with
  | nil => rfl
  | cons a items front back first others ih =>
      rw [List.length_append, each a front first, ih, List.map_cons, List.sum_cons]

theorem list_form_exists {α : Type} (Form : α → Bytes → Prop) (items : List α)
    (each : ∀ a ∈ items, ∃ part, Form a part) :
    ∃ bytes, ListForm Form items bytes := by
  induction items with
  | nil => exact ⟨[], .nil⟩
  | cons a items ih =>
      obtain ⟨front, first⟩ := each a List.mem_cons_self
      obtain ⟨back, others⟩ := ih fun b mem => each b (List.mem_cons_of_mem a mem)
      exact ⟨front ++ back, .cons a items front back first others⟩

theorem unsigned_form_exists (size n : Nat) (small : n < Word.span size) :
    ∃ bytes, UnsignedForm size n bytes := ⟨_, small, rfl⟩

theorem count_form_exists (n : Nat) (small : n < twoTo 31) : ∃ bytes, Int32Form n bytes := ⟨_, by omega, by omega, rfl⟩

namespace Binary

theorem transition_form_length (codec : SymbolCodec) (t : Transition) (bytes : Bytes)
    (form : TransitionForm codec t bytes) :
    bytes.length = t.byteCount := by
  obtain ⟨tag, count, inputs, output, target, tagged, filled, counted, reads, writes, enters⟩ := form
  have symbols := list_form_length _ (fun _ => 4) (symbol_form_length codec) _ _ reads
  rw [List.map_const', List.sum_replicate_nat] at symbols
  simp only [List.length_append, unsigned_form_length _ _ _ tagged, int32_form_length _ _ counted, symbols,
    symbol_form_length _ _ _ writes, unsigned_form_length _ _ _ enters, Transition.byteCount]
  omega

theorem state_form_length (codec : SymbolCodec) (s : State) (bytes : Bytes) (form : StateForm codec s bytes) :
    bytes.length = s.byteCount := by
  obtain ⟨id, tag, count, transitions, named, tagged, counted, listed⟩ := form
  simp only [List.length_append, unsigned_form_length _ _ _ named, unsigned_form_length _ _ _ tagged,
    int32_form_length _ _ counted, list_form_length _ _ (transition_form_length codec) _ _ listed, State.byteCount]

theorem configuration_form_length (codec : SymbolCodec) (c : Configuration) (bytes : Bytes)
    (form : ConfigurationForm codec c.states bytes) : bytes.length = c.byteCount := by
  obtain ⟨count, states, counted, distinct, listed⟩ := form
  simp only [List.length_append, int32_form_length _ _ counted,
    list_form_length _ _ (state_form_length codec) _ _ listed,
    Configuration.byteCount]

theorem transition_form_exists (t : Transition) (good : t.WellFormed)
    (chars : ∀ x ∈ t.output :: t.inputs, ∃ c, x = .char c)
    (target : t.target < twoTo 64) (small : t.byteCount < twoTo 31) : ∃ bytes, TransitionForm .char t bytes := by
  have each (x : Symbol) (mem : x ∈ t.output :: t.inputs) : ∃ part, SymbolForm .char x part := by
    obtain ⟨c, rfl⟩ := chars x mem
    exact ⟨_, .char c⟩
  rw [Transition.byteCount] at small
  obtain ⟨tag, tagged⟩ := unsigned_form_exists 1 t.action.tag (by cases t.action <;> decide)
  obtain ⟨count, counted⟩ := count_form_exists t.inputs.length (by omega)
  obtain ⟨inputs, reads⟩ := list_form_exists _ t.inputs fun x mem => each x (List.mem_cons_of_mem t.output mem)
  obtain ⟨output, writes⟩ := each t.output List.mem_cons_self
  obtain ⟨entering, enters⟩ := unsigned_form_exists 8 t.target target
  exact ⟨_, .mk tag count inputs output entering tagged
    (List.length_pos_iff.mpr good.filled) counted reads writes enters⟩

theorem state_form_exists (s : State) (good : s.WellFormed)
    (chars : ∀ t ∈ s.transitions, ∀ x ∈ t.output :: t.inputs, ∃ c, x = .char c) (id : s.id < twoTo 64)
    (targets : ∀ t ∈ s.transitions, t.target < twoTo 64) (small : s.byteCount < twoTo 31) :
    ∃ bytes, StateForm .char s bytes := by
  rw [State.byteCount] at small
  have fewer := List.length_le_sum_of_one_le (s.transitions.map Transition.byteCount) (by
    simp only [List.forall_mem_map, Transition.byteCount]
    omega)
  rw [List.length_map] at fewer
  obtain ⟨naming, named⟩ := unsigned_form_exists 8 s.id id
  obtain ⟨tag, tagged⟩ := unsigned_form_exists 1 s.acceptance.tag (by cases s.acceptance <;> decide)
  obtain ⟨count, counted⟩ := count_form_exists s.transitions.length (by omega)
  obtain ⟨transitions, listed⟩ := list_form_exists (TransitionForm .char) s.transitions fun t mem => by
    have part := List.le_sum_of_mem (List.mem_map_of_mem (f := Transition.byteCount) mem)
    exact transition_form_exists t (good.transitions t mem) (chars t mem) (targets t mem) (by omega)
  exact ⟨_, .mk naming tag count transitions named tagged counted listed⟩

theorem configuration_form_exists (c : Configuration) (good : c.WellFormed)
    (chars : ∀ s ∈ c.states, ∀ t ∈ s.transitions, ∀ x ∈ t.output :: t.inputs, ∃ c, x = .char c)
    (ids : ∀ s ∈ c.states, s.id < twoTo 64) (targets : ∀ s ∈ c.states, ∀ t ∈ s.transitions, t.target < twoTo 64)
    (small : c.byteCount < twoTo 31) : ∃ bytes, ConfigurationForm .char c.states bytes := by
  rw [Configuration.byteCount] at small
  have fewer := List.length_le_sum_of_one_le (c.states.map State.byteCount) (by
    simp only [List.forall_mem_map, State.byteCount]
    omega)
  rw [List.length_map] at fewer
  obtain ⟨count, counted⟩ := count_form_exists c.states.length (by omega)
  obtain ⟨states, listed⟩ := list_form_exists (StateForm .char) c.states fun s mem => by
    have part := List.le_sum_of_mem (List.mem_map_of_mem (f := State.byteCount) mem)
    exact state_form_exists s (good.states s mem) (chars s mem) (ids s mem) (targets s mem) (by omega)
  exact ⟨_, .mk count states counted good.ids listed⟩

theorem text_form_exists (text : Option Text) (scalar : ∀ t, text = some t → ∀ c ∈ t, c.isSurrogate = false)
    (short : ∀ t, text = some t → ∀ body, Utf8.encode t = some body → body.length < twoTo 31) :
    ∃ bytes, TextForm text bytes := by
  cases text with
  | none => exact ⟨_, .absent _ ⟨by decide, by decide, rfl⟩⟩
  | some t =>
      obtain ⟨body, written⟩ := Utf8.encode_exists t (scalar t rfl)
      obtain ⟨length, counted⟩ := count_form_exists body.length (short t rfl body written)
      exact ⟨_, .present t length body written counted⟩

end Binary

end TapeMachine
