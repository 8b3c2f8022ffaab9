import TapeMachine.Binary.Configuration
import TapeMachine.Proofs.Decoding
import TapeMachine.Proofs.Merging

set_option autoImplicit false

namespace TapeMachine.Binary

open Decoder

inductive SymbolForm : SymbolCodec → Symbol → Bytes → Prop where
  | char (c : CodePoint) : SymbolForm .char (.char c) (Word.encode 4 c.val)
  | int32 (i : Int) (bytes : Bytes) (written : Int32Form i bytes) : SymbolForm .int32 (.int i) bytes

inductive TransitionForm (codec : SymbolCodec) (t : Transition) : Bytes → Prop where
  | mk (action count inputs output target : Bytes) (tagged : UnsignedForm 1 t.action.tag action)
      (filled : 1 ≤ t.inputs.length)
      (counted : Int32Form t.inputs.length count) (reads : ListForm (SymbolForm codec) t.inputs inputs)
      (writes : SymbolForm codec t.output output) (enters : UnsignedForm 8 t.target target) :
      TransitionForm codec t (action ++ count ++ inputs ++ output ++ target)

inductive StateForm (codec : SymbolCodec) (s : State) : Bytes → Prop where
  | mk (id tag count transitions : Bytes) (named : UnsignedForm 8 s.id id)
      (tagged : UnsignedForm 1 s.acceptance.tag tag)
      (counted : Int32Form s.transitions.length count)
      (listed : ListForm (TransitionForm codec) s.transitions transitions) :
      StateForm codec s (id ++ tag ++ count ++ transitions)

inductive ConfigurationForm (codec : SymbolCodec) (records : List State) : Bytes → Prop where
  | mk (count states : Bytes) (counted : Int32Form records.length count) (distinct : (records.map State.id).Nodup)
      (listed : ListForm (StateForm codec) records states) : ConfigurationForm codec records (count ++ states)

def merged (record : State) : State := { record with transitions := Transition.gather record.transitions }

theorem symbol_form_iff (codec : SymbolCodec) (s : Symbol) (bytes : Bytes) :
    SymbolForm codec s bytes ↔ bytes.length = 4 ∧ codec.decode bytes = .ok s := by
  constructor
  · intro form
    cases form with
    | char c =>
        have small : c.val < Word.span 4 := Nat.lt_trans c.isLt (by decide)
        refine ⟨Word.encode_length 4 c.val, ?_⟩
        rw [SymbolCodec.decode, Word.decode_encode 4 c.val small, CodePoint.of_nat_val]
    | int32 i _ written =>
        obtain ⟨length, value⟩ := (int32_form_iff i bytes).mp written
        refine ⟨length, ?_⟩
        rw [SymbolCodec.decode, value]
  · rintro ⟨length, decoded⟩
    cases codec with
    | char =>
        rw [SymbolCodec.decode] at decoded
        split at decoded
        · rename_i c point
          cases decoded
          have same := Word.encode_decode bytes
          rw [length, ← CodePoint.of_nat_eq_some_iff.mp point] at same
          rw [← same]
          exact .char c
        · simp at decoded
    | int32 =>
        cases decoded
        exact .int32 _ bytes ((int32_form_iff _ bytes).mpr ⟨length, rfl⟩)

theorem symbol_form_length (codec : SymbolCodec) (s : Symbol) (bytes : Bytes)
    (form : SymbolForm codec s bytes) : bytes.length = 4 :=
  ((symbol_form_iff codec s bytes).mp form).1

theorem action_tag_iff (n : Nat) (a : Action) : Action.ofTag? n = some a ↔ n = a.tag := by
  cases a <;> (simp only [Action.ofTag?, Action.tag]; split_ifs <;> simp <;> omega)

theorem acceptance_tag_iff (n : Nat) (a : Acceptance) : Acceptance.ofTag? n = some a ↔ n = a.tag := by
  cases a <;> (simp only [Acceptance.ofTag?, Acceptance.tag]; split_ifs <;> simp <;> omega)

theorem tag_reads {α : Type} (tag : α → Nat) (known : Nat → Option α) (inverse : ∀ n a, known n = some a ↔ n = tag a)
    (field : BinaryField) (check : Nat → Decoder α) (hit : ∀ n a, known n = some a → check n = pure a)
    (miss : ∀ n, known n = none → check n = throw (.unknownTag field n)) :
    (unsigned field 1 >>= check).Reads fun a bytes => UnsignedForm 1 (tag a) bytes := by
  refine answers_congr _ _ _ (answers_checked _ _ (unsigned_reads field 1) (fun n a => known n = some a) check hit
    (fun n none => ⟨_, miss n (Option.eq_none_iff_forall_ne_some.mpr none)⟩)) ?_
  intro a bytes left
  simp only [inverse, exists_eq_right]

theorem action_reads : action.Reads fun a bytes => UnsignedForm 1 a.tag bytes :=
  tag_reads Action.tag (fun n => Action.ofTag? n) action_tag_iff .action _ (fun n a found => by rw [found])
    (fun n none => by rw [none])

theorem acceptance_reads : acceptance.Reads fun a bytes => UnsignedForm 1 a.tag bytes :=
  tag_reads Acceptance.tag (fun n => Acceptance.ofTag? n) acceptance_tag_iff .acceptance _
    (fun n a found => by rw [found])
    (fun n none => by rw [none])

theorem symbol_reads (codec : SymbolCodec) (field : BinaryField) : (symbol codec field).Reads (SymbolForm codec) := by
  refine answers_congr _ _ _ (answers_checked _ _ (take_reads field SymbolCodec.width)
    (fun bytes s => codec.decode bytes = .ok s) _ (fun bytes s decoded => by rw [decoded])
    (fun bytes none => by
      obtain ⟨fault, failed⟩ := only_fault _ none
      exact ⟨fault, by rw [failed]⟩)) ?_
  intro s bytes left
  rw [symbol_form_iff]
  constructor
  · rintro ⟨_, ⟨length, rfl⟩, decoded⟩
    exact ⟨Int.ofNat_inj.mp length, decoded⟩
  · rintro ⟨length, decoded⟩
    exact ⟨bytes, ⟨by rw [length]; rfl, rfl⟩, decoded⟩

theorem list_form_image {α β : Type} (Form : α → Bytes → Prop) (f : α → β) (items : List β) (bytes : Bytes) :
    ListForm (fun b bytes => ∃ a, Form a bytes ∧ b = f a) items bytes ↔
      ∃ sources, ListForm Form sources bytes ∧ items = sources.map f := by
  constructor
  · intro form
    induction form with
    | nil => exact ⟨[], .nil, rfl⟩
    | cons b items front back first others ih =>
        obtain ⟨a, form, rfl⟩ := first
        obtain ⟨sources, forms, rfl⟩ := ih
        exact ⟨a :: sources, .cons a sources front back form forms, rfl⟩
  · rintro ⟨sources, form, rfl⟩
    induction form with
    | nil => exact .nil
    | cons a items front back first others ih => exact .cons (f a) (items.map f) front back ⟨a, first, rfl⟩ ih

theorem transition_reads (codec : SymbolCodec) (state : Nat) :
    (transition codec state).Reads fun t bytes => ∃ record, TransitionForm codec record bytes ∧
      t = record.deduplicated := by
  refine answers_congr _ _ _ (answers_bind _ _ _ _ action_reads fun action =>
    answers_bind _ _ _ _ (count_answers .inputCount SymbolCodec.width) fun n =>
      answers_unless (n = 0) (.noInputs state) (fun _ => _) _ fun _ =>
        answers_bind _ _ _ _ (times_reads _ _ (symbol_reads codec .inputSymbol) n) fun inputs =>
          answers_bind _ _ _ _ (symbol_reads codec .outputSymbol) fun output =>
            answers_map _ (fun target => Transition.mk target action output (firstSeen inputs)) _
              (unsigned_reads .target 8)) ?_
  intro t bytes left
  constructor
  · rintro ⟨action, tag, _, tagged, ⟨_, count, _, ⟨counted, _⟩, ⟨filled, inputs, reading, _, ⟨rfl, reads⟩,
      ⟨output, writing, entering, writes, ⟨target, enters, rfl⟩, rfl⟩, rfl⟩, rfl⟩, rfl⟩
    have form := TransitionForm.mk (t := ⟨target, action, output, inputs⟩) tag count reading writing entering tagged
      (Nat.pos_of_ne_zero filled) counted reads writes enters
    exact ⟨_, by simpa using form, rfl⟩
  -- The check of the count holds since every input takes four bytes, which stand in front of the output and the target.
  · rintro ⟨record, form, rfl⟩
    obtain ⟨tag, count, reading, writing, entering, tagged, filled, counted, reads, writes, enters⟩ := form
    refine ⟨record.action, tag, count ++ (reading ++ (writing ++ entering)), tagged,
      ⟨record.inputs.length, count, _, ⟨counted, ?_⟩,
      ⟨?_, record.inputs, reading, _, ⟨rfl, reads⟩,
        ⟨record.output, writing, entering, writes, ⟨record.target, enters, rfl⟩, rfl⟩,
        rfl⟩, rfl⟩, by simp⟩
    · have room := list_form_room _ 4
        (fun s bytes form => Nat.le_of_eq (symbol_form_length codec s bytes form).symm) _ _ reads
      rw [List.length_append, List.length_append, SymbolCodec.width]
      omega
    · omega

theorem transition_form_room (codec : SymbolCodec) (t : Transition) (bytes : Bytes)
    (form : TransitionForm codec t bytes) :
    transitionSize ≤ bytes.length := by
  obtain ⟨tag, count, reading, writing, entering, tagged, filled, counted, reads, writes, enters⟩ := form
  have room :=
    list_form_room _ 4 (fun s bytes form => Nat.le_of_eq (symbol_form_length codec s bytes form).symm) _ _ reads
  simp only [List.length_append, unsigned_form_length _ _ _ tagged, int32_form_length _ _ counted,
    symbol_form_length _ _ _ writes, unsigned_form_length _ _ _ enters, transitionSize, SymbolCodec.width]
  omega

theorem state_form_room (codec : SymbolCodec) (s : State) (bytes : Bytes) (form : StateForm codec s bytes) :
    stateSize ≤ bytes.length := by
  obtain ⟨id, tag, count, transitions, named, tagged, counted, listed⟩ := form
  simp only [List.length_append, unsigned_form_length _ _ _ named, unsigned_form_length _ _ _ tagged,
    int32_form_length _ _ counted, stateSize]
  omega

theorem state_reads (codec : SymbolCodec) (c : Configuration) :
    (state codec c).Reads fun s bytes =>
      ∃ record, StateForm codec record bytes ∧ (c.find? record.id).isSome = false ∧ s = merged record := by
  refine answers_congr _ _ _ (answers_bind _ _ _ _ (unsigned_reads .stateId 8) fun id =>
    answers_unless ((c.find? id).isSome = true) (.duplicateState id) (fun _ => _) _ fun _ =>
      answers_bind _ _ _ _ acceptance_reads fun acceptance =>
        answers_bind _ _ _ _ (count_answers (.transitionCount id) transitionSize) fun n =>
          answers_map _ (fun transitions => State.ofTransitions id acceptance transitions) _
            (times_reads _ _ (transition_reads codec id) n)) ?_
  intro s bytes left
  simp only [list_form_image]
  constructor
  · rintro ⟨id, naming, _, named, ⟨new, acceptance, tag, _, tagged, ⟨_, count, listing, ⟨counted, _⟩,
      ⟨_, ⟨rfl, records, listed, rfl⟩, rfl⟩, rfl⟩, rfl⟩, rfl⟩
    rw [List.length_map] at counted
    have form := StateForm.mk (s := ⟨id, acceptance, records⟩) naming tag count listing named tagged counted listed
    refine ⟨_, by simpa using form, by simpa using new, ?_⟩
    · rw [State.ofTransitions, Transition.file_all_gather, merged]
  · rintro ⟨record, form, new, rfl⟩
    obtain ⟨naming, tag, count, listing, named, tagged, counted, listed⟩ := form
    refine ⟨record.id, naming, tag ++ (count ++ listing), named, ⟨by simp [new], record.acceptance, tag, _, tagged,
      ⟨record.transitions.length, count, listing, ⟨counted, ?_⟩,
        ⟨record.transitions.map Transition.deduplicated,
          ⟨List.length_map _, record.transitions, listed, rfl⟩, ?_⟩, rfl⟩, rfl⟩,
      by simp⟩
    · have room := list_form_room _ _ (transition_form_room codec) _ _ listed
      rw [List.length_append]
      omega
    · rw [State.ofTransitions, Transition.file_all_gather, merged]

theorem states_read (codec : SymbolCodec) (n : Nat) (c : Configuration) (distinct : (c.states.map State.id).Nodup) :
    (states codec n c).Reads fun c' bytes => ∃ records, records.length = n ∧ ListForm (StateForm codec) records bytes ∧
      ((c.states ++ records).map State.id).Nodup ∧ c' = { c with states := c.states ++ records.map merged } := by
  induction n generalizing c with
  | zero =>
      refine answers_congr _ _ _ (answers_pure c) ?_
      intro c' bytes left
      constructor
      · rintro ⟨rfl, rfl⟩
        exact ⟨[], rfl, .nil, by simpa using distinct, by simp⟩
      · rintro ⟨records, none, form, _, rfl⟩
        cases form with
        | nil => simp
        | cons => simp at none
  | succ n ih =>
      have added (record : State) (new : record.id ∉ c.states.map State.id) :
          c.add (merged record) = { c with states := c.states ++ [merged record] } := by
        rw [Configuration.add, Configuration.place_new (merged record) c.states new]
      refine answers_congr _ _ _ (answers_bind _ _ _ _ (state_reads codec c) fun s =>
        ih (c.add s) (Configuration.place_ids_nodup s c.states distinct)) ?_
      intro c' bytes left
      constructor
      · rintro ⟨_, front, back, ⟨record, form, new, rfl⟩, ⟨records, rfl, forms, apart, rfl⟩, rfl⟩
        rw [Bool.eq_false_iff, ne_eq, Configuration.find_some_iff] at new
        rw [added record new] at apart ⊢
        exact ⟨record :: records, rfl, .cons record records front back form forms,
          by simpa [merged] using apart, by simp⟩
      · rintro ⟨records, length, forms, apart, rfl⟩
        cases forms with
        | nil => simp at length
        | cons record records front back form others =>
            have new := key_new State.id c.states records record apart
            refine ⟨merged record, front, back, ⟨record, form, ?_, rfl⟩,
              ⟨records, Nat.succ.inj length, others, ?_, ?_⟩, rfl⟩
            · rwa [Bool.eq_false_iff, ne_eq, Configuration.find_some_iff]
            · rw [added record new]
              simpa [merged] using apart
            · rw [added record new]
              simp

theorem configuration_form_decode (codec : SymbolCodec) (bytes : Bytes) (c : Configuration) :
    decodeConfiguration codec bytes = .ok c ↔
      ∃ records, ConfigurationForm codec records bytes ∧ c = { states := records.map merged } := by
  refine Iff.trans (run_whole _ _ (answers_bind _ _ _ _ (count_answers .stateCount stateSize) fun n =>
    answers_bind _ _ _ _ (states_read codec n {} List.nodup_nil) fun c => answers_bind _ _ _ _ finish_answers fun _ =>
      answers_pure c) ?_ bytes c) ?_
  · rintro c bytes left ⟨n, front, back, _, ⟨c', front', back', _, ⟨_, _, rest, ⟨_, done⟩, _, _⟩, _⟩, _⟩
    exact (List.append_eq_nil_iff.mp done).2
  · constructor
    · rintro ⟨_, count, _, ⟨counted, _⟩,
        ⟨_, body, _, ⟨records, rfl, forms, distinct, rfl⟩, ⟨_, _, _, ⟨rfl, _⟩, ⟨rfl, rfl⟩, rfl⟩, rfl⟩, rfl⟩
      exact ⟨records, by simpa using ConfigurationForm.mk count body counted distinct forms, rfl⟩
    · rintro ⟨records, form, rfl⟩
      obtain ⟨count, body, counted, distinct, forms⟩ := form
      have room := list_form_room _ _ (state_form_room codec) _ _ forms
      exact ⟨records.length, count, body, ⟨counted, by simpa using room⟩,
        ⟨_, body, [], ⟨records, rfl, forms, distinct, rfl⟩,
        ⟨(), [], [], ⟨rfl, rfl⟩, ⟨rfl, rfl⟩, rfl⟩, by simp⟩, rfl⟩

end TapeMachine.Binary
