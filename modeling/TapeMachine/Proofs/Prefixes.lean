import TapeMachine.Proofs.DefinitionForm

set_option autoImplicit false

namespace TapeMachine

def Delimited {α : Type} (Form : α → Bytes → Prop) : Prop :=
  ∀ a b front front' left left', Form a front → Form b front' → front ++ left = front' ++ left' →
    a = b ∧ front = front' ∧ left = left'

namespace Decoder

theorem reads_delimited {α : Type} (decoder : Decoder α) (Form : α → Bytes → Prop) (reads : decoder.Reads Form) :
    Delimited Form := by
  intro a b front front' left left' form form' same
  have first := (reads ⟨front ++ left, 0⟩ a ⟨left, 0 + front.length⟩).mpr ⟨front, form, rfl, rfl⟩
  have second := (reads ⟨front' ++ left', 0⟩ b ⟨left', 0 + front'.length⟩).mpr ⟨front', form', rfl, rfl⟩
  rw [same, second, Except.ok.injEq, Prod.mk.injEq, Cursor.mk.injEq] at first
  obtain ⟨rfl, rfl, _⟩ := first
  exact ⟨rfl, List.append_cancel_right same, rfl⟩

end Decoder

theorem delimited_extension {α : Type} (Form : α → Bytes → Prop) (delimited : Delimited Form) (a b : α)
    (bytes bytes' : Bytes)
    (form : Form a bytes) (form' : Form b bytes') (within : bytes <+: bytes') : bytes = bytes' := by
  obtain ⟨more, rfl⟩ := within
  obtain ⟨_, same, _⟩ := delimited a b bytes (bytes ++ more) more [] form form' (List.append_nil _).symm
  exact same

theorem delimited_either {α : Type} (Form : α → Bytes → Prop) (delimited : Delimited Form) (a b : α)
    (bytes bytes' : Bytes)
    (form : Form a bytes) (form' : Form b bytes') (related : bytes <+: bytes' ∨ bytes' <+: bytes) : bytes = bytes' := by
  cases related with
  | inl within => exact delimited_extension Form delimited a b bytes bytes' form form' within
  | inr within => exact (delimited_extension Form delimited b a bytes' bytes form' form within).symm

namespace Binary

open Decoder

theorem configuration_form_delimited (codec : SymbolCodec) : Delimited fun (c : Configuration) bytes =>
    ∃ records, ConfigurationForm codec records bytes ∧ c = { states := records.map merged } := by
  rintro _ _ _ _ left left' ⟨records, form, rfl⟩ ⟨records', form', rfl⟩ same
  obtain ⟨count, body, counted, distinct, listed⟩ := form
  obtain ⟨count', body', counted', distinct', listed'⟩ := form'
  rw [List.append_assoc, List.append_assoc] at same
  obtain ⟨number, rfl, rest⟩ := reads_delimited _ _ (int32_reads .stateCount) _ _ _ _ _ _ counted counted' same
  have length : records'.length = records.length := by omega
  have states := reads_delimited _ _ (states_read codec records.length {} List.nodup_nil)
  obtain ⟨c, rfl, last⟩ := states _ _ body body' left left' ⟨records, rfl, listed, by simpa using distinct, rfl⟩
    ⟨records', length, listed', by simpa using distinct', rfl⟩ rest
  exact ⟨by simpa using c, rfl, last⟩

theorem definition_form_delimited : Delimited fun d bytes => ∃ r, DefinitionForm r bytes ∧ d = r.meaning := by
  rintro _ _ _ _ left left' ⟨r, form, rfl⟩ ⟨r', form', rfl⟩ same
  obtain ⟨length, inner, blank, memory, charset, start, counted, controls, blanks, remembers, spans, starts⟩ := form
  obtain ⟨length', inner', blank', memory', charset', start', counted', controls', blanks', remembers',
    spans', starts'⟩ := form'
  simp only [List.append_assoc] at same ⊢
  rw [← List.append_assoc length, ← List.append_assoc length'] at same ⊢
  obtain ⟨states, front, behind⟩ := reads_delimited _ _ inner_reads _ _ _ _ _ _
    ⟨length, inner, r.states, counted, controls, rfl, rfl⟩ ⟨length', inner', r'.states, counted',
      controls', rfl, rfl⟩ same
  obtain ⟨blank_same, rfl, behind_blank⟩ := reads_delimited _ _ (text_reads .blank) _ _ _ _ _ _ blanks blanks' behind
  obtain ⟨memory_same, rfl, behind_memory⟩ :=
    reads_delimited _ _ (text_reads .memory) _ _ _ _ _ _ remembers remembers' behind_blank
  obtain ⟨charset_same, rfl, behind_charset⟩ := reads_delimited _ _ charset_reads _ _ _ _ _ _ spans spans' behind_memory
  obtain ⟨start_same, rfl, last⟩ :=
    reads_delimited _ _ (unsigned_reads .start 8) _ _ _ _ _ _ starts starts' behind_charset
  have meaning : r.meaning = r'.meaning := by
    simp only [Configuration.mk.injEq] at states
    simp only [DefinitionRecord.meaning, states.1, blank_same, memory_same, charset_same, start_same]
  exact ⟨meaning, by rw [front], last⟩

/-- No accepted bytes begin other accepted bytes: what is cut out of them and what goes on behind them is malformed. -/
theorem accepted_bytes_neither_cut_nor_extended (codec : SymbolCodec) (bytes bytes' : Bytes) (differ : bytes' ≠ bytes)
    (related : bytes' <+: bytes ∨ bytes <+: bytes') :
    (∀ c, decodeConfiguration codec bytes = .ok c →
      ∃ fault, decodeConfiguration codec bytes' = .error fault ∧ (Fault.ofDecode fault).kind = .malformedBytes) ∧
    (∀ d, decodeDefinition bytes = .ok d →
      ∃ fault, decodeDefinition bytes' = .error fault ∧ (Fault.ofDecode fault).kind = .malformedBytes) := by
  constructor
  · intro c taken
    obtain ⟨fault, failed⟩ := only_fault (decodeConfiguration codec bytes') fun c' taken' =>
      differ (delimited_either _ (configuration_form_delimited codec) c' c bytes' bytes
        ((configuration_form_decode codec bytes' c').mp taken')
          ((configuration_form_decode codec bytes c).mp taken) related)
    exact ⟨fault, failed, rfl⟩
  · intro d taken
    have formed (bytes : Bytes) (d : Definition) (taken : decodeDefinition bytes = .ok d) :
        ∃ r, DefinitionForm r bytes ∧ d = r.meaning := by
      obtain ⟨r, form, _, meaning, _⟩ := (definition_form_decode bytes d).mp taken
      exact ⟨r, form, meaning⟩
    obtain ⟨fault, failed⟩ := only_fault (decodeDefinition bytes') fun d' taken' =>
      differ (delimited_either _ definition_form_delimited d' d bytes' bytes (formed bytes' d' taken')
        (formed bytes d taken) related)
    exact ⟨fault, failed, rfl⟩

def repetitiveBytes : Bytes :=
  let twice := [2] ++ Word.encode 4 2 ++ Word.encode 4 97 ++ Word.encode 4 97 ++ Word.encode 4 98 ++ Word.encode 8 7
  let again := [2] ++ Word.encode 4 1 ++ Word.encode 4 98 ++ Word.encode 4 97 ++ Word.encode 8 7
  let inner := Word.encode 4 1 ++ (Word.encode 8 7 ++ [1] ++ Word.encode 4 2 ++ twice ++ again)
  Word.encode 4 inner.length ++ inner ++ Word.encode 4 1 ++ [95] ++ Word.encode 4 2 ++ [97, 98] ++
    Word.encode 4 4 ++ [97, 98, 97, 95] ++ Word.encode 8 7

def repetitive : Definition where
  configuration := { states := [⟨7, .accept, [⟨7, .right, .text "b", [.text "a", .text "b"]⟩]⟩], start := Label.ofId 7 }
  charset := ["a", "b", "_"]
  blank := some "_"
  memory := some "ab"

theorem repetitive_decoded : decodeDefinition repetitiveBytes = .ok repetitive := by decide +kernel

theorem repetitive_bytes_neither_cut_nor_extended :
    (∃ fault, decodeDefinition (repetitiveBytes.take 30) = .error fault ∧
      (Fault.ofDecode fault).kind = .malformedBytes) ∧
    (∃ fault, decodeDefinition (repetitiveBytes ++ [0]) = .error fault ∧
      (Fault.ofDecode fault).kind = .malformedBytes) ∧
    (∃ fault, decodeConfiguration .int32 [0, 0, 0, 0, 1] = .error fault ∧
      (Fault.ofDecode fault).kind = .malformedBytes) :=
  ⟨(accepted_bytes_neither_cut_nor_extended .char repetitiveBytes (repetitiveBytes.take 30) (by decide +kernel)
      (.inl (List.take_prefix 30 _))).2 repetitive repetitive_decoded,
    (accepted_bytes_neither_cut_nor_extended .char repetitiveBytes (repetitiveBytes ++ [0]) (by decide +kernel)
      (.inr (List.prefix_append _ _))).2 repetitive repetitive_decoded,
    (accepted_bytes_neither_cut_nor_extended .int32 [0, 0, 0, 0] [0, 0, 0, 0, 1] (by decide)
      (.inr (List.prefix_append [0, 0, 0, 0] [1]))).1 {} rfl⟩

end Binary

end TapeMachine
