import TapeMachine.Proofs.BinaryRoundTrip
import TapeMachine.Proofs.BytesToText
import TapeMachine.Proofs.Prefixes

set_option autoImplicit false

namespace TapeMachine

theorem first_seen_sublist {α : Type} [DecidableEq α] (xs : List α) : (firstSeen xs).Sublist xs := by
  induction xs with
  | nil => exact .slnil
  | cons a rest ih => exact (List.filter_sublist.trans ih).cons_cons a

theorem first_seen_same_iff {α : Type} [DecidableEq α] (xs : List α) : firstSeen xs = xs ↔ xs.Nodup := by
  constructor
  · intro same
    rw [← same]
    exact first_seen_nodup xs
  · exact first_seen_of_nodup xs

def Shrinks {α : Type} (size : α → Nat) (change : α → α) (a : α) : Prop := change a = a ∨ size (change a) < size a

def total {α : Type} (size : α → Nat) (items : List α) : Nat := (items.map size).sum

theorem shrinks_le {α : Type} (size : α → Nat) (change : α → α) (a : α) (shrinks : Shrinks size change a) :
    size (change a) ≤ size a := by
  rcases shrinks with same | smaller
  · rw [same]
  · exact Nat.le_of_lt smaller

theorem first_seen_shrinks {α : Type} [DecidableEq α] (xs : List α) : Shrinks List.length firstSeen xs := by
  have part := first_seen_sublist xs
  by_cases whole : (firstSeen xs).length = xs.length
  · exact .inl (part.eq_of_length whole)
  · exact .inr (Nat.lt_of_le_of_ne part.length_le whole)

theorem total_parted {α : Type} (size : α → Nat) (p : α → Bool) (items : List α) :
    total size (items.filter p) + total size (items.filter fun a => !p a) = total size items := by
  unfold total
  induction items with
  | nil => rfl
  | cons a items ih =>
      cases chosen : p a <;> simp only [List.filter_cons, chosen, Bool.not_true, Bool.not_false, if_true,
        Bool.false_eq_true, if_false,
        List.map_cons, List.sum_cons] <;> omega

theorem map_shrinks {α : Type} (size : α → Nat) (change : α → α) (items : List α)
    (each : ∀ a ∈ items, Shrinks size change a) : Shrinks (total size) (List.map change) items := by
  induction items with
  | nil => exact .inl rfl
  | cons a items ih =>
      obtain ⟨first, others⟩ := List.forall_mem_cons.mp each
      have rest := ih others
      simp only [Shrinks, total, List.map_cons, List.sum_cons] at first rest ⊢
      rcases first with same | smaller <;> rcases rest with rest | less
      · exact .inl (by rw [same, rest])
      · right
        rw [same]
        omega
      · right
        rw [rest]
        omega
      · exact .inr (by omega)

namespace Utf8

theorem encode_sublist (s t : Text) (bytes : Bytes) (part : s.Sublist t) (written : encode t = some bytes) :
    ∃ bytes', encode s = some bytes' ∧ bytes'.length ≤ bytes.length ∧ (s = t ∨ bytes'.length < bytes.length) := by
  induction part generalizing bytes with
  | slnil => exact ⟨[], rfl, Nat.zero_le _, .inl rfl⟩
  | cons c part ih =>
      obtain ⟨front, rest, form, others, rfl⟩ := (encode_cons c _ bytes).mp written
      have filled := form_filled c front form
      obtain ⟨bytes', left, less, _⟩ := ih rest others
      have shorter : bytes'.length < (front ++ rest).length := by
        rw [List.length_append]
        omega
      exact ⟨bytes', left, Nat.le_of_lt shorter, .inr shorter⟩
  | cons_cons c part ih =>
      obtain ⟨front, rest, form, others, rfl⟩ := (encode_cons c _ bytes).mp written
      obtain ⟨bytes', left, less, shrinks⟩ := ih rest others
      refine ⟨front ++ bytes', (encode_cons c _ _).mpr ⟨front, bytes', form, left, rfl⟩, by simpa using less, ?_⟩
      rcases shrinks with same | shorter
      · exact .inl (by rw [same])
      · exact .inr (by simpa using shorter)

end Utf8

namespace Transition

theorem gather_filter (keep : Nat → Bool) (ts : List Transition) :
    (gather ts).filter (fun u => keep u.target) = gather (ts.filter fun u => keep u.target) := by
  rw [← file_all_kept, file_all_gather]

theorem total_inputs (ts : List Transition) : total byteCount ts = 17 * ts.length + 4 * (ts.flatMap inputs).length := by
  induction ts with
  | nil => rfl
  | cons t ts ih =>
      rw [total] at ih
      rw [total, List.map_cons, List.sum_cons, ih, List.flatMap_cons, List.length_append, List.length_cons, byteCount]
      omega

theorem gather_cons_shrinks (t : Transition) (ts : List Transition)
    (others : Shrinks (total byteCount) gather (ts.filter fun u => u.target ≠ t.target)) :
    Shrinks (total byteCount) gather (t :: ts) := by
  have parted : total byteCount (ts.filter fun u => u.target = t.target) + total byteCount
    (ts.filter fun u => u.target ≠ t.target) =
      total byteCount ts := by simpa using total_parted byteCount (fun u => decide (u.target = t.target)) ts
  have apart := gather_filter (fun target => decide (target ≠ t.target)) ts
  have joined := total_inputs (ts.filter fun u => u.target = t.target)
  have head := first_seen_shrinks (t.inputs ++ (ts.filter fun u => u.target = t.target).flatMap inputs)
  -- To join transitions saves their headers, so only one that is alone can keep its size.
  by_cases alone : ts.filter (fun u => u.target = t.target) = []
  · have all : ts.filter (fun u => u.target ≠ t.target) = ts := by
      rw [List.filter_eq_nil_iff] at alone
      rw [List.filter_eq_self]
      simpa using alone
    rw [alone, List.flatMap_nil, List.append_nil] at head
    rw [all] at others apart
    simp only [Shrinks, total, gather, apart, alone, List.flatMap_nil, List.append_nil, List.map_cons, List.sum_cons,
      byteCount] at others ⊢
    rcases head with same | shorter <;> rcases others with rest | less
    · exact .inl (by rw [same, rest])
    · right
      rw [same]
      omega
    · right
      rw [rest]
      omega
    · exact .inr (by omega)
  · have some_joined := List.length_pos_iff.mpr alone
    have bound : (firstSeen (t.inputs ++ (ts.filter fun u => u.target = t.target).flatMap inputs)).length ≤
        t.inputs.length + ((ts.filter fun u => u.target = t.target).flatMap inputs).length := by
      rw [← List.length_append]
      exact (first_seen_sublist _).length_le
    have kept : total byteCount (gather (ts.filter fun u => u.target ≠ t.target)) ≤
        total byteCount (ts.filter fun u => u.target ≠ t.target) := shrinks_le _ _ _ others
    right
    simp only [total] at parted joined kept
    simp only [total, gather, apart, List.map_cons, List.sum_cons, byteCount]
    omega

theorem gather_shrinks (ts : List Transition) : Shrinks (total byteCount) gather ts :=
  match ts with
  | [] => .inl rfl
  | t :: ts => gather_cons_shrinks t ts (gather_shrinks (ts.filter fun u => u.target ≠ t.target))
termination_by ts.length
decreasing_by exact Nat.lt_succ_of_le (List.length_filter_le _ _)

end Transition

namespace Binary

theorem merged_shrinks (record : State) : Shrinks State.byteCount merged record := by
  rcases Transition.gather_shrinks record.transitions with same | smaller
  · exact .inl (by rw [merged, same])
  · right
    simp only [total] at smaller
    simp only [State.byteCount, merged]
    omega

theorem merged_same_iff (codec : SymbolCodec) (record : State) (bytes : Bytes) (form : StateForm codec record bytes) :
    merged record = record ↔
      (∀ t ∈ record.transitions, t.inputs.Nodup) ∧ (record.transitions.map Transition.target).Nodup := by
  constructor
  · intro same
    have good := (state_form_fields codec record bytes form).1
    rw [same] at good
    exact ⟨fun t mem => (good.transitions t mem).distinct, good.targets⟩
  · rintro ⟨inputs, targets⟩
    obtain ⟨_, _, _, _, _, _, _, listed⟩ := form
    refine merged_well_formed record ⟨targets, fun t mem => ⟨?_, inputs t mem⟩⟩
    obtain ⟨_, _, _, _, _, _, _, filled, _⟩ := list_form_each _ _ _ listed t mem
    exact List.ne_nil_of_length_pos filled

theorem map_same_iff {α : Type} (change : α → α) (items : List α) :
    items.map change = items ↔ ∀ a ∈ items, change a = a := by
  induction items with
  | nil => simp
  | cons a items ih => rw [List.map_cons, List.cons.injEq, ih, List.forall_mem_cons]

theorem said_once_form (t : Text) (bytes : Bytes) (form : TextForm (some t) bytes) :
    ∃ bytes', TextForm (some (firstSeen t)) bytes' ∧ bytes'.length ≤ bytes.length ∧
      (firstSeen t = t ∨ bytes'.length < bytes.length) := by
  cases form with
  | present t length body written counted =>
      obtain ⟨body', written', bodyLess, bodyShrinks⟩ :=
        Utf8.encode_sublist (firstSeen t) t body (first_seen_sublist t) written
      obtain ⟨length', counted'⟩ := count_form_exists body'.length (by
        have short : body.length < twoTo 31 := by exact_mod_cast counted.2.1
        omega)
      have lengths := int32_form_length _ _ counted
      have lengths' := int32_form_length _ _ counted'
      refine ⟨_, .present _ length' body' written' counted', ?_, ?_⟩
      · simp only [List.length_append]
        omega
      · simp only [List.length_append]
        rcases bodyShrinks with same | less
        · exact .inl same
        · right
          omega

section

variable (records : List State) (bytes : Bytes) (form : ConfigurationForm .char records bytes)

include form

theorem merged_control : Configuration.WellFormed { states := records.map merged } := by
  obtain ⟨_, _, _, distinct, listed⟩ := form
  have ids : (records.map merged).map State.id = records.map State.id := List.map_map
  refine ⟨ids ▸ distinct, List.forall_mem_map.mpr fun record known => ?_⟩
  obtain ⟨part, form⟩ := list_form_each _ _ _ listed record known
  exact (state_form_fields .char record part form).1

theorem merged_ids : ∀ s ∈ records.map merged, s.id < twoTo 64 ∧ ∀ t ∈ s.transitions, t.target < twoTo 64 := by
  obtain ⟨_, _, _, _, listed⟩ := form
  refine List.forall_mem_map.mpr fun record known => ?_
  obtain ⟨_, _, _, _, _, named, _, _, transitions⟩ := list_form_each _ _ _ listed record known
  refine ⟨named.1, ?_⟩
  intro t mem
  obtain ⟨⟨u, within, target, _⟩, _⟩ := Transition.mem_gather t record.transitions mem
  obtain ⟨_, _, _, _, _, _, _, _, _, _, _, enters⟩ := list_form_each _ _ _ transitions u within
  rw [target]
  exact enters.1

theorem merged_form (short : bytes.length < twoTo 31) : ∃ bytes', ConfigurationForm .char (records.map merged) bytes' ∧
    bytes'.length ≤ bytes.length ∧ (records.map merged = records ∨ bytes'.length < bytes.length) := by
  have counted (states : List State) : Configuration.byteCount { states } = 4 + total State.byteCount states := rfl
  have size := configuration_form_length .char { states := records } bytes form
  have shrinks := map_shrinks State.byteCount merged records fun record _ => merged_shrinks record
  have fewer := shrinks_le _ _ _ shrinks
  have ids := merged_ids records bytes form
  obtain ⟨bytes', form'⟩ := configuration_form_exists { states := records.map merged }
    (merged_control records bytes form)
    (merged_chars records bytes form) (fun s mem => (ids s mem).1) (fun s mem => (ids s mem).2) (by
      rw [counted] at size ⊢
      omega)
  have size' := configuration_form_length .char { states := records.map merged } bytes' form'
  rw [counted] at size size'
  refine ⟨bytes', form', by omega, ?_⟩
  rcases shrinks with same | less
  · exact .inl same
  · right
    omega

end

namespace DefinitionRecord

/-- Nothing is said twice: no transition record repeats an input, no two of a state have one target,
and no code point of the charset comes up again. -/
structure Plain (r : DefinitionRecord) : Prop where
  inputs : ∀ s ∈ r.states, ∀ t ∈ s.transitions, t.inputs.Nodup
  targets : ∀ s ∈ r.states, (s.transitions.map Transition.target).Nodup
  charset : r.charset.Nodup

def plain (r : DefinitionRecord) : DefinitionRecord :=
  { r with states := r.states.map merged, charset := firstSeen r.charset }

variable (r : DefinitionRecord) (bytes : Bytes) (form : DefinitionForm r bytes)

include form

theorem plain_same_iff : r.plain = r ↔ r.Plain := by
  obtain ⟨_, _, _, _, _, _, _, ⟨_, _, _, _, listed⟩, _⟩ := form
  have states : r.states.map merged = r.states ↔ ∀ s ∈ r.states,
      (∀ t ∈ s.transitions, t.inputs.Nodup) ∧ (s.transitions.map Transition.target).Nodup := by
    rw [map_same_iff]
    refine forall₂_congr fun s mem => ?_
    obtain ⟨part, form⟩ := list_form_each _ _ _ listed s mem
    exact merged_same_iff .char s part form
  have fields : r.plain = r ↔ r.states.map merged = r.states ∧ firstSeen r.charset = r.charset := by
    obtain ⟨records, blank, memory, charset, start⟩ := r
    simp [plain]
  rw [fields, states, first_seen_same_iff]
  constructor
  · rintro ⟨each, distinct⟩
    exact ⟨fun s mem => (each s mem).1, fun s mem => (each s mem).2, distinct⟩
  · rintro ⟨inputs, targets, distinct⟩
    exact ⟨fun s mem => ⟨inputs s mem, targets s mem⟩, distinct⟩

theorem plain_meaning : r.plain.meaning = r.meaning := by
  obtain ⟨_, _, _, _, _, _, _, ⟨_, _, _, _, listed⟩, _⟩ := form
  have again : (r.states.map merged).map merged = r.states.map merged := by
    rw [List.map_map]
    refine List.map_congr_left fun s mem => ?_
    obtain ⟨part, form⟩ := list_form_each _ _ _ listed s mem
    exact merged_well_formed (merged s) (state_form_fields .char s part form).1
  simp only [meaning, plain, again, first_seen_of_nodup _ (first_seen_nodup r.charset)]

theorem plain_form : ∃ bytes', DefinitionForm r.plain bytes' ∧ (r.plain = r ∨ bytes'.length < bytes.length) := by
  obtain ⟨length, inner, blank, memory, charset, start, counted, controls, blanks, remembers, spans, starts⟩ := form
  have short : inner.length < twoTo 31 := by exact_mod_cast counted.2.1
  obtain ⟨inner', controls', innerLess, innerShrinks⟩ := merged_form r.states inner controls short
  obtain ⟨length', counted'⟩ := count_form_exists inner'.length (Nat.lt_of_le_of_lt innerLess short)
  obtain ⟨charset', spans', charsetLess, charsetShrinks⟩ := said_once_form r.charset charset spans
  have lengths := int32_form_length _ _ counted
  have lengths' := int32_form_length _ _ counted'
  refine ⟨_, .mk length' inner' blank memory charset' start counted' controls' blanks remembers spans' starts, ?_⟩
  simp only [List.length_append]
  rcases innerShrinks with states | less
  · rcases charsetShrinks with charset | less
    · left
      rw [plain, states, charset]
    · right
      omega
  · right
    omega

end DefinitionRecord

theorem encode_meaning_iff (r : DefinitionRecord) (bytes bytes' : Bytes) (form : DefinitionForm r bytes) :
    encodeDefinition r.meaning = .ok bytes' ↔ DefinitionForm r.plain bytes' := by
  obtain ⟨_, inner, _, _, _, _, _, controls, _⟩ := form
  obtain ⟨ids, states⟩ := merged_control r.states inner controls
  have charset : r.meaning.charset.flatten = firstSeen r.charset := by
    simp [DefinitionRecord.meaning, ← List.flatMap_def]
  rw [encode_definition_iff r.meaning bytes' ⟨ids, states⟩, charset]
  constructor
  · rintro ⟨n, named, form⟩
    have start : (r.start : Int) = n := Except.ok.inj named
    rw [← Int.ofNat_inj.mp start] at form
    exact form
  · intro form
    exact ⟨r.start, rfl, form⟩

theorem reencoded (r : DefinitionRecord) (bytes : Bytes) (form : DefinitionForm r bytes) :
    ∃ bytes', encodeDefinition r.meaning = .ok bytes' ∧ DefinitionForm r.plain bytes' ∧
      (bytes' = bytes ∨ bytes'.length < bytes.length) ∧ (bytes' = bytes ↔ r.Plain) := by
  obtain ⟨bytes', form', shrinks⟩ := r.plain_form bytes form
  have encoded := (encode_meaning_iff r bytes bytes' form).mpr form'
  -- A plain record is the record of the bytes that are written, and these are determined by the definition.
  have kept (same : r.plain = r) : bytes' = bytes := by
    have encoded' := (encode_meaning_iff r bytes bytes form).mpr (same.symm ▸ form)
    rw [encoded] at encoded'
    exact Except.ok.inj encoded'
  refine ⟨bytes', encoded, form', ?_, ?_⟩
  · rcases shrinks with same | less
    · exact .inl (kept same)
    · exact .inr less
  · rw [← r.plain_same_iff bytes form]
    refine ⟨fun same => ?_, kept⟩
    rcases shrinks with plain | less
    · exact plain
    · rw [same] at less
      exact absurd less (Nat.lt_irrefl _)

/-- Encoding what was decoded gives bytes for the same definition, in the same order throughout,
that are no longer. They are as long only if they are the same bytes, and that is so exactly if
these say nothing twice. -/
theorem reencoding_normalises (bytes : Bytes) (d : Definition) (decoded : decodeDefinition bytes = .ok d) :
    ∃ bytes', encodeDefinition d = .ok bytes' ∧ decodeDefinition bytes' = .ok d ∧ bytes'.length ≤ bytes.length ∧
      (bytes'.length = bytes.length → bytes' = bytes) ∧ (∃ r, DefinitionForm r bytes) ∧
      ∀ r, DefinitionForm r bytes → (bytes' = bytes ↔ r.Plain) := by
  obtain ⟨r, form, single, rfl, covered⟩ := (definition_form_decode bytes d).mp decoded
  obtain ⟨bytes', encoded, form', shrinks, _⟩ := reencoded r bytes form
  have again : decodeDefinition bytes' = .ok r.meaning :=
    (definition_form_decode bytes' r.meaning).mpr ⟨r.plain, form', single, (r.plain_meaning bytes form).symm, covered⟩
  refine ⟨bytes', encoded, again, ?_, ?_, ⟨r, form⟩, ?_⟩
  · rcases shrinks with same | less
    · rw [same]
    · exact Nat.le_of_lt less
  · intro whole
    rcases shrinks with same | less
    · exact same
    · exact absurd whole (Nat.ne_of_lt less)
  · intro q formed
    obtain ⟨meaning, _, _⟩ :=
      definition_form_delimited q.meaning r.meaning bytes bytes [] [] ⟨q, formed, rfl⟩ ⟨r, form, rfl⟩ rfl
    obtain ⟨bytes'', encoded', _, _, plain⟩ := reencoded q bytes formed
    rw [meaning, encoded] at encoded'
    rw [Except.ok.inj encoded']
    exact plain

theorem repetitive_bytes_normalised :
    ∃ bytes, encodeDefinition repetitive = .ok bytes ∧ decodeDefinition bytes = .ok repetitive ∧
      bytes.length < repetitiveBytes.length := by
  obtain ⟨bytes, encoded, decoded, less, whole, _⟩ :=
    reencoding_normalises repetitiveBytes repetitive repetitive_decoded
  have changed : encodeDefinition repetitive ≠ .ok repetitiveBytes := by decide +kernel
  refine ⟨bytes, encoded, decoded, Nat.lt_of_le_of_ne less fun same => changed ?_⟩
  rw [encoded, whole same]

end Binary

end TapeMachine
