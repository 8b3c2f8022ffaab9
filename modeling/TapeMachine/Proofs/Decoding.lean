import TapeMachine.Binary.Cursor
import TapeMachine.Proofs.Outcome
import TapeMachine.Proofs.Utf8

set_option autoImplicit false

namespace TapeMachine

def UnsignedForm (size n : Nat) (bytes : Bytes) : Prop := n < Word.span size ∧ bytes = Word.encode size n

def Int32Form (i : Int) (bytes : Bytes) : Prop :=
  -(twoTo 31 : Int) ≤ i ∧ i < twoTo 31 ∧ bytes = Word.encode 4 (i % twoTo 32).toNat

inductive ListForm {α : Type} (Form : α → Bytes → Prop) : List α → Bytes → Prop where
  | nil : ListForm Form [] []
  | cons (a : α) (items : List α) (front back : Bytes) (first : Form a front) (others : ListForm Form items back) :
      ListForm Form (a :: items) (front ++ back)

inductive TextForm : Option Text → Bytes → Prop where
  | absent (length : Bytes) (missing : Int32Form (-1) length) : TextForm none length
  | present (t : Text) (length body : Bytes) (written : Utf8.encode t = some body)
      (counted : Int32Form body.length length) :
      TextForm (some t) (length ++ body)

theorem unsigned_form_iff (size n : Nat) (bytes : Bytes) :
    UnsignedForm size n bytes ↔ bytes.length = size ∧ Word.decode bytes = n := by
  constructor
  · rintro ⟨small, rfl⟩
    exact ⟨Word.encode_length size n, Word.decode_encode size n small⟩
  · rintro ⟨rfl, rfl⟩
    exact ⟨Word.decode_lt bytes, (Word.encode_decode bytes).symm⟩

theorem int32_form_iff (i : Int) (bytes : Bytes) :
    Int32Form i bytes ↔ bytes.length = 4 ∧ Word.decodeSigned bytes = i := by
  have half : twoTo 31 = 2147483648 := rfl
  have whole : twoTo 32 = 4294967296 := rfl
  have span : Word.span 4 = 4294967296 := rfl
  constructor
  · rintro ⟨low, high, rfl⟩
    have small : (i % twoTo 32).toNat < Word.span 4 := by
      rw [whole, span]
      omega
    refine ⟨Word.encode_length 4 _, ?_⟩
    rw [Word.decodeSigned, Word.decode_encode 4 _ small, Word.signed_mod i low high]
  · rintro ⟨length, rfl⟩
    have below := Word.decode_lt bytes
    have same := Word.encode_decode bytes
    rw [length, span] at below
    rw [length] at same
    have wrapped : (Word.decodeSigned bytes % twoTo 32).toNat = Word.decode bytes := by
      rw [Word.decodeSigned, Word.signed, half, whole]
      split <;> omega
    refine ⟨?_, ?_, by rw [wrapped, same]⟩
    all_goals
      rw [Word.decodeSigned, Word.signed, half, whole]
      split <;> omega

theorem unsigned_form_length (size n : Nat) (bytes : Bytes) (form : UnsignedForm size n bytes) : bytes.length = size :=
  ((unsigned_form_iff size n bytes).mp form).1

theorem int32_form_length (i : Int) (bytes : Bytes) (form : Int32Form i bytes) : bytes.length = 4 :=
  ((int32_form_iff i bytes).mp form).1

theorem list_form_room {α : Type} (Form : α → Bytes → Prop) (size : Nat)
    (least : ∀ a bytes, Form a bytes → size ≤ bytes.length)
    (items : List α) (bytes : Bytes) (form : ListForm Form items bytes) : items.length * size ≤ bytes.length := by
  induction form with
  | nil => simp
  | cons a items front back first others ih =>
      have one := least a front first
      rw [List.length_cons, List.length_append, Nat.succ_mul]
      omega

theorem list_form_each {α : Type} (Form : α → Bytes → Prop) (items : List α) (bytes : Bytes)
    (form : ListForm Form items bytes) :
    ∀ a ∈ items, ∃ part, Form a part := by
  induction form with
  | nil => simp
  | cons a items front back first others ih => exact List.forall_mem_cons.mpr ⟨⟨front, first⟩, ih⟩

namespace Decoder

variable {α β : Type}

def Answers (decoder : Decoder α) (Form : α → Bytes → Bytes → Prop) : Prop :=
  ∀ cursor a next, decoder cursor = .ok (a, next) ↔
    ∃ bytes, Form a bytes next.rest ∧ cursor.rest = bytes ++ next.rest ∧ next.offset = cursor.offset + bytes.length

/-- What is left does not matter. -/
def Reads (decoder : Decoder α) (Form : α → Bytes → Prop) : Prop := decoder.Answers fun a bytes _ => Form a bytes

theorem answers_congr (decoder : Decoder α) (Form Form' : α → Bytes → Bytes → Prop) (answers : decoder.Answers Form)
    (same : ∀ a bytes left, Form a bytes left ↔ Form' a bytes left) : decoder.Answers Form' := by
  intro cursor a next
  simp only [answers cursor a next, same]

theorem answers_pure (a : α) : (pure a : Decoder α).Answers fun b bytes _ => b = a ∧ bytes = [] := by
  intro cursor b next
  have done : (pure a : Decoder α) cursor = .ok (a, cursor) := rfl
  rw [done]
  constructor
  · intro same
    cases same
    exact ⟨[], ⟨rfl, rfl⟩, rfl, rfl⟩
  · rintro ⟨bytes, ⟨rfl, rfl⟩, rest, offset⟩
    have same : cursor = next := by
      cases cursor
      cases next
      simp_all
    rw [same]

theorem answers_throw (fault : DecodeFault) : (throw fault : Decoder α).Answers fun _ _ _ => False := by
  intro cursor b next
  have failed : (throw fault : Decoder α) cursor = .error fault := rfl
  simp [failed]

theorem answers_bind (decoder : Decoder α) (then' : α → Decoder β) (Front : α → Bytes → Bytes → Prop)
    (Back : α → β → Bytes → Bytes → Prop) (first : decoder.Answers Front) (second : ∀ a, (then' a).Answers (Back a)) :
    (decoder >>= then').Answers fun b bytes left =>
      ∃ a front back, Front a front (back ++ left) ∧ Back a b back left ∧ bytes = front ++ back := by
  intro cursor b next
  have chained : (decoder >>= then') cursor = (decoder cursor >>= fun r => then' r.1 r.2) := rfl
  rw [chained, bind_ok]
  constructor
  · rintro ⟨⟨a, middle⟩, taken, rest⟩
    obtain ⟨front, form, split, offset⟩ := (first cursor a middle).mp taken
    obtain ⟨back, form', split', offset'⟩ := (second a middle b next).mp rest
    rw [split'] at form split
    refine ⟨front ++ back, ⟨a, front, back, form, form', rfl⟩, by rw [split, List.append_assoc], ?_⟩
    rw [offset', offset, List.length_append, Nat.add_assoc]
  · rintro ⟨_, ⟨a, front, back, form, form', rfl⟩, split, offset⟩
    rw [List.append_assoc] at split
    rw [List.length_append, ← Nat.add_assoc] at offset
    exact ⟨(a, ⟨back ++ next.rest, cursor.offset + front.length⟩), (first _ _ _).mpr ⟨front, form, split, rfl⟩,
      (second _ _ _ _).mpr ⟨back, form', rfl, offset⟩⟩

theorem answers_unless (refused : Prop) [Decidable refused] (fault : DecodeFault) (then' : Unit → Decoder β)
    (Form : β → Bytes → Bytes → Prop) (answers : ¬ refused → (then' ()).Answers Form) :
    (if refused then (throw fault : Decoder Unit) >>= then' else then' ()).Answers fun b bytes left =>
      ¬ refused ∧ Form b bytes left := by
  by_cases no : refused
  · rw [if_pos no]
    refine answers_congr _ _ _ (answers_throw fault) ?_
    simp [no]
  · rw [if_neg no]
    refine answers_congr _ _ _ (answers no) ?_
    simp [no]

theorem answers_either (condition : Prop) [Decidable condition] (yes no : Decoder β)
    (Form Form' : β → Bytes → Bytes → Prop)
    (first : yes.Answers Form) (second : no.Answers Form') : (if condition then yes else no).Answers fun b bytes left =>
      if condition then Form b bytes left else Form' b bytes left := by
  by_cases holds : condition
  · simp only [if_pos holds]
    exact first
  · simp only [if_neg holds]
    exact second

theorem answers_when (decoder : Decoder β) (Found : α → Prop) (then' : α → Decoder β)
    (Form : α → β → Bytes → Bytes → Prop)
    (each : ∀ a, (then' a).Answers (Form a)) (hit : ∀ a, Found a → decoder = then' a)
    (miss : (∀ a, ¬ Found a) → ∃ fault, decoder = throw fault) :
    decoder.Answers fun b bytes left => ∃ a, Found a ∧ Form a b bytes left := by
  by_cases something : ∃ a, Found a
  · obtain ⟨a, found⟩ := something
    intro cursor b next
    constructor
    · intro done
      rw [hit a found, each a] at done
      obtain ⟨bytes, form, taken⟩ := done
      exact ⟨bytes, ⟨a, found, form⟩, taken⟩
    · rintro ⟨bytes, ⟨a', found', form⟩, taken⟩
      rw [hit a' found', each a']
      exact ⟨bytes, form, taken⟩
  · rw [not_exists] at something
    obtain ⟨fault, failed⟩ := miss something
    rw [failed]
    refine answers_congr _ _ _ (answers_throw fault) ?_
    simp [something]

theorem answers_checked (decoder : Decoder α) (Form : α → Bytes → Bytes → Prop) (answers : decoder.Answers Form)
    (Passes : α → β → Prop) (check : α → Decoder β) (hit : ∀ a b, Passes a b → check a = pure b)
    (miss : ∀ a, (∀ b, ¬ Passes a b) → ∃ fault, check a = throw fault) :
    (decoder >>= check).Answers fun b bytes left => ∃ a, Form a bytes left ∧ Passes a b := by
  refine answers_congr _ _ _ (answers_bind _ _ _ _ answers fun a =>
    answers_when (check a) (Passes a) pure _ answers_pure (hit a) (miss a)) ?_
  intro b bytes left
  constructor
  · rintro ⟨a, front, back, form, ⟨_, passes, rfl, rfl⟩, rfl⟩
    exact ⟨a, by simpa using form, passes⟩
  · rintro ⟨a, form, passes⟩
    exact ⟨a, bytes, [], by simpa using form, ⟨b, passes, rfl, rfl⟩, (List.append_nil bytes).symm⟩

theorem answers_map (decoder : Decoder α) (f : α → β) (Form : α → Bytes → Bytes → Prop)
    (answers : decoder.Answers Form) :
    (decoder >>= fun a => pure (f a)).Answers fun b bytes left => ∃ a, Form a bytes left ∧ b = f a :=
  answers_checked decoder Form answers (fun a b => b = f a) (fun a => pure (f a)) (fun a b same => by rw [same])
    (fun a none => absurd rfl (none (f a)))

theorem answers_left (then' : Bytes → Decoder β) (Form : Bytes → β → Bytes → Bytes → Prop)
    (each : ∀ rest, (then' rest).Answers (Form rest)) :
    (get >>= fun (cursor : Cursor) => then' cursor.rest).Answers fun b bytes left => Form
    (bytes ++ left) b bytes left := by
  intro cursor b next
  have looked : (get >>= fun (cursor : Cursor) => then' cursor.rest : Decoder β) cursor =
      then' cursor.rest cursor := rfl
  rw [looked, each]
  constructor
  · rintro ⟨bytes, form, split, offset⟩
    rw [split] at form
    exact ⟨bytes, form, split, offset⟩
  · rintro ⟨bytes, form, split, offset⟩
    refine ⟨bytes, ?_, split, offset⟩
    rw [split]
    exact form

theorem take_reads (field : BinaryField) (size : Int) :
    (take field size).Reads fun chunk bytes => (chunk.length : Int) = size ∧ bytes = chunk := by
  intro cursor chunk next
  simp only [take]
  split
  · rename_i short
    simp only [reduceCtorEq, false_iff]
    rintro ⟨bytes, ⟨length, rfl⟩, split, _⟩
    rw [split, List.length_append] at short
    omega
  · rename_i enough
    have within : size.toNat ≤ cursor.rest.length := by omega
    have cut := List.length_take_of_le within
    simp only [Except.ok.injEq, Prod.mk.injEq]
    constructor
    · rintro ⟨rfl, rfl⟩
      exact ⟨_, ⟨by omega, rfl⟩, (List.take_append_drop _ _).symm, by rw [cut]⟩
    · rintro ⟨bytes, ⟨length, rfl⟩, split, offset⟩
      have count : size.toNat = bytes.length := by omega
      rw [split, count, List.take_left, List.drop_left, ← offset]
      exact ⟨rfl, rfl⟩

theorem unsigned_reads (field : BinaryField) (size : Nat) : (unsigned field size).Reads (UnsignedForm size) := by
  refine answers_congr _ _ _ (answers_map _ Word.decode _ (take_reads field size)) ?_
  intro n bytes left
  rw [unsigned_form_iff]
  constructor
  · rintro ⟨_, ⟨length, rfl⟩, rfl⟩
    exact ⟨Int.ofNat_inj.mp length, rfl⟩
  · rintro ⟨length, rfl⟩
    exact ⟨bytes, ⟨by rw [length], rfl⟩, rfl⟩

theorem int32_reads (field : BinaryField) : (int32 field).Reads Int32Form := by
  refine answers_congr _ _ _ (answers_map _ Word.decodeSigned _ (take_reads field 4)) ?_
  intro i bytes left
  rw [int32_form_iff]
  constructor
  · rintro ⟨_, ⟨length, rfl⟩, rfl⟩
    exact ⟨Int.ofNat_inj.mp length, rfl⟩
  · rintro ⟨length, rfl⟩
    exact ⟨bytes, ⟨by rw [length]; rfl, rfl⟩, rfl⟩

theorem count_answers (field : BinaryField) (size : Nat) :
    (count field size).Answers fun n bytes left => Int32Form n bytes ∧ n * size ≤ left.length := by
  refine answers_congr _ _ _ (answers_bind _ _ _ _ (int32_reads field) fun n =>
    answers_left _
      (fun rest m bytes _ => ¬ (n < 0 ∨ (rest.length : Int) < n * size) ∧ m = n.toNat ∧ bytes = []) fun rest =>
      answers_unless _ (.badCount field n rest.length) (fun _ => pure n.toNat) _ fun _ => answers_pure n.toNat) ?_
  intro m bytes left
  constructor
  · rintro ⟨n, front, back, form, ⟨room, rfl, rfl⟩, rfl⟩
    rw [List.nil_append, not_or] at room
    have natural : (n.toNat : Int) = n := Int.toNat_of_nonneg (by omega)
    rw [List.append_nil, natural]
    refine ⟨form, ?_⟩
    have enough := Int.not_lt.mp room.2
    rw [← natural] at enough
    exact_mod_cast enough
  · rintro ⟨form, room⟩
    refine ⟨m, bytes, [], form, ⟨?_, (Int.toNat_natCast m).symm, rfl⟩, (List.append_nil bytes).symm⟩
    have enough : ((m * size : Nat) : Int) ≤ left.length := Int.ofNat_le.mpr room
    rw [List.nil_append]
    push_cast at enough
    omega

theorem finish_answers : finish.Answers fun _ bytes left => bytes = [] ∧ left = [] := by
  have last (rest : Bytes) : (if rest ≠ [] then throw (.trailing rest.length) else pure () : Decoder Unit).Answers
      fun _ bytes _ => rest = [] ∧ bytes = [] := by
    cases rest with
    | nil => exact answers_congr _ _ _ (answers_pure ()) (by simp)
    | cons b rest => exact answers_congr _ _ _ (answers_throw _) (by simp)
  refine answers_congr _ _ _ (answers_left _ _ last) ?_
  intro _ bytes left
  rw [List.append_eq_nil_iff]
  constructor
  · rintro ⟨both, _⟩
    exact both
  · intro both
    exact ⟨both, both.1⟩

theorem text_reads (part : TextPart) : (text? part).Reads TextForm := by
  refine answers_congr _ _ _ (answers_bind _ _ _ _ (int32_reads (.textLength part)) fun n =>
    answers_either (n = -1) _ _ _ _ (answers_pure none) (answers_checked _ _ (take_reads (.text part) n)
      (fun body text => ∃ t, Utf8.decode body = some t ∧ text = some t) _
      (fun body text passes => by
        obtain ⟨t, read, rfl⟩ := passes
        rw [read])
      (fun body fails => by
        cases read : Utf8.decode body with
        | none => exact ⟨.notUtf8 part, rfl⟩
        | some t => exact absurd ⟨t, read, rfl⟩ (fails (some t))))) ?_
  intro text bytes left
  constructor
  · rintro ⟨n, length, back, counted, form, rfl⟩
    split at form
    · rename_i absent
      obtain ⟨rfl, rfl⟩ := form
      rw [List.append_nil]
      exact .absent length (absent ▸ counted)
    · obtain ⟨body, ⟨size, rfl⟩, t, read, rfl⟩ := form
      exact .present t length _ ((Utf8.decode_iff _ t).mp read) (size ▸ counted)
  · intro form
    cases form with
    | absent length missing => exact ⟨-1, bytes, [], missing, ⟨rfl, rfl⟩, (List.append_nil bytes).symm⟩
    | present t length body written counted =>
        refine ⟨body.length, length, body, counted, ?_, rfl⟩
        rw [if_neg (by omega)]
        exact ⟨body, ⟨rfl, rfl⟩, t, (Utf8.decode_iff body t).mpr written, rfl⟩

theorem times_reads (step : Decoder α) (Form : α → Bytes → Prop) (reads : step.Reads Form) (n : Nat) :
    (times step n).Reads fun items bytes => items.length = n ∧ ListForm Form items bytes := by
  induction n with
  | zero =>
      refine answers_congr _ _ _ (answers_pure []) ?_
      intro items bytes left
      constructor
      · rintro ⟨rfl, rfl⟩
        exact ⟨rfl, .nil⟩
      · rintro ⟨length, form⟩
        cases form with
        | nil => exact ⟨rfl, rfl⟩
        | cons => simp at length
  | succ n ih =>
      refine answers_congr _ _ _ (answers_bind _ _ _ _ reads fun a => answers_map _ (a :: ·) _ ih) ?_
      intro items bytes left
      constructor
      · rintro ⟨a, front, back, first, ⟨rest, ⟨length, others⟩, rfl⟩, rfl⟩
        exact ⟨congrArg (· + 1) length, .cons a rest front back first others⟩
      · rintro ⟨length, form⟩
        cases form with
        | nil => simp at length
        | cons a rest front back first others =>
            exact ⟨a, front, back, first, ⟨rest, ⟨Nat.succ.inj length, others⟩, rfl⟩, rfl⟩

theorem run_whole (decoder : Decoder α) (Form : α → Bytes → Bytes → Prop) (answers : decoder.Answers Form)
    (whole : ∀ a bytes left, Form a bytes left → left = []) (bytes : Bytes) (a : α) :
    decoder.run bytes = .ok a ↔ Form a bytes [] := by
  rw [run, map_ok]
  constructor
  · rintro ⟨⟨a, next⟩, done, rfl⟩
    obtain ⟨taken, form, split, _⟩ := (answers _ _ _).mp done
    have nothing := whole _ _ _ form
    rw [nothing] at form split
    obtain rfl : bytes = taken := by simpa using split
    exact form
  · intro form
    exact ⟨(a, ⟨[], bytes.length⟩),
      (answers _ _ _).mpr ⟨bytes, form, (List.append_nil bytes).symm, (Nat.zero_add _).symm⟩, rfl⟩

end Decoder

end TapeMachine
