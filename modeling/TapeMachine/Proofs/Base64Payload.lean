import TapeMachine.Proofs.Alphabet
import TapeMachine.Proofs.Base64

set_option autoImplicit false

namespace TapeMachine

namespace Base64

def bits : Nat → Nat → List Bool
  | 0, _ => []
  | width + 1, n => bits width (n / 2) ++ [decide (n % 2 = 1)]

def byteBits (b : UInt8) : List Bool := bits 8 b.toNat

@[simp] theorem bits_length (width n : Nat) : (bits width n).length = width := by
  induction width generalizing n with
  | zero => rfl
  | succ width ih => rw [bits, List.length_append, ih, List.length_singleton]

theorem bits_join (high low m n : Nat) (fits : n < Nat.pow 2 low) :
    bits (high + low) (m * Nat.pow 2 low + n) = bits high m ++ bits low n := by
  induction low generalizing n with
  | zero =>
      obtain rfl : n = 0 := by simpa using fits
      simp [bits]
  | succ low ih =>
      simp only [Nat.pow_eq, Nat.pow_succ] at fits ih ⊢
      have halved : (m * (2 ^ low * 2) + n) / 2 = m * 2 ^ low + n / 2 ∧ (m * (2 ^ low * 2) + n) % 2 = n % 2 := by
        rw [← Nat.mul_assoc]
        omega
      rw [← Nat.add_assoc, bits, bits, halved.1, halved.2, ih _ (by omega), List.append_assoc]

theorem bits_injective (width m n : Nat) (smaller : m < Nat.pow 2 width) (smaller' : n < Nat.pow 2 width)
    (same : bits width m = bits width n) : m = n := by
  induction width generalizing m n with
  | zero =>
      simp only [Nat.pow_eq, Nat.pow_zero] at smaller smaller'
      omega
  | succ width ih =>
      simp only [Nat.pow_eq, Nat.pow_succ] at smaller smaller' ih
      obtain ⟨front, last⟩ := List.append_inj same (by simp)
      have halves := ih (m / 2) (n / 2) (by omega) (by omega) front
      have parity : m % 2 = 1 ↔ n % 2 = 1 := by simpa using last
      omega

theorem bits_with_digit (high m n : Nat) (digit : n < 64) : bits (high + 6) (m * 64 + n) = bits high m ++ bits 6 n :=
  bits_join high 6 m n digit

theorem bits_with_byte (high m n : Nat) : bits (high + 8) (m * 256 + n % 256) = bits high m ++ byteBits
    (UInt8.ofNat n) := by
  rw [byteBits, UInt8.toNat_ofNat']
  exact bits_join high 8 m (n % 256) (Nat.mod_lt n (by decide))

theorem byte_bits_injective (b c : UInt8) (same : byteBits b = byteBits c) : b = c :=
  UInt8.toNat_inj.mp (bits_injective 8 _ _ b.toNat_lt c.toNat_lt same)

theorem flat_length {α : Type} (f : α → List Bool) (width : Nat) (each : ∀ a, (f a).length = width) (items : List α) :
    (items.flatMap f).length = width * items.length := by
  induction items with
  | nil => rfl
  | cons a rest ih => rw [List.flatMap_cons, List.length_append, ih, each, List.length_cons, Nat.mul_succ, Nat.add_comm]

@[simp] theorem bytes_bits_length (bytes : Bytes) : (bytes.flatMap byteBits).length = 8 * bytes.length :=
  flat_length byteBits 8 (fun b => bits_length 8 b.toNat) bytes

@[simp] theorem values_bits_length (values : List Nat) : (values.flatMap (bits 6)).length = 6 * values.length :=
  flat_length (bits 6) 6 (bits_length 6) values

theorem bytes_from_bits (bytes bytes' : Bytes) (spare spare' : List Bool) (few : spare.length < 8)
    (few' : spare'.length < 8)
    (same : bytes.flatMap byteBits ++ spare = bytes'.flatMap byteBits ++ spare') : bytes = bytes' := by
  have lengths := congrArg List.length same
  simp only [List.length_append, bytes_bits_length] at lengths
  induction bytes generalizing bytes' with
  | nil =>
      rw [List.length_nil] at lengths
      exact (List.length_eq_zero_iff.mp (by omega)).symm
  | cons b bytes ih =>
      cases bytes' with
      | nil =>
          simp only [List.length_cons, List.length_nil] at lengths
          omega
      | cons b' bytes' =>
          simp only [List.flatMap_cons, List.append_assoc] at same
          obtain ⟨first, rest⟩ := List.append_inj same (by simp [byteBits])
          simp only [List.length_cons] at lengths
          rw [byte_bits_injective b b' first, ih bytes' rest (by omega)]

theorem bytes_of_bits (values : List Nat) (small : ∀ v ∈ values, v < 64) (full : values.length % 4 ≠ 1) :
    ∃ spare, spare.length = 6 * values.length % 8 ∧ values.flatMap
    (bits 6) = (bytesOf values).flatMap byteBits ++ spare := by
  fun_induction bytesOf values with
  | case1 a b c d rest ih =>
      simp only [List.forall_mem_cons] at small
      obtain ⟨a_small, b_small, c_small, d_small, small⟩ := small
      obtain ⟨spare, length, same⟩ := ih small (by simp only [List.length_cons] at full; omega)
      refine ⟨spare, by simp only [List.length_cons]; omega, ?_⟩
      have group : ((a * 64 + b) * 64 + c) * 64 + d =
          ((0 * 256 + (a * 4 + b / 16) % 256) * 256 + (b * 16 + c / 4) % 256) * 256 + (c * 64 + d) % 256 := by omega
      have bits_of_group := congrArg (bits 24) group
      rw [bits_with_digit 18 _ d d_small, bits_with_digit 12 _ c c_small, bits_with_digit 6 _ b b_small,
        bits_with_byte 16, bits_with_byte 8, bits_with_byte 0] at bits_of_group
      simp only [List.flatMap_cons, same, ← List.append_assoc, bits_of_group]
      rfl
  | case2 a b c =>
      simp only [List.forall_mem_cons] at small
      obtain ⟨a_small, b_small, c_small, _⟩ := small
      refine ⟨bits 2 (c % 4), by simp, ?_⟩
      have group : (a * 64 + b) * 64 + c =
          ((0 * 256 + (a * 4 + b / 16) % 256) * 256 + (b * 16 + c / 4) % 256) * 4 + c % 4 := by omega
      have bits_of_group := congrArg (bits 18) group
      rw [bits_with_digit 12 _ c c_small, bits_with_digit 6 _ b b_small,
        show _ = _ from bits_join 16 2 _ (c % 4) (Nat.mod_lt c (by decide)),
        bits_with_byte 8, bits_with_byte 0] at bits_of_group
      simp only [List.flatMap_cons, List.flatMap_nil, List.append_nil, ← List.append_assoc, bits_of_group]
      rfl
  | case3 a b =>
      simp only [List.forall_mem_cons] at small
      obtain ⟨a_small, b_small, _⟩ := small
      refine ⟨bits 4 (b % 16), by simp, ?_⟩
      have group : a * 64 + b = (0 * 256 + (a * 4 + b / 16) % 256) * 16 + b % 16 := by omega
      have bits_of_group := congrArg (bits 12) group
      rw [bits_with_digit 6 _ b b_small, show _ = _ from bits_join 8 4 _ (b % 16) (Nat.mod_lt b (by decide)),
        bits_with_byte 0] at bits_of_group
      simp only [List.flatMap_cons, List.flatMap_nil, List.append_nil, bits_of_group]
      rfl
  | case4 values long three two =>
      rcases values with _ | ⟨a, _ | ⟨b, _ | ⟨c, _ | ⟨d, rest⟩⟩⟩⟩
      · exact ⟨[], rfl, rfl⟩
      · exact absurd rfl full
      · exact absurd rfl (two a b)
      · exact absurd rfl (three a b c)
      · exact absurd rfl (long a b c d rest)

theorem digit_value_bounds (c : CodePoint) (v : Nat) (digit : digitValue? c = some v) : v < 64 ∧ c.val < 0x80 := by
  simp only [digitValue?] at digit
  split_ifs at digit with upper lower number plus slash
  all_goals
    obtain rfl := Option.some.inj digit
    omega

theorem padding_no_digit : digitValue? padding = none := by decide

def Shows (values : List Nat) (pads : Nat) (t : Text) : Prop :=
  ∃ digits, t = digits ++ List.replicate pads padding ∧ digits.map digitValue? = values.map some

@[simp] theorem shows_nil_iff (values : List Nat) (pads : Nat) : Shows values pads [] ↔ values = [] ∧ pads = 0 := by
  constructor
  · rintro ⟨digits, text, told⟩
    obtain ⟨rfl, none⟩ := List.append_eq_nil_iff.mp text.symm
    exact ⟨List.map_eq_nil_iff.mp told.symm, by simpa using none⟩
  · rintro ⟨rfl, rfl⟩
    exact ⟨[], rfl, rfl⟩

@[simp] theorem shows_padding_iff (values : List Nat) (pads : Nat) (t : Text) : Shows values pads (padding :: t) ↔
    values = [] ∧ padding :: t = List.replicate pads padding := by
  constructor
  · rintro ⟨digits, text, told⟩
    cases digits with
    | nil => exact ⟨List.map_eq_nil_iff.mp told.symm, text⟩
    | cons c digits =>
        obtain ⟨rfl, _⟩ := List.cons.inj text
        cases values with
        | nil => cases told
        | cons v values => exact absurd (padding_no_digit.symm.trans (List.cons.inj told).1) (by simp)
  · rintro ⟨rfl, text⟩
    exact ⟨[], text, rfl⟩

theorem shows_digit_iff (values : List Nat) (pads : Nat) (c : CodePoint) (t : Text) (noPadding : c ≠ padding) :
    Shows values pads (c :: t) ↔ ∃ v rest, digitValue? c = some v ∧ values = v :: rest ∧ Shows rest pads t := by
  constructor
  · rintro ⟨digits, text, told⟩
    cases digits with
    | nil => exact absurd (List.eq_of_mem_replicate (text ▸ List.mem_cons_self)) noPadding
    | cons first digits =>
        obtain ⟨same, after⟩ := List.cons.inj text
        subst same
        cases values with
        | nil => cases told
        | cons v values =>
            obtain ⟨value, told⟩ := List.cons.inj told
            exact ⟨v, values, value, rfl, digits, after, told⟩
  · rintro ⟨v, rest, value, rfl, digits, rfl, told⟩
    exact ⟨c :: digits, rfl, by rw [List.map_cons, List.map_cons, value, told]⟩

theorem shown_small (values : List Nat) (pads : Nat) (t : Text) (shown : Shows values pads t) :
    ∀ v ∈ values, v < 64 := by
  obtain ⟨digits, _, told⟩ := shown
  intro v mem
  obtain ⟨c, _, value⟩ := List.mem_map.mp (told ▸ List.mem_map_of_mem mem : some v ∈ digits.map digitValue?)
  exact (digit_value_bounds c v value).1

theorem shown_ascii (values : List Nat) (pads : Nat) (t : Text) (shown : Shows values pads t) :
    ∀ c ∈ t, c.val < 0x80 := by
  obtain ⟨digits, rfl, told⟩ := shown
  intro c mem
  rcases List.mem_append.mp mem with digit | pad
  · obtain ⟨v, _, value⟩ := List.mem_map.mp (told ▸ List.mem_map_of_mem digit : digitValue? c ∈ values.map some)
    exact (digit_value_bounds c v value.symm).2
  · rw [List.eq_of_mem_replicate pad]
    decide

/-- How much padding stands after so many digits: any after whole groups, else as much as completes
the last group, which has two digits at least. -/
def Closes (count pads : Nat) : Prop := count % 4 = 0 ∨ 2 ≤ count % 4 ∧ count % 4 + pads = 4

theorem finish_iff (digits : List Nat) (bytes : Bytes) :
    finish digits = .ok bytes ↔ Closes digits.length 0 ∧ bytes = bytesOf digits := by
  have closed : Closes digits.length 0 ↔ digits.length % 4 = 0 := by
    simp only [Closes]
    omega
  rw [finish, closed]
  generalize digits.length % 4 = left
  rcases left with _ | _ | left
  · simp [eq_comm]
  · simp
  · simp

section Padding

variable (reversed : List Nat) (pads : Nat) (t : Text) (bytes : Bytes)

def Filled : Prop :=
  ∃ more, t = List.replicate more padding ∧ Closes reversed.length (pads + more) ∧ bytes = bytesOf reversed.reverse

theorem filled_nil_iff : Filled reversed pads [] bytes ↔ Closes reversed.length pads ∧
    bytes = bytesOf reversed.reverse := by
  constructor
  · rintro ⟨more, text, closed, told⟩
    obtain rfl : more = 0 := by simpa using text
    exact ⟨closed, told⟩
  · rintro ⟨closed, told⟩
    exact ⟨0, rfl, closed, told⟩

theorem filled_padding_iff : Filled reversed pads (padding :: t) bytes ↔ Filled reversed (pads + 1) t bytes := by
  constructor
  · rintro ⟨more, text, closed, told⟩
    cases more with
    | zero => cases text
    | succ more =>
        refine ⟨more, (List.cons.inj text).2, ?_, told⟩
        rwa [Nat.add_assoc, Nat.add_comm 1]
  · rintro ⟨more, rfl, closed, told⟩
    refine ⟨more + 1, rfl, ?_, told⟩
    rwa [Nat.add_comm more, ← Nat.add_assoc]

theorem filled_complete_iff (two : 2 ≤ reversed.length % 4) (complete : reversed.length % 4 + pads = 4) :
    Filled reversed pads t bytes ↔ t = [] ∧ bytes = bytesOf reversed.reverse := by
  constructor
  · rintro ⟨more, rfl, closed, told⟩
    obtain rfl : more = 0 := by
      simp only [Closes] at closed
      omega
    exact ⟨rfl, told⟩
  · rintro ⟨rfl, told⟩
    exact ⟨0, rfl, .inr ⟨two, complete⟩, told⟩

theorem filled_uncounted_iff (few : reversed.length % 4 < 2) :
    Filled reversed (pads + 1) t bytes ↔ Filled reversed pads t bytes := by
  refine exists_congr fun more => and_congr_right fun _ => and_congr_left fun _ => ?_
  simp only [Closes]
  omega

theorem filled_other (c : CodePoint) (noPadding : c ≠ padding) : ¬ Filled reversed pads (c :: t) bytes := by
  rintro ⟨more, text, _⟩
  exact noPadding (List.eq_of_mem_replicate (text ▸ List.mem_cons_self))

theorem read_padded_iff (opened : 2 ≤ reversed.length % 4 → reversed.length % 4 + pads < 4) :
    readFrom reversed reversed.length true pads t = .ok bytes ↔ Filled reversed pads t bytes := by
  induction t generalizing pads with
  | nil =>
      have closed : Closes reversed.length 0 ↔ Closes reversed.length pads := by
        simp only [Closes]
        omega
      rw [readFrom, finish_iff, filled_nil_iff, List.length_reverse, closed]
  | cons c t ih =>
      by_cases pad : c = padding
      · subst pad
        rw [filled_padding_iff, readFrom, if_pos rfl]
        by_cases two : 2 ≤ reversed.length % 4
        · rw [if_pos two]
          by_cases last : 4 ≤ reversed.length % 4 + (pads + 1)
          · rw [if_pos last, filled_complete_iff reversed (pads + 1) t bytes two (by omega)]
            by_cases ended : t = []
            · simp [ended, eq_comm]
            · simp [ended]
          · rw [if_neg last]
            exact ih (pads + 1) (by omega)
        · rw [if_neg two, filled_uncounted_iff reversed pads t bytes (by omega)]
          exact ih pads (by omega)
      · rw [readFrom, if_neg pad]
        refine iff_of_false ?_ (filled_other reversed pads t bytes c pad)
        cases digitValue? c with
        | none => simp
        | some v => simp

end Padding

theorem read_iff (reversed : List Nat) (t : Text) (bytes : Bytes) :
    readFrom reversed reversed.length false 0 t = .ok bytes ↔
      ∃ values pads, Shows values pads t ∧ Closes (reversed.length + values.length) pads ∧
        bytes = bytesOf (reversed.reverse ++ values) := by
  induction t generalizing reversed with
  | nil =>
      simp only [shows_nil_iff, readFrom, finish_iff, List.length_reverse]
      constructor
      · rintro ⟨closed, rfl⟩
        exact ⟨[], 0, ⟨rfl, rfl⟩, closed, by rw [List.append_nil]⟩
      · rintro ⟨_, _, ⟨rfl, rfl⟩, closed, rfl⟩
        exact ⟨closed, by rw [List.append_nil]⟩
  | cons c t ih =>
      by_cases pad : c = padding
      · subst pad
        have begun (padded : Bool) : readFrom reversed reversed.length padded 0 (padding :: t) =
            readFrom reversed reversed.length true 0 (padding :: t) := by
          rw [readFrom, readFrom, if_pos rfl, if_pos rfl]
        rw [begun, read_padded_iff reversed 0 _ bytes (by omega), Filled]
        simp only [shows_padding_iff, Nat.zero_add]
        constructor
        · rintro ⟨pads, text, closed, rfl⟩
          exact ⟨[], pads, ⟨rfl, text⟩, closed, by rw [List.append_nil]⟩
        · rintro ⟨_, pads, ⟨rfl, text⟩, closed, rfl⟩
          exact ⟨pads, text, closed, by rw [List.append_nil]⟩
      · simp only [shows_digit_iff _ _ c t pad]
        rw [readFrom, if_neg pad]
        cases value : digitValue? c with
        | none => simp
        | some v =>
            refine (ih (v :: reversed)).trans ?_
            simp only [List.length_cons, List.reverse_cons, List.append_assoc, List.singleton_append]
            constructor
            · rintro ⟨values, pads, shown, closed, rfl⟩
              refine ⟨v :: values, pads, ⟨v, values, rfl, rfl, shown⟩, ?_, rfl⟩
              rwa [List.length_cons, Nat.add_comm values.length, ← Nat.add_assoc]
            · rintro ⟨_, pads, ⟨w, values, first, rfl, shown⟩, closed, rfl⟩
              cases first
              refine ⟨values, pads, shown, ?_, rfl⟩
              rwa [List.length_cons, Nat.add_comm values.length, ← Nat.add_assoc] at closed

theorem decode_iff (t : Text) (bytes : Bytes) : decode t = .ok bytes ↔
    ∃ values pads, Shows values pads t ∧ Closes values.length pads ∧ (values = [] → pads = 0) ∧
      bytes = bytesOf values := by
  cases t with
  | nil =>
      simp only [shows_nil_iff, decode]
      constructor
      · intro read
        cases read
        exact ⟨[], 0, ⟨rfl, rfl⟩, .inl rfl, fun _ => rfl, rfl⟩
      · rintro ⟨_, _, ⟨rfl, rfl⟩, _, _, rfl⟩
        rfl
  | cons c t =>
      rw [decode]
      by_cases pad : c = padding
      · subst pad
        simp only [shows_padding_iff, if_true, reduceCtorEq, false_iff]
        rintro ⟨_, pads, ⟨rfl, text⟩, _, alone, _⟩
        rw [alone rfl] at text
        cases text
      · rw [if_neg pad]
        refine (read_iff [] (c :: t) bytes).trans ?_
        simp only [List.length_nil, Nat.zero_add, List.reverse_nil, List.nil_append]
        constructor
        · rintro ⟨values, pads, shown, closed, rfl⟩
          obtain ⟨v, rest, _, rfl, _⟩ := (shows_digit_iff values pads c t pad).mp shown
          exact ⟨_, pads, shown, closed, fun none => absurd none (by simp), rfl⟩
        · rintro ⟨values, pads, shown, closed, _, rfl⟩
          exact ⟨values, pads, shown, closed, rfl⟩

/-- A text that stands for bytes: digits with the same bits, in whole groups, and then any padding;
or with a few bits more and the padding that the last group lacks. -/
inductive Payload (t : Text) (bytes : Bytes) : Prop where
  | whole (values : List Nat) (pads : Nat) (shown : Shows values pads t) (alone : values = [] → pads = 0)
      (same : values.flatMap (bits 6) = bytes.flatMap byteBits)
  | cut (values : List Nat) (pads : Nat) (shown : Shows values pads t) (spare : List Bool)
      (lack : spare.length = 2 * pads) (few : pads = 1 ∨ pads = 2)
      (same : values.flatMap (bits 6) = bytes.flatMap byteBits ++ spare)

theorem payload_ascii (t : Text) (bytes : Bytes) (payload : Payload t bytes) : ∀ c ∈ t, c.val < 0x80 := by
  cases payload with
  | whole values pads shown => exact shown_ascii values pads t shown
  | cut values pads shown => exact shown_ascii values pads t shown

theorem decode_iff_payload (t : Text) (bytes : Bytes) : decode t = .ok bytes ↔ Payload t bytes := by
  rw [decode_iff]
  constructor
  · rintro ⟨values, pads, shown, closed, alone, rfl⟩
    obtain ⟨spare, length, same⟩ := bytes_of_bits values (shown_small values pads t shown)
      (by simp only [Closes] at closed; omega)
    rcases closed with whole | ⟨two, complete⟩
    · have none : spare = [] := List.length_eq_zero_iff.mp (by omega)
      rw [none, List.append_nil] at same
      exact .whole values pads shown alone same
    · exact .cut values pads shown spare (by omega) (by omega) same
  · intro payload
    -- The bits of the bytes count the digits, and so tell how much padding there has to be.
    cases payload with
    | whole values pads shown alone same =>
        have counted := congrArg List.length same
        rw [values_bits_length, bytes_bits_length] at counted
        obtain ⟨spare, length, same'⟩ := bytes_of_bits values (shown_small values pads t shown) (by omega)
        refine ⟨values, pads, shown, .inl (by omega), alone, bytes_from_bits _ _ [] spare (by simp) (by omega) ?_⟩
        rw [← same', same, List.append_nil]
    | cut values pads shown spare lack few same =>
        have counted := congrArg List.length same
        rw [List.length_append, values_bits_length, bytes_bits_length] at counted
        obtain ⟨spare', length, same'⟩ := bytes_of_bits values (shown_small values pads t shown) (by omega)
        refine ⟨values, pads, shown, .inr (by omega), ?_, bytes_from_bits _ _ spare spare' (by omega) (by omega) ?_⟩
        · rintro rfl
          simp only [List.length_nil] at counted
          omega
        · rw [← same', same]

example : decode "QUJD===" = .ok [0x41, 0x42, 0x43] := by decide +kernel

end Base64

namespace Binary

variable (t : Text)

def Foreign : Prop := ∃ c ∈ Text.trim t, 0x80 ≤ c.val

theorem decode_base64_cases :
    (Foreign t ∧ decodeBase64 t = .error .notAscii) ∨
    (¬ Foreign t ∧ (∀ bytes, Base64.decode (Text.trim t) ≠ .ok bytes) ∧ ∃ fault, decodeBase64 t =
      .error (.decode fault)) ∨
    (¬ Foreign t ∧ ∃ bytes, Base64.decode (Text.trim t) = .ok bytes ∧ decodeBase64 t =
      (decodeDefinition bytes).mapError .decode) := by
  by_cases all : (Text.trim t).all (fun c => c.val < 0x80) = true
  · have plain : ¬ Foreign t := by simpa [Foreign] using all
    refine .inr ?_
    rw [decodeBase64, if_pos all]
    cases Base64.decode (Text.trim t) with
    | error fault => exact .inl ⟨plain, by simp, _, rfl⟩
    | ok bytes =>
        refine .inr ⟨plain, bytes, rfl, ?_⟩
        dsimp only
        cases decodeDefinition bytes with
        | error fault => rfl
        | ok d => rfl
  · have foreign : Foreign t := by simpa [Foreign] using all
    exact .inl ⟨foreign, by rw [decodeBase64, if_neg all]⟩

theorem foreign_no_payload (foreign : Foreign t) (bytes : Bytes) : ¬ Base64.Payload (Text.trim t) bytes := by
  intro payload
  obtain ⟨c, mem, high⟩ := foreign
  exact absurd (Base64.payload_ascii _ bytes payload c mem) (by omega)

theorem decode_base64_ok_iff (d : Definition) : decodeBase64 t = .ok d ↔
    ∃ bytes, Base64.Payload (Text.trim t) bytes ∧ decodeDefinition bytes = .ok d := by
  rcases decode_base64_cases t with ⟨foreign, refused⟩ | ⟨_, unread, fault, refused⟩ | ⟨_, bytes, read, decoded⟩
  · refine iff_of_false (by simp [refused]) ?_
    rintro ⟨bytes, payload, _⟩
    exact foreign_no_payload t foreign bytes payload
  · refine iff_of_false (by simp [refused]) ?_
    rintro ⟨bytes, payload, _⟩
    exact unread bytes ((Base64.decode_iff_payload _ bytes).mpr payload)
  · rw [decoded, map_error_ok]
    constructor
    · exact fun accepted => ⟨bytes, (Base64.decode_iff_payload _ bytes).mp read, accepted⟩
    · rintro ⟨bytes', payload, accepted⟩
      rw [← Base64.decode_iff_payload, read] at payload
      cases payload
      exact accepted

theorem decode_base64_fault (fault : Base64Fault) (refused : decodeBase64 t = .error fault) :
    (Foreign t ∧ fault = .notAscii ∧ (Fault.base64 fault).kind = .badValue) ∨
    (¬ Foreign t ∧ fault ≠ .notAscii ∧ (Fault.base64 fault).kind = .malformedBytes) := by
  rcases decode_base64_cases t with ⟨foreign, told⟩ | ⟨plain, _, _, told⟩ | ⟨plain, bytes, _, told⟩
  · rw [told] at refused
    cases refused
    exact .inl ⟨foreign, rfl, rfl⟩
  · rw [told] at refused
    cases refused
    exact .inr ⟨plain, by simp, rfl⟩
  · rw [told, map_error_error] at refused
    obtain ⟨flaw, _, rfl⟩ := refused
    exact .inr ⟨plain, by simp, rfl⟩

/-- A text is decoded exactly when it is trimmed to a payload whose bytes are a definition. Every
other text is refused as malformed bytes, except where a code point outside of ASCII stands in it:
that is found before anything is read, and it is told as a bad value. -/
theorem decode_base64_settled :
    (∀ d, decodeBase64 t = .ok d ↔ ∃ bytes, Base64.Payload (Text.trim t) bytes ∧ decodeDefinition bytes = .ok d) ∧
    ((∃ fault, decodeBase64 t = .error fault ∧ (Fault.base64 fault).kind = .malformedBytes) ↔
      ¬ Foreign t ∧ ¬ ∃ d bytes, Base64.Payload (Text.trim t) bytes ∧ decodeDefinition bytes = .ok d) ∧
    (decodeBase64 t = .error .notAscii ↔ Foreign t) := by
  refine ⟨decode_base64_ok_iff t, ?_⟩
  simp only [← decode_base64_ok_iff]
  cases outcome : decodeBase64 t with
  | ok d =>
      have plain : ¬ Foreign t := by
        intro foreign
        obtain ⟨bytes, payload, _⟩ := (decode_base64_ok_iff t d).mp outcome
        exact foreign_no_payload t foreign bytes payload
      simp [plain]
  | error fault =>
      rcases decode_base64_fault t fault outcome with ⟨foreign, rfl, kind⟩ | ⟨plain, other, kind⟩
      · simp [foreign, kind]
      · simp [plain, other, kind]

theorem foreign_letter_is_a_bad_value :
    let t : Text := "é"
    (∀ bytes, ¬ Base64.Payload (Text.trim t) bytes) ∧ decodeBase64 t = .error .notAscii ∧
      (Fault.base64 .notAscii).kind = .badValue ∧ (Fault.base64 .notAscii).kind ≠ .malformedBytes := by
  intro t
  have foreign : ∃ c ∈ Text.trim t, 0x80 ≤ c.val := by decide +kernel
  exact ⟨foreign_no_payload t foreign, by decide +kernel, rfl, by decide⟩

end Binary

end TapeMachine
