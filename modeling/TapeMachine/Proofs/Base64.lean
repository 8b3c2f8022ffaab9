import TapeMachine.Bytes.Base64
import TapeMachine.Proofs.Pieces

set_option autoImplicit false

namespace TapeMachine.Base64

open Text (Solid)

structure Digit (c : CodePoint) (value : Nat) : Prop where
  value : digitValue? c = some value
  notPadding : c ≠ padding
  ascii : c.val < 0x80
  visible : c.isBlank = false

theorem digit_sound (n : Nat) : Digit (digit n) (n % 64) := by
  have all : ∀ i : Fin 64, digitValue? (digit i) = some i.val ∧ digit i ≠ padding ∧ (digit i).val < 0x80 ∧
      (digit i).isBlank = false := by decide +kernel
  have wrapped : digit (n % 64) = digit n := by rw [digit, digit, Nat.mod_mod]
  obtain ⟨value, notPadding, ascii, visible⟩ := all ⟨n % 64, Nat.mod_lt n (by decide)⟩
  simp only [wrapped] at value notPadding ascii visible
  exact ⟨value, notPadding, ascii, visible⟩

theorem read_digit (reversed : List Nat) (count n : Nat) (t : Text) :
    readFrom reversed count false 0 (digit n :: t) = readFrom (n % 64 :: reversed) (count + 1) false 0 t := by
  have sound := digit_sound n
  rw [readFrom, if_neg sound.notPadding, sound.value]
  rfl

theorem bytes_of_append (xs ys : List Nat) (whole : xs.length % 4 = 0) :
    bytesOf (xs ++ ys) = bytesOf xs ++ bytesOf ys := by
  fun_induction bytesOf xs with
  | case1 a b c d rest ih =>
      have fewer : rest.length % 4 = 0 := by
        simp only [List.length_cons] at whole
        omega
      simp only [List.cons_append, bytesOf, ih fewer]
  | case2 => simp at whole
  | case3 => simp at whole
  | case4 xs long three two =>
      match xs with
      | [] => rfl
      | [a] => simp at whole
      | [a, b] => exact absurd rfl (two a b)
      | [a, b, c] => exact absurd rfl (three a b c)
      | a :: b :: c :: d :: rest => exact absurd rfl (long a b c d rest)

theorem byte_of (n : Nat) (b : UInt8) (same : n % 256 = b.toNat) : UInt8.ofNat n = b := by
  apply UInt8.toNat_inj.mp
  rw [UInt8.toNat_ofNat']
  exact same

theorem read_encoded (bytes : Bytes) (reversed : List Nat) (whole : reversed.length % 4 = 0) :
    readFrom reversed reversed.length false 0 (encode bytes) = .ok (bytesOf reversed.reverse ++ bytes) := by
  have groups : reversed.reverse.length % 4 = 0 := by rw [List.length_reverse, whole]
  fun_induction encode bytes generalizing reversed with
  | case1 =>
      rw [readFrom, finish, groups, List.append_nil]
      rfl
  | case2 a n =>
      have byte := a.toNat_lt
      have two : (reversed.length + 1 + 1) % 4 = 2 := by omega
      rw [read_digit, read_digit, readFrom, if_pos rfl, if_pos (by omega), if_neg (by omega), readFrom,
        if_pos rfl, if_pos (by omega),
        if_pos (by omega), if_pos rfl]
      rw [List.reverse_cons, List.reverse_cons, List.append_assoc, bytes_of_append _ _ groups]
      have first := byte_of (n / 64 % 64 * 4 + n % 64 / 16) a (by omega)
      simp only [List.cons_append, List.nil_append, bytesOf, first]
  | case3 a b n =>
      have byte := a.toNat_lt
      have byte' := b.toNat_lt
      have three : (reversed.length + 1 + 1 + 1) % 4 = 3 := by omega
      rw [read_digit, read_digit, read_digit, readFrom, if_pos rfl, if_pos (by omega), if_pos (by omega), if_pos rfl]
      rw [List.reverse_cons, List.reverse_cons, List.reverse_cons, List.append_assoc, List.append_assoc,
        bytes_of_append _ _ groups]
      have first := byte_of (n / 4096 % 64 * 4 + n / 64 % 64 / 16) a (by omega)
      have second := byte_of (n / 64 % 64 * 16 + n % 64 / 4) b (by omega)
      simp only [List.cons_append, List.nil_append, bytesOf, first, second]
  | case4 a b c rest n ih =>
      have byte := a.toNat_lt
      have byte' := b.toNat_lt
      have byte'' := c.toNat_lt
      have more := ih (n % 64 :: n / 64 % 64 :: n / 4096 % 64 :: n / 262144 % 64 :: reversed)
        (by simp only [List.length_cons]; omega) (by simp only [List.length_reverse, List.length_cons]; omega)
      rw [read_digit, read_digit, read_digit, read_digit]
      refine more.trans ?_
      simp only [List.reverse_cons, List.append_assoc]
      rw [bytes_of_append _ _ groups]
      have first := byte_of (n / 262144 % 64 * 4 + n / 4096 % 64 / 16) a (by omega)
      have second := byte_of (n / 4096 % 64 * 16 + n / 64 % 64 / 4) b (by omega)
      have third := byte_of (n / 64 % 64 * 64 + n % 64) c (by omega)
      simp only [List.cons_append, List.nil_append, bytesOf, first, second, third, List.append_assoc]

theorem starts_with_digit (bytes : Bytes) (filled : bytes ≠ []) : ∃ n t, encode bytes = digit n :: t := by
  match bytes with
  | [] => exact absurd rfl filled
  | [a] => exact ⟨_, _, rfl⟩
  | [a, b] => exact ⟨_, _, rfl⟩
  | a :: b :: c :: rest => exact ⟨_, _, rfl⟩

@[simp] theorem decode_encode (bytes : Bytes) : decode (encode bytes) = .ok bytes := by
  by_cases filled : bytes = []
  · rw [filled]
    rfl
  · have read := read_encoded bytes [] rfl
    obtain ⟨n, t, shape⟩ := starts_with_digit bytes filled
    rw [shape] at read ⊢
    rw [decode, if_neg (digit_sound n).notPadding]
    exact read

theorem encode_plain (bytes : Bytes) : ∀ c ∈ encode bytes, c.val < 0x80 ∧ c.isBlank = false := by
  have plain (n : Nat) : (digit n).val < 0x80 ∧ (digit n).isBlank = false :=
    ⟨(digit_sound n).ascii, (digit_sound n).visible⟩
  have filler : padding.val < 0x80 ∧ padding.isBlank = false := by decide
  fun_induction encode bytes with
  | case1 => simp
  | case2 a n => simp [plain, filler]
  | case3 a b n => simp [plain, filler]
  | case4 a b c rest n ih => simpa only [List.forall_mem_cons, plain, true_and] using ih

end TapeMachine.Base64
