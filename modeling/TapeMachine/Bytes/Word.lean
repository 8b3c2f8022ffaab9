import TapeMachine.Decimal.Power
import TapeMachine.Text.CodePoint

set_option autoImplicit false

namespace TapeMachine.Word

def encode : Nat → Nat → Bytes
  | 0, _ => []
  | size + 1, n => UInt8.ofNat n :: encode size (n / 256)

def decode : Bytes → Nat
  | [] => 0
  | b :: rest => b.toNat + 256 * decode rest

@[simp] theorem encode_length (size n : Nat) : (encode size n).length = size := by
  induction size generalizing n with
  | zero => rfl
  | succ size ih => simp [encode, ih]

def span (size : Nat) : Nat := twoTo (8 * size)

theorem span_succ (size : Nat) : span (size + 1) = 256 * span size := by
  have byte : twoTo 8 = 256 := rfl
  rw [span, Nat.mul_succ, two_to_add, byte, Nat.mul_comm, span]

theorem decode_encode (size n : Nat) (small : n < span size) : decode (encode size n) = n := by
  induction size generalizing n with
  | zero =>
      have none : n < 1 := small
      simp only [encode, decode]
      omega
  | succ size ih =>
      rw [span_succ] at small
      have rest : n / 256 < span size := by omega
      simp only [encode, decode, ih _ rest, UInt8.toNat_ofNat']
      omega

theorem decode_lt (bytes : Bytes) : decode bytes < span bytes.length := by
  induction bytes with
  | nil => exact two_to_pos 0
  | cons b rest ih =>
      have below := b.toNat_lt
      simp only [decode, List.length_cons, span_succ]
      omega

@[simp] theorem encode_decode (bytes : Bytes) : encode bytes.length (decode bytes) = bytes := by
  induction bytes with
  | nil => rfl
  | cons b rest ih =>
      have below := b.toNat_lt
      simp only [List.length_cons, encode, decode]
      congr 1
      · apply UInt8.toNat_inj.mp
        simp only [UInt8.toNat_ofNat']
        omega
      · have quotient : (b.toNat + 256 * decode rest) / 256 = decode rest := by omega
        rw [quotient, ih]

def signed (n : Nat) : Int := if n < twoTo 31 then n else (n : Int) - twoTo 32

def encodeUnsigned? (size : Nat) (i : Int) : Option Bytes :=
  if 0 ≤ i ∧ i < span size then some (encode size i.toNat) else none

def encodeSigned? (i : Int) : Option Bytes :=
  if -(twoTo 31 : Int) ≤ i ∧ i < twoTo 31 then some (encode 4 (i % twoTo 32).toNat) else none

def decodeSigned (bytes : Bytes) : Int := signed (decode bytes)

theorem signed_mod (i : Int) (low : -(twoTo 31 : Int) ≤ i) (high : i < twoTo 31) : signed (i % twoTo 32).toNat = i := by
  have half : twoTo 31 = 2147483648 := rfl
  have whole : twoTo 32 = 4294967296 := rfl
  unfold signed
  rw [half] at low high ⊢
  rw [whole]
  split <;> omega

end TapeMachine.Word
