import TapeMachine.Text.CodePoint

set_option autoImplicit false

namespace TapeMachine

theorem digit_point_below (n : Nat) : 0x30 + n % 10 < 0x110000 := by omega

def decimalDigit (n : Nat) : CodePoint := ⟨0x30 + n % 10, digit_point_below n⟩

theorem hex_point_below (n : Nat) : (if n % 16 < 10 then 0x30 + n % 16 else 0x57 + n % 16) < 0x110000 := by
  split <;> omega

def hexDigit (n : Nat) : CodePoint := ⟨if n % 16 < 10 then 0x30 + n % 16 else 0x57 + n % 16, hex_point_below n⟩

def numeral (n : Nat) : Text :=
  if n < 10 then [decimalDigit n] else numeral (n / 10) ++ [decimalDigit n]
termination_by n
decreasing_by omega

def signedNumeral (i : Int) : Text := if i < 0 then CodePoint.ofChar '-' :: numeral i.natAbs else numeral i.natAbs

def numeralValue (t : Text) : Nat := t.foldl (fun n c => 10 * n + c.digitValue) 0

def hexFixed : Nat → Nat → Text
  | 0, _ => []
  | width + 1, n => hexFixed width (n / 16) ++ [hexDigit n]

def hexNumeral (n : Nat) : Text :=
  if n < 16 then [hexDigit n] else hexNumeral (n / 16) ++ [hexDigit n]
termination_by n
decreasing_by omega

def hexPadded (width n : Nat) : Text :=
  let digits := hexNumeral n
  List.replicate (width - digits.length) (CodePoint.ofChar '0') ++ digits

def groupThousands (digits : Text) : Text :=
  (digits.zipIdx.map fun (c, i) =>
    if 0 < i ∧ (digits.length - i) % 3 = 0 then [CodePoint.ofChar ',', c] else [c]).flatten

def groupedNumeral (i : Int) : Text :=
  if i < 0 then CodePoint.ofChar '-' :: groupThousands (numeral i.natAbs) else groupThousands (numeral i.natAbs)

@[simp] theorem decimal_digit_is_digit (n : Nat) : (decimalDigit n).isDigit = true := by
  have value : (decimalDigit n).val = 0x30 + n % 10 := rfl
  simp only [CodePoint.isDigit, Bool.and_eq_true, decide_eq_true_eq]
  omega

@[simp] theorem decimal_digit_value (n : Nat) : (decimalDigit n).digitValue = n % 10 := by
  simp [CodePoint.digitValue, decimalDigit]

@[simp] theorem numeral_value_append (t : Text) (c : CodePoint) :
    numeralValue (t ++ [c]) = 10 * numeralValue t + c.digitValue := by
  simp [numeralValue]

@[simp] theorem numeral_value_numeral (n : Nat) : numeralValue (numeral n) = n := by
  induction n using Nat.strongRecOn with
  | ind n ih =>
      rw [numeral]
      split
      · rename_i small
        simp [numeralValue]
        omega
      · rename_i large
        rw [numeral_value_append, ih (n / 10) (by omega), decimal_digit_value]
        omega

theorem numeral_digits (n : Nat) : ∀ c ∈ numeral n, c.isDigit = true := by
  induction n using Nat.strongRecOn with
  | ind n ih =>
      rw [numeral]
      split
      · simp
      · intro c mem
        rcases List.mem_append.mp mem with head | last
        · exact ih (n / 10) (by omega) c head
        · rw [List.mem_singleton.mp last]
          exact decimal_digit_is_digit n

@[simp] theorem numeral_ne_nil (n : Nat) : numeral n ≠ [] := by
  rw [numeral]
  split <;> simp

theorem grouped_numeral_digit (n : Nat) : ∃ c ∈ groupedNumeral n, c.isDigit = true := by
  have natural : ¬ (n : Int) < 0 := by omega
  obtain ⟨c, rest, shape⟩ := List.exists_cons_of_ne_nil (numeral_ne_nil (n : Int).natAbs)
  refine ⟨c, ?_, numeral_digits (n : Int).natAbs c (shape ▸ List.mem_cons_self)⟩
  rw [groupedNumeral, if_neg natural, shape]
  simp [groupThousands]

end TapeMachine
