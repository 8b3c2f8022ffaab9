import TapeMachine.Json.Printer
import TapeMachine.Json.Reader
import TapeMachine.Proofs.Outcome
import TapeMachine.Proofs.Pieces
import TapeMachine.Proofs.ScalarText

set_option autoImplicit false

namespace TapeMachine

namespace Json

@[simp] theorem hex_value_digit (n : Nat) : hexValue? (hexDigit n) = some (n % 16) := by
  by_cases decimal : n % 16 < 10
  · have value : (hexDigit n).val = 0x30 + n % 16 := by simp [hexDigit, decimal]
    rw [hexValue?, value, if_pos (by omega), Nat.add_sub_cancel_left]
  · have value : (hexDigit n).val = 0x57 + n % 16 := by simp [hexDigit, decimal]
    rw [hexValue?, value, if_neg (by omega), if_neg (by omega), if_pos (by omega), Nat.add_sub_cancel_left]

theorem read_unit_hex (n : Nat) (rest : Text) (small : n < 0x10000) :
    readUnit? (hexFixed 4 n ++ rest) = some (n, rest) := by
  have digits : hexFixed 4 n = [hexDigit (n / 16 / 16 / 16), hexDigit (n / 16 / 16),
    hexDigit (n / 16), hexDigit n] := rfl
  have value : n / 16 / 16 / 16 % 16 * 4096 + n / 16 / 16 % 16 * 256 + n / 16 % 16 * 16 + n % 16 = n := by omega
  simp only [digits, List.cons_append, List.nil_append, readUnit?, hex_value_digit, value]

@[simp] theorem hex_fixed_length (width n : Nat) : (hexFixed width n).length = width := by
  induction width generalizing n with
  | zero => rfl
  | succ width ih => rw [hexFixed, List.length_append, ih, List.length_singleton]

theorem unit_length (n : Nat) (rest : Text) (more : rest ≠ []) :
    5 < (CodePoint.ofChar 'u' :: (hexFixed 4 n ++ rest)).length := by
  have filled := List.length_pos_iff.mpr more
  rw [List.length_cons, List.length_append, hex_fixed_length]
  omega

theorem read_unit_escape_single (n : Nat) (rest : Text) (small : n < 0x10000)
    (single : isHighSurrogate n = false) (more : rest ≠ []) :
    readUnitEscape (CodePoint.ofChar 'u' :: (hexFixed 4 n ++ rest)) = .ok (n, rest) := by
  have long := unit_length n rest more
  simp only [readUnitEscape, if_neg (Nat.not_le.mpr long), List.drop_succ_cons, List.drop_zero,
    read_unit_hex n rest small, single,
    Bool.false_eq_true, if_false]

theorem unicode_escape_append (n : Nat) (rest : Text) :
    unicodeEscape n ++ rest = CodePoint.ofChar '\\' :: CodePoint.ofChar 'u' :: (hexFixed 4 n ++ rest) := rfl

theorem read_unit_escape_pair (high low : Nat) (rest : Text) (first : 0xD800 ≤ high ∧ high ≤ 0xDBFF)
    (second : 0xDC00 ≤ low ∧ low ≤ 0xDFFF) (more : rest ≠ []) :
    readUnitEscape (CodePoint.ofChar 'u' :: (hexFixed 4 high ++ (unicodeEscape low ++ rest))) =
      .ok (0x10000 + (high - 0xD800) * 0x400 + (low - 0xDC00), rest) := by
  have again := unicode_escape_append low rest
  have long := unit_length high (unicodeEscape low ++ rest) (by rw [again]; simp)
  have isHigh : isHighSurrogate high = true := by simp [isHighSurrogate, first]
  have isLow : isLowSurrogate low = true := by simp [isLowSurrogate, second]
  have filled := unit_length low rest more
  have next : nextUnit? (unicodeEscape low ++ rest) = some (CodePoint.ofChar 'u' :: (hexFixed 4 low ++ rest)) := by
    rw [List.length_cons] at filled
    rw [again, nextUnit?, if_pos ⟨rfl, rfl, by omega⟩]
  simp only [readUnitEscape, if_neg (Nat.not_le.mpr long), List.drop_succ_cons, List.drop_zero,
    read_unit_hex high _ (by omega), isHigh,
    if_true, next, read_unit_hex low rest (by omega), isLow]

variable (opening reversed rest : Text) (fuel : Nat) (c : CodePoint)

theorem read_string_escape (t : Text) (read : readEscape opening '\\' t = .ok (c.val, rest)) :
    readString opening reversed (fuel + 1) (CodePoint.ofChar '\\' :: t) = readString opening
    (c :: reversed) fuel rest := by
  rw [readString, if_neg (by decide), if_neg (by decide), if_pos rfl, read]
  simp only [ok_bind, CodePoint.of_nat_val]

theorem read_string_unit (t : Text) (read : readUnitEscape (CodePoint.ofChar 'u' :: t) = .ok (c.val, rest)) :
    readString opening reversed (fuel + 1) (CodePoint.ofChar '\\' :: CodePoint.ofChar 'u' :: t) =
      readString opening (c :: reversed) fuel rest := by
  apply read_string_escape
  rw [readEscape, if_pos rfl, read]

theorem read_string_short (letter : CodePoint) (k : Char) (plain : letter ≠ CodePoint.ofChar 'u')
    (found : (shortEscapes.find? fun e => letter = CodePoint.ofChar e.1) = some (k, c.val)) :
    readString opening reversed (fuel + 1) (CodePoint.ofChar '\\' :: letter :: rest) = readString opening
    (c :: reversed) fuel rest := by
  apply read_string_escape
  simp only [readEscape, if_neg plain, found]

theorem read_string_point (scalar : c.isSurrogate = false) (more : rest ≠ []) :
    readString opening reversed (fuel + 1) (escapedPoint c ++ rest) = readString opening (c :: reversed) fuel rest := by
  have short (letter : CodePoint) (k : Char) (n : Nat) (value : c.val = n) (plain : letter ≠ CodePoint.ofChar 'u')
      (found : (shortEscapes.find? fun e => letter = CodePoint.ofChar e.1) = some (k, n)) :=
    read_string_short opening reversed rest fuel c letter k plain (value ▸ found)
  simp only [escapedPoint]
  split
  · rename_i quote
    exact short '"' '"' 0x22 (by rw [quote]; rfl) (by decide) rfl
  split
  · rename_i slash
    exact short '\\' '\\' 0x5C (by rw [slash]; rfl) (by decide) rfl
  rename_i notQuote notSlash
  split
  · rename_i value
    exact short 'b' 'b' 0x08 value (by decide) rfl
  split
  · rename_i value
    exact short 't' 't' 0x09 value (by decide) rfl
  split
  · rename_i value
    exact short 'n' 'n' 0x0A value (by decide) rfl
  split
  · rename_i value
    exact short 'f' 'f' 0x0C value (by decide) rfl
  split
  · rename_i value
    exact short 'r' 'r' 0x0D value (by decide) rfl
  split
  · rename_i visible
    rw [List.singleton_append, readString, if_neg notQuote, if_neg (by omega), if_neg notSlash]
  split
  · rename_i small
    simp only [CodePoint.isSurrogate, Bool.and_eq_false_iff, decide_eq_false_iff_not] at scalar
    have single : isHighSurrogate c.val = false := by
      simp only [isHighSurrogate, Bool.and_eq_false_iff, decide_eq_false_iff_not]
      omega
    rw [unicode_escape_append]
    exact read_string_unit _ _ _ _ c _ (read_unit_escape_single c.val rest small single more)
  · rename_i large
    have within := c.isLt
    have pair := read_unit_escape_pair (0xD800 + (c.val - 0x10000) / 0x400) (0xDC00 + (c.val - 0x10000) % 0x400) rest
      (by omega) (by omega) more
    have value : 0x10000 + (0xD800 + (c.val - 0x10000) / 0x400 - 0xD800) * 0x400 +
        (0xDC00 + (c.val - 0x10000) % 0x400 - 0xDC00) = c.val := by omega
    rw [value] at pair
    rw [List.append_assoc, unicode_escape_append]
    exact read_string_unit _ _ _ _ c _ pair

theorem read_string_literal (t : Text) (scalar : t.Scalar) (enough : t.length < fuel) :
    readString opening reversed fuel (t.flatMap escapedPoint ++ CodePoint.ofChar '"' :: rest) =
    .ok (reversed.reverse ++ t, rest) := by
  induction t generalizing reversed fuel with
  | nil =>
      obtain ⟨fuel, rfl⟩ := Nat.exists_eq_add_of_lt enough
      rw [List.flatMap_nil, List.nil_append, List.append_nil, readString, if_pos rfl]
  | cons c t ih =>
      rw [List.length_cons] at enough
      obtain ⟨fuel, rfl⟩ : ∃ n, fuel = n + 1 := ⟨fuel - 1, by omega⟩
      have first := scalar c List.mem_cons_self
      have others := ih (c :: reversed) fuel (fun d mem => scalar d (List.mem_cons_of_mem c mem)) (by omega)
      rw [List.flatMap_cons, List.append_assoc, read_string_point _ _ _ _ c first (by simp), others, List.reverse_cons,
        List.append_assoc, List.singleton_append]

def Ends (rest : Text) : Prop :=
  ∀ c, rest.head? = some c → isSpace c = true ∨ c = CodePoint.ofChar ',' ∨ c = CodePoint.ofChar ']' ∨
    c = CodePoint.ofChar '\x7d'

def Spaces (t : Text) : Prop := ∀ c ∈ t, isSpace c = true

theorem ends_digit (c : CodePoint) (rest : Text) (ends : Ends (c :: rest)) :
    c.isDigit = false ∧ c ≠ CodePoint.ofChar '.' ∧ c ≠ CodePoint.ofChar 'e' ∧ c ≠ CodePoint.ofChar 'E' := by
  have cases := ends c rfl
  simp only [isSpace, Bool.or_eq_true, decide_eq_true_eq] at cases
  rcases cases with (((rfl | rfl) | rfl) | rfl) | rfl | rfl | rfl <;> decide

theorem span_digits_ends (digits rest : Text) (number : ∀ c ∈ digits, c.isDigit = true) (ends : Ends rest) :
    spanDigits (digits ++ rest) = (digits, rest) := by
  rw [spanDigits, List.takeWhile_append_of_pos number, List.dropWhile_append_of_pos number]
  cases rest with
  | nil => simp
  | cons c rest => simp [(ends_digit c rest ends).1]

theorem read_fraction_ends (rest : Text) (ends : Ends rest) : readFraction rest = ([], rest) := by
  cases rest with
  | nil => rfl
  | cons c rest => rw [readFraction, if_neg (ends_digit c rest ends).2.1]

theorem read_exponent_ends (rest : Text) (ends : Ends rest) : readExponent rest = (none, rest) := by
  cases rest with
  | nil => rfl
  | cons c rest =>
      obtain ⟨_, _, small, capital⟩ := ends_digit c rest ends
      rw [readExponent, if_neg (by simp [small, capital])]

theorem numeral_leading (n : Nat) : numeral n = [CodePoint.ofChar '0'] ∨
    ∃ d ds, numeral n = d :: ds ∧ d.isDigit = true ∧ d ≠ CodePoint.ofChar '0' := by
  induction n using Nat.strongRecOn with
  | ind n ih =>
      rw [numeral]
      split
      · rename_i small
        have digit := decimal_digit_is_digit n
        by_cases zero : n = 0
        · exact .inl (by rw [zero]; rfl)
        · refine .inr ⟨decimalDigit n, [], rfl, digit, ?_⟩
          intro same
          have value := congrArg CodePoint.val same
          have shown : 0x30 + n % 10 = 0x30 := value
          omega
      · rename_i large
        have front : n / 10 ≠ 0 := by omega
        rcases ih (n / 10) (by omega) with zero | ⟨d, ds, shape, digit, leading⟩
        · have value := numeral_value_numeral (n / 10)
          rw [zero] at value
          exact absurd value.symm front
        · exact .inr ⟨d, ds ++ [decimalDigit n], by rw [shape]; rfl, digit, leading⟩

theorem read_magnitude_numeral (whole : Text) (negative : Bool) (n : Nat) (rest : Text)
    (short : n < tenTo digitLimit) (ends : Ends rest) :
    readMagnitude whole negative (numeral n ++ rest) = .ok (.int (if negative then -n else n), rest) := by
  have within : ¬ digitLimit < (numeral n).length := Nat.not_lt.mpr (numeral_length n 4299 short)
  have span := span_digits_ends (numeral n) rest (numeral_digits n) ends
  rcases numeral_leading n with zero | ⟨d, ds, shape, digit, leading⟩
  · have value := numeral_value_numeral n
    rw [zero] at span within value
    rw [List.singleton_append] at span
    simp only [readMagnitude, zero, List.singleton_append, span, if_true, List.drop_succ_cons, List.drop_zero,
      read_fraction_ends rest ends, read_exponent_ends rest ends, true_and, if_neg within, value]
  · have value := numeral_value_numeral n
    rw [shape] at span within value
    simp only [readMagnitude, shape, span, if_neg leading, read_fraction_ends rest ends,
      read_exponent_ends rest ends, true_and, if_true,
      if_neg within, value]

theorem starts_with_apart (c d : CodePoint) (s t : Text) (apart : c ≠ d) : Text.startsWith (c :: s)
    (d :: t) = false := by
  simp [Text.startsWith, apart]

theorem literal_not_digit (c : CodePoint) (rest : Text) (digit : c.isDigit = true) :
    (literals.find? fun l => Text.startsWith (c :: rest) (Text.ofString l.1)) = none := by
  have apart (k : Char) (letter : (CodePoint.ofChar k).isDigit = false) : c ≠ CodePoint.ofChar k := by
    rintro rfl
    rw [letter] at digit
    exact Bool.false_ne_true digit
  apply List.find?_eq_none.mpr
  intro l mem
  simp only [literals, List.mem_cons, List.not_mem_nil, or_false] at mem
  rcases mem with rfl | rfl | rfl | rfl | rfl | rfl <;>
    exact Bool.eq_false_iff.mp (starts_with_apart c _ rest _ (apart _ rfl))

theorem literal_not_minus (c : CodePoint) (rest : Text) (digit : c.isDigit = true) :
    (literals.find? fun l => Text.startsWith (CodePoint.ofChar '-' :: c :: rest) (Text.ofString l.1)) = none := by
  have apart : c ≠ CodePoint.ofChar 'I' := by
    rintro rfl
    exact absurd digit (by decide)
  apply List.find?_eq_none.mpr
  intro l mem
  simp only [literals, List.mem_cons, List.not_mem_nil, or_false] at mem
  rcases mem with rfl | rfl | rfl | rfl | rfl | rfl
  all_goals first
    | exact Bool.eq_false_iff.mp (starts_with_apart _ _ _ _ (by decide))
    | exact Bool.eq_false_iff.mp (starts_with_apart c _ rest _ apart)

theorem read_scalar_numeral (i : Int) (rest : Text) (short : i.natAbs < tenTo digitLimit) (ends : Ends rest) :
    readScalar (signedNumeral i ++ rest) = .ok (.int i, rest) := by
  obtain ⟨d, ds, shape⟩ := List.exists_cons_of_ne_nil (numeral_ne_nil i.natAbs)
  have digit : d.isDigit = true := numeral_digits i.natAbs d (by rw [shape]; exact List.mem_cons_self)
  by_cases negative : i < 0
  · have value : -(i.natAbs : Int) = i := by omega
    have magnitude :=
      read_magnitude_numeral (CodePoint.ofChar '-' :: (numeral i.natAbs ++ rest)) true i.natAbs rest short ends
    rw [if_pos rfl, value, shape, List.cons_append] at magnitude
    rw [signedNumeral, if_pos negative, shape, List.cons_append, List.cons_append, readScalar,
      literal_not_minus d _ digit]
    simp only [if_true, magnitude]
  · have value : (i.natAbs : Int) = i := by omega
    have magnitude := read_magnitude_numeral (numeral i.natAbs ++ rest) false i.natAbs rest short ends
    rw [if_neg Bool.false_ne_true, value, shape, List.cons_append] at magnitude
    have unsigned : d ≠ CodePoint.ofChar '-' := by
      rintro rfl
      exact absurd digit (by decide)
    rw [signedNumeral, if_neg negative, shape, List.cons_append, readScalar, literal_not_digit d _ digit]
    simp only [if_neg unsigned, magnitude]

end Json

end TapeMachine
