import Mathlib.Data.List.Induction
import TapeMachine.Definition.Line
import TapeMachine.Decimal.Literal

set_option autoImplicit false

namespace TapeMachine

namespace Text

def Gap (t : Text) : Prop := ∀ c ∈ t, c.isBlank = true

def Solid (t : Text) : Prop := ∀ c ∈ t, c.isBlank = false

def Digits (t : Text) : Prop := t ≠ [] ∧ ∀ c ∈ t, c.isDigit = true

def StartsSolid (t : Text) : Prop := ∃ c rest, t = c :: rest ∧ c.isBlank = false

theorem digit_solid (c : CodePoint) (digit : c.isDigit = true) : c.isBlank = false := by
  simp only [CodePoint.isDigit, Bool.and_eq_true, decide_eq_true_eq] at digit
  simp only [CodePoint.isBlank, Bool.or_eq_false_iff, Bool.and_eq_false_iff,
    decide_eq_false_iff_not, beq_eq_false_iff_ne]
  omega

theorem folded_blank (c : CodePoint) (blank : c.isBlank = true) : c.folded = c := by
  simp only [CodePoint.isBlank, Bool.or_eq_true, Bool.and_eq_true, decide_eq_true_eq, beq_iff_eq] at blank
  have notLetter : ¬ (0x41 ≤ c.val ∧ c.val ≤ 0x5A) := by omega
  have notS : ¬ c.val = 0x17F := by omega
  have notK : ¬ c.val = 0x212A := by omega
  simp only [CodePoint.folded, notLetter, notS, notK, dite_false, if_false]

theorem folded_digit (c : CodePoint) (digit : c.isDigit = true) : c.folded = c := by
  simp only [CodePoint.isDigit, Bool.and_eq_true, decide_eq_true_eq] at digit
  have notLetter : ¬ (0x41 ≤ c.val ∧ c.val ≤ 0x5A) := by omega
  have notS : ¬ c.val = 0x17F := by omega
  have notK : ¬ c.val = 0x212A := by omega
  simp only [CodePoint.folded, notLetter, notS, notK, dite_false, if_false]

@[simp] theorem solid_cons (c : CodePoint) (t : Text) :
    Solid (c :: t) ↔ c.isBlank = false ∧ Solid t := List.forall_mem_cons

@[simp] theorem solid_append (s t : Text) : Solid (s ++ t) ↔ Solid s ∧ Solid t := List.forall_mem_append

theorem solid_reverse (t : Text) (solid : Solid t) : Solid t.reverse := by
  intro c mem
  exact solid c (List.mem_reverse.mp mem)

theorem gap_reverse (t : Text) (gap : Gap t) : Gap t.reverse := by
  intro c mem
  exact gap c (List.mem_reverse.mp mem)

theorem digits_solid (t : Text) (digits : Digits t) : Solid t := by
  intro c mem
  exact digit_solid c (digits.2 c mem)

theorem digits_reverse (t : Text) (digits : Digits t) : Digits t.reverse := by
  refine ⟨by simpa using digits.1, ?_⟩
  intro c mem
  exact digits.2 c (List.mem_reverse.mp mem)

theorem starts_solid_of_solid (t : Text) (solid : Solid t) (filled : t ≠ []) : StartsSolid t := by
  cases t with
  | nil => exact absurd rfl filled
  | cons c rest => exact ⟨c, rest, rfl, solid c List.mem_cons_self⟩

theorem starts_solid_append (s t : Text) (starts : StartsSolid s) : StartsSolid (s ++ t) := by
  obtain ⟨c, rest, rfl, visible⟩ := starts
  exact ⟨c, rest ++ t, rfl, visible⟩

theorem drop_blanks_solid (t : Text) (starts : StartsSolid t) : dropBlanks t = t := by
  obtain ⟨c, rest, rfl, visible⟩ := starts
  simp [dropBlanks, visible]

theorem drop_blanks_of_solid (t : Text) (solid : Solid t) : dropBlanks t = t := by
  cases t with
  | nil => rfl
  | cons c rest => exact drop_blanks_solid _ ⟨c, rest, rfl, solid c List.mem_cons_self⟩

theorem drop_blanks_gap (gap rest : Text) (blank : Gap gap) : dropBlanks (gap ++ rest) = dropBlanks rest :=
  List.dropWhile_append_of_pos blank

theorem drop_blanks_only (gap : Text) (blank : Gap gap) : dropBlanks gap = [] := by
  simpa [dropBlanks] using drop_blanks_gap gap [] blank

theorem drop_blanks_split (t : Text) :
    ∃ gap, Gap gap ∧ t = gap ++ dropBlanks t ∧ (dropBlanks t = [] ∨ StartsSolid (dropBlanks t)) := by
  induction t with
  | nil => exact ⟨[], by simp [Gap], rfl, .inl rfl⟩
  | cons c rest ih =>
      by_cases blank : c.isBlank = true
      · obtain ⟨gap, isGap, split, kept⟩ := ih
        have dropped : dropBlanks (c :: rest) = dropBlanks rest := by simp [dropBlanks, blank]
        refine ⟨c :: gap, ?_, ?_, ?_⟩
        · simpa [Gap, blank] using isGap
        · rw [dropped, List.cons_append, ← split]
        · rwa [dropped]
      · have visible : c.isBlank = false := by simpa using blank
        have kept : StartsSolid (c :: rest) := ⟨c, rest, rfl, visible⟩
        rw [drop_blanks_solid _ kept]
        exact ⟨[], by simp [Gap], rfl, .inr kept⟩

theorem trim_gaps (u v t : Text) (before : Gap u) (after : Gap v) (solid : Solid t) : trim (u ++ t ++ v) = t := by
  cases t with
  | nil =>
      have blank : Gap (u ++ v) := List.forall_mem_append.mpr ⟨before, after⟩
      rw [List.append_nil, trim, drop_blanks_only _ blank]
      rfl
  | cons c t =>
      have first := starts_solid_append _ v (starts_solid_of_solid (c :: t) solid (by simp))
      have last := drop_blanks_of_solid _ (solid_reverse (c :: t) solid)
      rw [trim, List.append_assoc, drop_blanks_gap u _ before, drop_blanks_solid _ first,
        dropBlanksEnd, List.reverse_append,
        drop_blanks_gap _ _ (gap_reverse v after), last, List.reverse_reverse]

structure Tidy (t : Text) : Prop where
  inner : ∀ c ∈ t, c = CodePoint.ofChar ' ' ∨ c.isBlank = false
  first : StartsSolid t
  last : StartsSolid t.reverse

theorem tidy_solid (t : Text) (solid : Solid t) (filled : t ≠ []) : Tidy t :=
  ⟨fun c mem => .inr (solid c mem), starts_solid_of_solid t solid filled,
    starts_solid_of_solid t.reverse (solid_reverse t solid) (by simpa using filled)⟩

theorem tidy_spaced (s t : Text) (left : Tidy s) (right : Tidy t) : Tidy (s ++ CodePoint.ofChar ' ' :: t) := by
  refine ⟨?_, starts_solid_append s _ left.first, ?_⟩
  · intro c mem
    rcases List.mem_append.mp mem with mem | mem
    · exact left.inner c mem
    · rcases List.mem_cons.mp mem with same | mem
      · exact .inl same
      · exact right.inner c mem
  · rw [List.reverse_append, List.reverse_cons, List.append_assoc]
    exact starts_solid_append t.reverse _ right.last

theorem tidy_trim (t : Text) (tidy : Tidy t) : trim t = t := by
  rw [trim, drop_blanks_solid t tidy.first, dropBlanksEnd, drop_blanks_solid _ tidy.last, List.reverse_reverse]

theorem tidy_trimmed (t : Text) (tidy : Tidy t) : Line.trimmed t = t := by
  have kept : (t.map fun (c : CodePoint) => if c = '\r' then CodePoint.ofChar ' ' else c) = t := by
    refine (List.map_congr_left ?_).trans (List.map_id t)
    intro c mem
    rw [if_neg, id_eq]
    rintro rfl
    exact absurd (tidy.inner _ mem) (by decide)
  rw [Line.trimmed, kept, tidy_trim t tidy]

theorem tidy_no_feed (t : Text) (tidy : Tidy t) : CodePoint.ofChar '\n' ∉ t := by
  intro mem
  exact absurd (tidy.inner _ mem) (by decide)

theorem split_lines_feed (s t : Text) (clean : CodePoint.ofChar '\n' ∉ s) :
    splitLines (s ++ CodePoint.ofChar '\n' :: t) = s :: splitLines t := by
  induction s with
  | nil => simp [splitLines]
  | cons c s ih =>
      have head : c ≠ CodePoint.ofChar '\n' := fun same => clean (by simp [same])
      rw [List.cons_append, splitLines, if_neg head, ih (fun mem => clean (List.mem_cons_of_mem c mem))]

theorem split_lines_join (l : Text) (ls : List Text) (clean : ∀ t ∈ l :: ls, CodePoint.ofChar '\n' ∉ t) :
    splitLines (join "\n" (l :: ls) ++ "\n") = l :: ls ++ [[]] := by
  induction ls generalizing l with
  | nil =>
      change splitLines (l ++ CodePoint.ofChar '\n' :: []) = _
      rw [split_lines_feed l [] (clean l List.mem_cons_self)]
      rfl
  | cons k ls ih =>
      change splitLines ((l ++ [CodePoint.ofChar '\n'] ++ join "\n" (k :: ls)) ++ "\n") = _
      rw [List.append_assoc, List.append_assoc, List.singleton_append,
        split_lines_feed l _ (clean l List.mem_cons_self), ih k (fun t mem => clean t (List.mem_cons_of_mem l mem))]
      rfl

theorem words_single (c : CodePoint) (visible : c.isBlank = false) : words [c] = [[c]] := by
  simp [words, visible]

theorem words_join (cs : List CodePoint) (solid : Solid cs) : words (join " " (cs.map ([·]))) = cs.map ([·]) := by
  induction cs with
  | nil => rfl
  | cons c cs ih =>
      obtain ⟨visible, rest⟩ := (solid_cons c cs).mp solid
      cases cs with
      | nil => exact words_single c visible
      | cons d cs =>
          have space : (CodePoint.ofChar ' ').isBlank = true := by decide
          have joined : join " " ((c :: d :: cs).map ([·])) =
              c :: CodePoint.ofChar ' ' :: join " " ((d :: cs).map ([·])) := rfl
          have nonempty : join " " ((d :: cs).map ([·])) ≠ [] := by cases cs <;> simp [join]
          obtain ⟨e, tail, shape⟩ := List.exists_cons_of_ne_nil nonempty
          have skipped : words (CodePoint.ofChar ' ' :: e :: tail) = words (e :: tail) := by simp [words, space]
          rw [joined, words, if_neg (by simp [visible]), if_pos space, shape, skipped, ← shape, ih rest]
          rfl

theorem tidy_join (c : CodePoint) (cs : List CodePoint) (solid : Solid (c :: cs)) :
    Tidy (join " " ((c :: cs).map ([·]))) := by
  induction cs generalizing c with
  | nil => exact tidy_solid [c] solid (by simp)
  | cons d cs ih =>
      obtain ⟨visible, rest⟩ := (solid_cons c (d :: cs)).mp solid
      exact tidy_spaced [c] _ (tidy_solid [c] (by simpa [Solid] using visible) (by simp)) (ih d rest)

end Text

theorem numeral_is_digits (n : Nat) : Text.Digits (numeral n) := ⟨numeral_ne_nil n, numeral_digits n⟩

theorem numeral_solid (n : Nat) : Text.Solid (numeral n) := Text.digits_solid _ (numeral_is_digits n)

theorem digit_value_below (c : CodePoint) (digit : c.isDigit = true) : c.digitValue < 10 := by
  simp only [CodePoint.isDigit, Bool.and_eq_true, decide_eq_true_eq] at digit
  simp only [CodePoint.digitValue]
  omega

theorem ten_to_mono (m n : Nat) (within : m ≤ n) : tenTo m ≤ tenTo n := Nat.pow_le_pow_right (by decide) within

theorem numeral_value_below (t : Text) (digits : ∀ c ∈ t, c.isDigit = true) : numeralValue t < tenTo t.length := by
  induction t using List.reverseRecOn with
  | nil => exact ten_to_pos 0
  | append_singleton t c ih =>
      have front := ih (fun d mem => digits d (List.mem_append_left [c] mem))
      have back := digit_value_below c (digits c (by simp))
      rw [numeral_value_append, List.length_append, List.length_singleton, ten_to_succ]
      omega

theorem numeral_length (n k : Nat) (below : n < tenTo (k + 1)) : (numeral n).length ≤ k + 1 := by
  induction k generalizing n with
  | zero =>
      have small : n < 10 := below
      rw [numeral, if_pos small]
      exact Nat.le_refl 1
  | succ k ih =>
      rw [numeral]
      split
      · simp
      · have front : n / 10 < tenTo (k + 1) := by
          rw [ten_to_succ] at below
          omega
        have short := ih (n / 10) front
        rw [List.length_append, List.length_singleton]
        omega

end TapeMachine
