import TapeMachine.Proofs.JsonText
import TapeMachine.View.Screen
import TapeMachine.View.Styled

set_option autoImplicit false

namespace TapeMachine

namespace Text

def hexValue (t : Text) : Nat := t.foldl (fun n c => 16 * n + (Json.hexValue? c).getD 0) 0

def after? (front t : Text) : Option Text := if t.startsWith front then some (t.drop front.length) else none

def before? (rear t : Text) : Option Text := (after? (List.reverse rear) t.reverse).map List.reverse

@[simp] theorem after_append (front t : Text) : after? front (front ++ t) = some t := by
  rw [after?, if_pos (Json.starts_with_append front t), List.drop_left]

@[simp] theorem before_append (rear t : Text) : before? rear (t ++ rear) = some t := by
  rw [before?, List.reverse_append, after_append, Option.map_some, List.reverse_reverse]

theorem span_front (kind : CodePoint → Bool) (t u : Text) (all : ∀ c ∈ t, kind c = true)
    (stops : ∀ c ∈ u.head?, kind c = false) :
    (t ++ u).takeWhile kind = t ∧ (t ++ u).dropWhile kind = u := by
  rw [List.takeWhile_append_of_pos all, List.dropWhile_append_of_pos all]
  cases u with
  | nil => exact ⟨List.append_nil t, rfl⟩
  | cons c rest =>
      have other := stops c rfl
      simp [other]

theorem hex_value_append (t u : Text) : hexValue (t ++ u) = u.foldl
    (fun n c => 16 * n + (Json.hexValue? c).getD 0) t.hexValue :=
  List.foldl_append

@[simp] theorem hex_value_numeral (n : Nat) : hexValue (hexNumeral n) = n := by
  fun_induction hexNumeral n with
  | case1 n small => simp [hexValue, Nat.mod_eq_of_lt small]
  | case2 n large ih =>
      rw [hex_value_append, ih, List.foldl_cons, Json.hex_value_digit, List.foldl_nil]
      exact Nat.div_add_mod n 16

@[simp] theorem hex_value_zeros (n : Nat) : hexValue (List.replicate n (CodePoint.ofChar '0')) = 0 := by
  induction n with
  | zero => rfl
  | succ n ih =>
      rw [List.replicate_succ', hex_value_append, ih]
      rfl

@[simp] theorem hex_value_padded (width n : Nat) : hexValue (hexPadded width n) = n := by
  rw [hexPadded, hex_value_append, hex_value_zeros]
  exact hex_value_numeral n

def isHex (c : CodePoint) : Bool := (Json.hexValue? c).isSome

def readHex (t : Text) : Nat × Text := (hexValue (t.takeWhile isHex), t.dropWhile isHex)

def readPadded (t : Text) : Nat × Text :=
  let digits := t.dropWhile fun c => c = CodePoint.ofChar ' '
  (numeralValue (digits.takeWhile CodePoint.isDigit), digits.dropWhile CodePoint.isDigit)

theorem inked_shown (c : CodePoint) (inked : Inked c) : c.isControl = false := by
  simp only [CodePoint.isControl, Bool.or_eq_false_iff, Bool.and_eq_false_iff, decide_eq_false_iff_not]
  rw [Inked] at inked
  omega

theorem hex_padded_digits (width n : Nat) : ∀ c ∈ hexPadded width n, isHex c = true ∧ Inked c := by
  have digit (n : Nat) : isHex (hexDigit n) = true ∧ Inked (hexDigit n) :=
    ⟨by rw [isHex, Json.hex_value_digit]; rfl, hex_digit_inked n⟩
  have numeral (n : Nat) : ∀ c ∈ hexNumeral n, isHex c = true ∧ Inked c := by
    fun_induction hexNumeral n with
    | case1 n _ => simpa using digit n
    | case2 n _ ih => exact List.forall_mem_append.mpr ⟨ih, List.forall_mem_singleton.mpr (digit n)⟩
  refine List.forall_mem_append.mpr ⟨fun c mem => ?_, numeral n⟩
  rw [List.eq_of_mem_replicate mem]
  decide

theorem pad_left_inked (width : Nat) (t : Text) (inked : ∀ c ∈ t, Inked c) : ∀ c ∈ padLeft width t, Inked c := by
  refine List.forall_mem_append.mpr ⟨fun c mem => ?_, inked⟩
  rw [List.eq_of_mem_replicate mem]
  decide

theorem read_hex_padded (width n : Nat) (rest : Text) (stops : ∀ c ∈ rest.head?, isHex c = false) :
    readHex (hexPadded width n ++ rest) = (n, rest) := by
  obtain ⟨taken, left⟩ :=
    span_front isHex (hexPadded width n) rest (fun c mem => (hex_padded_digits width n c mem).1) stops
  rw [readHex, taken, left, hex_value_padded]

theorem read_padded_numeral (width n : Nat) (rest : Text) (stops : ∀ c ∈ rest.head?, c.isDigit = false) :
    readPadded (padLeft width (numeral n) ++ rest) = (n, rest) := by
  have starts : ∀ c ∈ List.head? (numeral n ++ rest), decide (c = CodePoint.ofChar ' ') = false := by
    cases number : numeral n with
    | nil => exact absurd number (numeral_ne_nil n)
    | cons d digits =>
        have digit := numeral_digits n d (by simp [number])
        rintro c ⟨⟩
        refine decide_eq_false fun same => ?_
        rw [same] at digit
        cases digit
  obtain ⟨_, unpadded⟩ := span_front (fun c => c = CodePoint.ofChar ' ')
    (List.replicate (width - (numeral n).length) (CodePoint.ofChar ' '))
    (numeral n ++ rest) (fun c mem => decide_eq_true (List.eq_of_mem_replicate mem)) starts
  obtain ⟨taken, left⟩ := span_front CodePoint.isDigit (numeral n) rest (numeral_digits n) stops
  rw [readPadded, padLeft, List.append_assoc, unpadded, taken, left, numeral_value_numeral]

end Text

/-- What can be read off a row of the history. -/
structure HistoryRow where
  index : Nat
  state : Nat
  left : Text
  head : CodePoint
  right : Text
deriving DecidableEq

namespace HistoryRow

def readStart? (t : Text) : Option (Nat × Nat × Text) := do
  let (index, afterIndex) := Text.readHex (← Text.after? "[" t)
  let (state, afterState) := Text.readPadded (← Text.after? "] " afterIndex)
  return (index, state, ← Text.after? ":   ....." afterState)

def read? : List Piece → Option HistoryRow
  | [start, middle, finish] => do
      let (index, state, left) ← readStart? start.text
      match middle.text with
      | [head] => if middle.style = "red" then return ⟨index, state, left, head,
          ← Text.before? "....." finish.text⟩ else none
      | _ => none
  | _ => none

def label (index state : Nat) : Text := "[" ++ hexPadded 8 index ++ "] " ++ Text.padLeft 3
    (numeral state) ++ ":   ....."

theorem label_inked (index state : Nat) : ∀ c ∈ label index state, Text.Inked c := by
  simp only [label, List.forall_mem_append]
  refine ⟨⟨⟨⟨by decide, fun c mem => (Text.hex_padded_digits 8 index c mem).2⟩, by decide⟩, ?_⟩, by decide⟩
  exact Text.pad_left_inked 3 _ fun c mem => Text.digit_inked c (numeral_digits state c mem)

@[simp] theorem read_start (index state : Nat) (left : Text) : readStart? (label index state ++ left) =
    some (index, state, left) := by
  have hex := Text.read_hex_padded 8 index
    ("] " ++ (Text.padLeft 3 (numeral state) ++ (":   ....." ++ left))) fun c mem => by
    cases mem
    decide
  have number := Text.read_padded_numeral 3 state (":   ....." ++ left) fun c mem => by
    cases mem
    decide
  simp only [readStart?, label, List.append_assoc, Text.after_append, bind, Option.bind, hex, number, pure]

theorem read_row (r : HistoryRow) :
    read? [⟨label r.index r.state ++ r.left, []⟩, ⟨[r.head], "red"⟩, ⟨r.right ++ ".....", []⟩] = some r := by
  simp only [read?, read_start, Text.before_append, bind, Option.bind, if_true]
  rfl

end HistoryRow

end TapeMachine
