import TapeMachine.Text.Blank
import TapeMachine.Text.Lines
import TapeMachine.Text.Quoted
import TapeMachine.Proofs.Utf8

set_option autoImplicit false

namespace TapeMachine.Text

def Scalar (t : Text) : Prop := ∀ c ∈ t, c.isSurrogate = false

instance (t : Text) : Decidable t.Scalar := inferInstanceAs (Decidable (∀ c ∈ t, _))

@[simp] theorem scalar_append (s t : Text) : Scalar (s ++ t) ↔ Scalar s ∧ Scalar t := List.forall_mem_append

@[simp] theorem scalar_cons (c : CodePoint) (t : Text) :
    Scalar (c :: t) ↔ c.isSurrogate = false ∧ Scalar t := List.forall_mem_cons

theorem scalar_subset (s t : Text) (part : s ⊆ t) (scalar : t.Scalar) : s.Scalar := fun c mem => scalar c (part mem)

theorem scalar_low (c : CodePoint) (low : c.val < 0x80) : c.isSurrogate = false :=
  Utf8.scalar_outside c (.inl (by omega))

theorem scalar_join (separator : Text) (parts : List Text) (between : separator.Scalar)
    (each : ∀ part ∈ parts, part.Scalar) :
    (join separator parts).Scalar := by
  induction parts with
  | nil => simp [join, Scalar]
  | cons first others ih =>
      have after := ih fun part mem => each part (List.mem_cons_of_mem first mem)
      cases others with
      | nil => exact each first List.mem_cons_self
      | cons second others =>
          rw [join]
          exact (scalar_append _ _).mpr ⟨(scalar_append _ _).mpr ⟨each first List.mem_cons_self, between⟩, after⟩

theorem encode_scalar (t : Text) (bytes : Bytes) (written : Utf8.encode t = some bytes) : t.Scalar := by
  induction t generalizing bytes with
  | nil => simp [Scalar]
  | cons c t ih =>
      obtain ⟨front, rest, form, others, _⟩ := (Utf8.encode_cons c t bytes).mp written
      have first : c.isSurrogate = false := by
        cases form with
        | one small => exact scalar_low c small
        | two large small => exact Utf8.scalar_outside c (.inl (by omega))
        | three large small scalar => exact scalar
        | four large => exact Utf8.scalar_outside c (.inr (by omega))
      exact (scalar_cons c t).mpr ⟨first, ih rest others⟩

theorem decode_scalar (t : Text) (bytes : Bytes) (read : Utf8.decode bytes = some t) : t.Scalar :=
  encode_scalar t bytes ((Utf8.decode_iff bytes t).mp read)

theorem unify_subset (t : Text) : unifyLineEnds t ⊆ CodePoint.ofChar '\n' :: t := by
  have more (c : CodePoint) (s t : Text) (part : s ⊆ CodePoint.ofChar '\n' :: t) :
      s ⊆ CodePoint.ofChar '\n' :: c :: t :=
    List.Subset.trans part (List.cons_subset_cons _ (List.subset_cons_self c t))
  fun_induction unifyLineEnds t with
  | case1 => simp
  | case2 => simp
  | case3 c other => simp
  | case4 t ih => exact List.cons_subset.mpr ⟨List.mem_cons_self, more _ _ _ (more _ _ _ ih)⟩
  | case5 d t other ih => exact List.cons_subset.mpr ⟨List.mem_cons_self, more _ _ _ ih⟩
  | case6 c d t other ih => exact List.cons_subset.mpr ⟨by simp, more _ _ _ ih⟩

theorem unify_scalar (t : Text) (scalar : t.Scalar) : (unifyLineEnds t).Scalar :=
  scalar_subset _ _ (unify_subset t) ((scalar_cons _ t).mpr ⟨by decide, scalar⟩)

theorem split_lines_subset (t : Text) : ∀ l ∈ splitLines t, l ⊆ t := by
  induction t with
  | nil => simp [splitLines]
  | cons c t ih =>
      have rest (l : Text) (mem : l ∈ splitLines t) : l ⊆ c :: t :=
        List.Subset.trans (ih l mem) (List.subset_cons_self c t)
      rw [splitLines]
      split
      · exact List.forall_mem_cons.mpr ⟨List.nil_subset _, rest⟩
      · split
        · simp
        · rename_i l ls cut
          rw [cut] at ih rest
          exact List.forall_mem_cons.mpr ⟨List.cons_subset_cons c (ih l List.mem_cons_self),
            fun l' mem => rest l' (List.mem_cons_of_mem l mem)⟩

theorem split_lines_scalar (t : Text) (scalar : t.Scalar) : ∀ l ∈ splitLines t, l.Scalar := fun l mem =>
  scalar_subset l t (split_lines_subset t l mem) scalar

theorem file_lines_scalar (t : Text) (scalar : t.Scalar) : ∀ l ∈ fileLines t, l.Scalar := by
  have lines := split_lines_scalar t scalar
  intro l mem
  rw [fileLines] at mem
  split at mem
  · exact lines l ((List.dropLast_sublist _).subset mem)
  · exact lines l mem

theorem trim_subset (t : Text) : trim t ⊆ t := by
  intro c mem
  rw [trim, dropBlanksEnd, List.mem_reverse] at mem
  have inner := List.mem_reverse.mp ((List.dropWhile_sublist _).subset mem)
  exact (List.dropWhile_sublist _).subset inner

theorem words_subset (t w : Text) (mem : w ∈ words t) : w ⊆ t := by
  fun_induction words t generalizing w with
  | case1 => simp at mem
  | case2 => simp at mem
  | case3 c visible => rw [List.mem_singleton.mp mem]; exact List.Subset.refl _
  | case4 c d t blank ih => exact List.subset_cons_of_subset c (ih w mem)
  | case5 c d t visible next ih =>
      rcases List.mem_cons.mp mem with rfl | tail
      · simp
      · exact List.subset_cons_of_subset c (ih w tail)
  | case6 c d t visible next found ih =>
      rw [List.mem_singleton.mp mem]
      simp
  | case7 c d t visible next v vs found ih =>
      rcases List.mem_cons.mp mem with rfl | tail
      · exact List.cons_subset_cons c (ih v (by rw [found]; exact List.mem_cons_self))
      · exact List.subset_cons_of_subset c (ih w (by rw [found]; exact List.mem_cons_of_mem v tail))

def Inked (c : CodePoint) : Prop := 0x20 ≤ c.val ∧ c.val < 0x7F

instance (c : CodePoint) : Decidable (Inked c) := inferInstanceAs (Decidable (_ ∧ _))

theorem inked_scalar (t : Text) (inked : ∀ c ∈ t, Inked c) : t.Scalar := by
  intro c mem
  have low := (inked c mem).2
  exact scalar_low c (by omega)

theorem hex_digit_inked (n : Nat) : Inked (hexDigit n) := by
  have value : (hexDigit n).val = if n % 16 < 10 then 0x30 + n % 16 else 0x57 + n % 16 := rfl
  rw [Inked, value]
  split <;> omega

theorem digit_inked (c : CodePoint) (digit : c.isDigit = true) : Inked c := by
  simp only [CodePoint.isDigit, Bool.and_eq_true, decide_eq_true_eq] at digit
  exact ⟨by omega, by omega⟩

theorem numeral_inked (i : Int) : ∀ c ∈ signedNumeral i, Inked c := by
  intro c mem
  rw [signedNumeral] at mem
  split at mem
  · rcases List.mem_cons.mp mem with rfl | mem
    · decide
    · exact digit_inked c (numeral_digits _ c mem)
  · exact digit_inked c (numeral_digits _ c mem)

theorem hex_fixed_scalar (width n : Nat) : (hexFixed width n).Scalar := by
  apply inked_scalar
  induction width generalizing n with
  | zero => simp [hexFixed]
  | succ width ih => exact List.forall_mem_append.mpr ⟨ih _, List.forall_mem_singleton.mpr (hex_digit_inked n)⟩

theorem signed_numeral_scalar (i : Int) : (signedNumeral i).Scalar := inked_scalar _ (numeral_inked i)

theorem escaped_scalar (mark c : CodePoint) (scalar : c.isSurrogate = false) : (escaped mark c).Scalar := by
  have slash : backslash.isSurrogate = false := by decide
  rw [escaped]
  repeat' split
  all_goals simp only [scalar_cons, slash, scalar, true_and]
  · simp [Scalar]
  · decide
  · decide
  · decide
  · simp [Scalar]
  · exact ⟨by decide, hex_fixed_scalar _ _⟩
  · exact ⟨by decide, hex_fixed_scalar _ _⟩
  · exact ⟨by decide, hex_fixed_scalar _ _⟩

theorem quoted_scalar (t : Text) (scalar : t.Scalar) : t.quoted.Scalar := by
  have mark : (quoteMark t).isSurrogate = false := by
    rw [quoteMark]
    split <;> decide
  have inner : Scalar (t.flatMap (escaped (quoteMark t))) := by
    intro d mem
    obtain ⟨c, inside, found⟩ := List.mem_flatMap.mp mem
    exact escaped_scalar _ c (scalar c inside) d found
  exact (scalar_cons _ _).mpr ⟨mark, (scalar_append _ _).mpr ⟨inner, List.forall_mem_singleton.mpr mark⟩⟩

end TapeMachine.Text
