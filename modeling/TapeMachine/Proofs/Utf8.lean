import TapeMachine.Text.Utf8

set_option autoImplicit false

namespace TapeMachine.Utf8

inductive PointForm (c : CodePoint) : Bytes → Prop where
  | one (small : c.val < 0x80) : PointForm c [UInt8.ofNat c.val]
  | two (large : 0x80 ≤ c.val) (small : c.val < 0x800) :
      PointForm c [UInt8.ofNat (0xC0 + c.val / 0x40), UInt8.ofNat (0x80 + c.val % 0x40)]
  | three (large : 0x800 ≤ c.val) (small : c.val < 0x10000) (scalar : c.isSurrogate = false) :
      PointForm c [UInt8.ofNat (0xE0 + c.val / 0x1000), UInt8.ofNat (0x80 + c.val / 0x40 % 0x40),
        UInt8.ofNat (0x80 + c.val % 0x40)]
  | four (large : 0x10000 ≤ c.val) :
      PointForm c [UInt8.ofNat (0xF0 + c.val / 0x40000), UInt8.ofNat (0x80 + c.val / 0x1000 % 0x40),
        UInt8.ofNat (0x80 + c.val / 0x40 % 0x40), UInt8.ofNat (0x80 + c.val % 0x40)]

theorem scalar_outside (c : CodePoint) (outside : c.val < 0xD800 ∨ 0xDFFF < c.val) : c.isSurrogate = false := by
  simp only [CodePoint.isSurrogate, Bool.and_eq_false_iff, decide_eq_false_iff_not]
  omega

theorem encode_point_iff (c : CodePoint) (bytes : Bytes) : encodePoint c = some bytes ↔ PointForm c bytes := by
  constructor
  · intro written
    simp only [encodePoint] at written
    split at written
    · rename_i small
      rw [← Option.some.inj written]
      exact .one small
    · rename_i large
      split at written
      · rename_i small
        rw [← Option.some.inj written]
        exact .two (Nat.le_of_not_lt large) small
      · rename_i larger
        split at written
        · simp at written
        · rename_i scalar
          split at written
          · rename_i small
            rw [← Option.some.inj written]
            exact .three (Nat.le_of_not_lt larger) small (by simpa using scalar)
          · rename_i largest
            rw [← Option.some.inj written]
            exact .four (Nat.le_of_not_lt largest)
  · intro form
    simp only [encodePoint]
    cases form with
    | one small => rw [if_pos small]
    | two large small => rw [if_neg (Nat.not_lt.mpr large), if_pos small]
    | three large small scalar =>
        have large' : ¬ c.val < 0x80 := by omega
        rw [if_neg large', if_neg (Nat.not_lt.mpr large), scalar, if_neg Bool.false_ne_true, if_pos small]
    | four large =>
        have scalar := scalar_outside c (.inr (by omega))
        have large' : ¬ c.val < 0x80 := by omega
        have larger : ¬ c.val < 0x800 := by omega
        rw [if_neg large', if_neg larger, scalar, if_neg Bool.false_ne_true, if_neg (Nat.not_lt.mpr large)]

theorem continuation_iff (b : UInt8) (x : Nat) : continuation? b = some x ↔ x < 0x40 ∧ b = UInt8.ofNat (0x80 + x) := by
  have below := b.toNat_lt
  rw [continuation?, ← UInt8.toNat_inj, UInt8.toNat_ofNat']
  split
  · rw [Option.some.injEq]
    omega
  · simp only [reduceCtorEq, false_iff]
    omega

theorem scalar_iff (least n : Nat) (c : CodePoint) :
    scalar? least n = some c ↔ c.val = n ∧ least ≤ n ∧ c.isSurrogate = false := by
  rw [scalar?, ← CodePoint.of_nat_eq_some_iff]
  cases CodePoint.ofNat? n with
  | none => simp
  | some d =>
      simp only [Option.ite_none_right_eq_some, Option.some.injEq]
      constructor
      · rintro ⟨⟨least, scalar⟩, rfl⟩
        exact ⟨rfl, least, scalar⟩
      · rintro ⟨rfl, least, scalar⟩
        exact ⟨⟨least, scalar⟩, rfl⟩

theorem lead_value (n : Nat) (small : n < 0x100) : (UInt8.ofNat n).toNat = n := by
  rw [UInt8.toNat_ofNat', Nat.mod_eq_of_lt small]

theorem continuations_iff (bytes : Bytes) (xs : List Nat) :
    bytes.mapM continuation? = some xs ↔ (∀ x ∈ xs, x < 0x40) ∧ bytes = xs.map fun x => UInt8.ofNat (0x80 + x) := by
  induction bytes generalizing xs with
  | nil =>
      rw [List.mapM_nil]
      cases xs <;> simp
  | cons b rest ih =>
      rw [List.mapM_cons]
      simp only [Option.bind_eq_bind, Option.bind_eq_some_iff, Option.pure_def, Option.some.injEq, ih, continuation_iff]
      cases xs with
      | nil => simp
      | cons x xs =>
          simp only [List.cons.injEq, List.map_cons, List.forall_mem_cons]
          constructor
          · rintro ⟨y, ⟨small, rfl⟩, ys, ⟨others, rfl⟩, rfl, rfl⟩
            exact ⟨⟨small, others⟩, rfl, rfl⟩
          · rintro ⟨⟨small, others⟩, rfl, rfl⟩
            exact ⟨x, ⟨small, rfl⟩, xs, ⟨others, rfl⟩, rfl, rfl⟩

theorem form_decode_point (c : CodePoint) (bytes rest : Bytes) (form : PointForm c bytes) :
    decodePoint (bytes ++ rest) = some (c, bytes.length) := by
  have within := c.isLt
  cases form with
  | one small =>
      have lead := lead_value c.val (by omega)
      simp only [List.cons_append, List.nil_append, decodePoint, lead, if_pos small, CodePoint.of_nat_val]
      rfl
  | two large small =>
      have lead := lead_value (0xC0 + c.val / 0x40) (by omega)
      have value : (0xC0 + c.val / 0x40 - 0xC0) * 0x40 + c.val % 0x40 = c.val := by omega
      have found := (scalar_iff 0x80 c.val c).mpr ⟨rfl, large, scalar_outside c (.inl (by omega))⟩
      have tail := (continuations_iff [UInt8.ofNat (0x80 + c.val % 0x40)] [c.val % 0x40]).mpr
        ⟨by simp only [List.forall_mem_singleton]; omega, rfl⟩
      simp only [List.cons_append, List.nil_append, decodePoint, lead,
        if_neg (show ¬ 0xC0 + c.val / 0x40 < 0x80 by omega),
        if_neg (show ¬ 0xC0 + c.val / 0x40 < 0xC0 by omega),
          if_pos (show 0xC0 + c.val / 0x40 < 0xE0 by omega), List.take_succ_cons,
        List.take_zero, tail, value, found]
      rfl
  | three large small scalar =>
      have lead := lead_value (0xE0 + c.val / 0x1000) (by omega)
      have value : (0xE0 + c.val / 0x1000 - 0xE0) * 0x1000 + c.val / 0x40 % 0x40 * 0x40 + c.val % 0x40 =
          c.val := by omega
      have found := (scalar_iff 0x800 c.val c).mpr ⟨rfl, large, scalar⟩
      have tail := (continuations_iff [UInt8.ofNat (0x80 + c.val / 0x40 % 0x40), UInt8.ofNat (0x80 + c.val % 0x40)]
        [c.val / 0x40 % 0x40, c.val % 0x40]).mpr ⟨by simp only [List.forall_mem_cons]; simp; omega, rfl⟩
      simp only [List.cons_append, List.nil_append, decodePoint, lead,
        if_neg (show ¬ 0xE0 + c.val / 0x1000 < 0x80 by omega),
        if_neg (show ¬ 0xE0 + c.val / 0x1000 < 0xC0 by omega), if_neg (show ¬ 0xE0 + c.val / 0x1000 < 0xE0 by omega),
        if_pos (show 0xE0 + c.val / 0x1000 < 0xF0 by omega), List.take_succ_cons, List.take_zero, tail, value, found]
      rfl
  | four large =>
      have lead := lead_value (0xF0 + c.val / 0x40000) (by omega)
      have value : (0xF0 + c.val / 0x40000 - 0xF0)
        * 0x40000 + c.val / 0x1000 % 0x40 * 0x1000 + c.val / 0x40 % 0x40 * 0x40 +
          c.val % 0x40 = c.val := by omega
      have found := (scalar_iff 0x10000 c.val c).mpr ⟨rfl, large, scalar_outside c (.inr (by omega))⟩
      have tail := (continuations_iff [UInt8.ofNat (0x80 + c.val / 0x1000 % 0x40),
        UInt8.ofNat (0x80 + c.val / 0x40 % 0x40),
        UInt8.ofNat (0x80 + c.val % 0x40)] [c.val / 0x1000 % 0x40, c.val / 0x40 % 0x40, c.val % 0x40]).mpr
        ⟨by simp only [List.forall_mem_cons]; simp; omega, rfl⟩
      simp only [List.cons_append, List.nil_append, decodePoint, lead,
        if_neg (show ¬ 0xF0 + c.val / 0x40000 < 0x80 by omega),
        if_neg (show ¬ 0xF0 + c.val / 0x40000 < 0xC0 by omega), if_neg (show ¬ 0xF0 + c.val / 0x40000 < 0xE0 by omega),
        if_neg (show ¬ 0xF0 + c.val / 0x40000 < 0xF0 by omega), List.take_succ_cons, List.take_zero, tail, value, found]
      rfl

theorem continues (rest : Bytes) (count : Nat) (xs : List Nat) (read : (rest.take count).mapM continuation? = some xs) :
    (∀ x ∈ xs, x < 0x40) ∧ rest = (xs.map fun x => UInt8.ofNat (0x80 + x)) ++ rest.drop count := by
  obtain ⟨small, taken⟩ := (continuations_iff _ _).mp read
  exact ⟨small, by rw [← taken, List.take_append_drop]⟩

theorem decode_point_form (c : CodePoint) (size : Nat) (bytes : Bytes) (read : decodePoint bytes = some (c, size)) :
    ∃ front rest, PointForm c front ∧ front.length = size ∧ bytes = front ++ rest := by
  cases bytes with
  | nil => simp [decodePoint] at read
  | cons b rest =>
      have byte := b.toNat_lt
      simp only [decodePoint] at read
      split at read
      · rename_i small
        simp only [Option.map_eq_some_iff, Prod.mk.injEq] at read
        obtain ⟨c, point, rfl, rfl⟩ := read
        have value := CodePoint.of_nat_eq_some_iff.mp point
        have form := PointForm.one (value ▸ small)
        rw [value, UInt8.ofNat_toNat] at form
        exact ⟨[b], rest, form, rfl, rfl⟩
      · split at read
        · simp at read
        · split at read
          · split at read
            · rename_i x tail
              obtain ⟨small, shape⟩ := continues rest 1 [x] tail
              simp only [Option.map_eq_some_iff, Prod.mk.injEq] at read
              obtain ⟨c, point, rfl, rfl⟩ := read
              obtain ⟨value, large, _⟩ := (scalar_iff _ _ _).mp point
              have last := small x (by simp)
              have form := PointForm.two (c := c) (by omega) (by omega)
              rw [show 0xC0 + c.val / 0x40 =
                b.toNat by omega, show c.val % 0x40 = x by omega, UInt8.ofNat_toNat] at form
              exact ⟨_, rest.drop 1, form, rfl, congrArg (b :: ·) shape⟩
            · simp at read
          · split at read
            · split at read
              · rename_i x y tail
                obtain ⟨small, shape⟩ := continues rest 2 [x, y] tail
                simp only [Option.map_eq_some_iff, Prod.mk.injEq] at read
                obtain ⟨c, point, rfl, rfl⟩ := read
                obtain ⟨value, large, scalar⟩ := (scalar_iff _ _ _).mp point
                have second := small x (by simp)
                have last := small y (by simp)
                have form := PointForm.three (by omega) (by omega) scalar
                rw [show 0xE0 + c.val / 0x1000 = b.toNat by omega, show c.val / 0x40 % 0x40 = x by omega,
                  show c.val % 0x40 = y by omega, UInt8.ofNat_toNat] at form
                exact ⟨_, rest.drop 2, form, rfl, congrArg (b :: ·) shape⟩
              · simp at read
            · split at read
              · rename_i x y z tail
                obtain ⟨small, shape⟩ := continues rest 3 [x, y, z] tail
                simp only [Option.map_eq_some_iff, Prod.mk.injEq] at read
                obtain ⟨c, point, rfl, rfl⟩ := read
                obtain ⟨value, large, _⟩ := (scalar_iff _ _ _).mp point
                have second := small x (by simp)
                have third := small y (by simp)
                have last := small z (by simp)
                have form := PointForm.four (c := c) (by omega)
                rw [show 0xF0 + c.val / 0x40000 = b.toNat by omega, show c.val / 0x1000 % 0x40 = x by omega,
                  show c.val / 0x40 % 0x40 = y by omega, show c.val % 0x40 = z by omega, UInt8.ofNat_toNat] at form
                exact ⟨_, rest.drop 3, form, rfl, congrArg (b :: ·) shape⟩
              · simp at read

theorem encode_cons (c : CodePoint) (t : Text) (bytes : Bytes) :
    encode (c :: t) = some bytes ↔ ∃ front rest, PointForm c front ∧ encode t = some rest ∧ bytes = front ++ rest := by
  rw [encode]
  constructor
  · intro written
    split at written
    · rename_i front rest point text
      exact ⟨front, rest, (encode_point_iff c front).mp point, text, (Option.some.inj written).symm⟩
    · simp at written
  · rintro ⟨front, rest, form, text, rfl⟩
    rw [(encode_point_iff c front).mpr form, text]

theorem form_filled (c : CodePoint) (bytes : Bytes) (form : PointForm c bytes) : 0 < bytes.length := by
  cases form <;> simp

theorem point_form_exists (c : CodePoint) (scalar : c.isSurrogate = false) : ∃ bytes, PointForm c bytes := by
  by_cases one : c.val < 0x80
  · exact ⟨_, .one one⟩
  · by_cases two : c.val < 0x800
    · exact ⟨_, .two (Nat.le_of_not_lt one) two⟩
    · by_cases three : c.val < 0x10000
      · exact ⟨_, .three (Nat.le_of_not_lt two) three scalar⟩
      · exact ⟨_, .four (Nat.le_of_not_lt three)⟩

theorem encode_exists (t : Text) (scalar : ∀ c ∈ t, c.isSurrogate = false) : ∃ bytes, encode t = some bytes := by
  induction t with
  | nil => exact ⟨[], rfl⟩
  | cons c t ih =>
      obtain ⟨front, form⟩ := point_form_exists c (scalar c List.mem_cons_self)
      obtain ⟨rest, written⟩ := ih fun d mem => scalar d (List.mem_cons_of_mem c mem)
      exact ⟨front ++ rest, (encode_cons c t _).mpr ⟨front, rest, form, written, rfl⟩⟩

theorem encode_append (s t : Text) (front back : Bytes) (first : encode s = some front)
    (second : encode t = some back) :
    encode (s ++ t) = some (front ++ back) := by
  induction s generalizing front with
  | nil =>
      cases first
      exact second
  | cons c s ih =>
      obtain ⟨point, rest, form, others, rfl⟩ := (encode_cons c s front).mp first
      rw [List.append_assoc]
      exact (encode_cons c (s ++ t) _).mpr ⟨point, rest ++ back, form, ih rest others, rfl⟩

@[simp] theorem encode_nothing_iff (t : Text) : encode t = some [] ↔ t = [] := by
  cases t with
  | nil => simp [encode]
  | cons c t =>
      rw [encode_cons]
      constructor
      · rintro ⟨front, rest, form, _, empty⟩
        have filled := form_filled c front form
        simp [(List.append_eq_nil_iff.mp empty.symm).1] at filled
      · simp

theorem decode_within_iff (fuel : Nat) (bytes : Bytes) (t : Text) (enough : bytes.length ≤ fuel) :
    decodeWithin fuel bytes = some t ↔ encode t = some bytes := by
  induction fuel generalizing bytes t with
  | zero =>
      obtain rfl := List.length_eq_zero_iff.mp (Nat.le_zero.mp enough)
      rw [encode_nothing_iff, decodeWithin, Option.some.injEq, eq_comm]
  | succ fuel ih =>
      cases bytes with
      | nil => rw [encode_nothing_iff, decodeWithin, Option.some.injEq, eq_comm]
      | cons b tail =>
          rw [decodeWithin]
          -- Every form has a byte, so one unit of fuel pays for one code point.
          constructor
          · intro read
            split at read
            · rename_i c size point
              obtain ⟨t, others, rfl⟩ := Option.map_eq_some_iff.mp read
              obtain ⟨front, rest, form, rfl, split⟩ := decode_point_form c size (b :: tail) point
              have filled := form_filled c front form
              have whole := congrArg List.length split
              rw [List.length_append] at whole
              rw [split, List.drop_left] at others
              rw [split]
              exact (encode_cons c t _).mpr ⟨front, rest, form, (ih rest t (by omega)).mp others, rfl⟩
            · simp at read
          · intro written
            cases t with
            | nil => simp [encode] at written
            | cons c t =>
                obtain ⟨front, rest, form, others, split⟩ := (encode_cons c t _).mp written
                have filled := form_filled c front form
                have whole := congrArg List.length split
                rw [List.length_append] at whole
                rw [split, form_decode_point c front rest form]
                simp only [List.drop_left, (ih rest t (by omega)).mpr others, Option.map_some]
          · exact List.cons_ne_nil b tail

theorem decode_iff (bytes : Bytes) (t : Text) : decode bytes = some t ↔ encode t = some bytes :=
  decode_within_iff bytes.length bytes t (Nat.le_refl bytes.length)

end TapeMachine.Utf8
