import Mathlib.Data.List.Forall2
import TapeMachine.Proofs.JsonScalar

set_option autoImplicit false

namespace TapeMachine.Json

open Text (Inked digit_inked hex_digit_inked numeral_inked)

def Opens (c : CodePoint) : Prop :=
  isSpace c = false ∧ c ≠ CodePoint.ofChar ']' ∧ c ≠ CodePoint.ofChar '\x7d' ∧ c.val ≠ 0xFEFF

instance (c : CodePoint) : Decidable (Opens c) := inferInstanceAs (Decidable (_ ∧ _))

structure Spells (levels : Nat) (v : Json) (t : Text) : Prop where
  opens : ∃ c rest, t = c :: rest ∧ Opens c
  reads : ∀ fuel depth rest, 2 * t.length ≤ fuel → depth + levels ≤ nestingLimit → Ends rest →
    readValue fuel depth (t ++ rest) = .ok (v, rest)

theorem spells_scalar (levels : Nat) (v : Json) (c : CodePoint) (t : Text) (opens : Opens c)
    (single : c ≠ CodePoint.ofChar '"' ∧ c ≠ CodePoint.ofChar '[' ∧ c ≠ CodePoint.ofChar '\x7b')
    (read : ∀ rest, Ends rest → readScalar (c :: t ++ rest) = .ok (v, rest)) : Spells levels v (c :: t) where
  opens := ⟨c, t, rfl, opens⟩
  reads := by
    intro fuel depth rest enough shallow ends
    rw [List.length_cons] at enough
    obtain ⟨fuel, rfl⟩ : ∃ n, fuel = n + 1 := ⟨fuel - 1, by omega⟩
    rw [List.cons_append, readValue, if_neg single.1, if_neg single.2.1, if_neg single.2.2]
    exact read rest ends

@[simp] theorem starts_with_append (s t : Text) : Text.startsWith (s ++ t) s = true := by
  induction s with
  | nil => cases t <;> rfl
  | cons c s ih => simp [Text.startsWith, ih]

theorem read_scalar_word (before after : List (String × Json)) (name : String) (v : Json) (rest : Text)
    (c : CodePoint) (t : Text)
    (table : literals = before ++ (name, v) :: after) (word : Text.ofString name = c :: t)
    (apart : ∀ l ∈ before, ∃ d ∈ (Text.ofString l.1).head?, c ≠ d) :
    readScalar (Text.ofString name ++ rest) = .ok (v, rest) := by
  have found : (literals.find? fun l => Text.startsWith (Text.ofString name ++ rest) (Text.ofString l.1))
    = some (name, v) := by
    have missed : (before.find? fun l => Text.startsWith (Text.ofString name ++ rest) (Text.ofString l.1)) = none := by
      apply List.find?_eq_none.mpr
      intro l mem
      obtain ⟨d, first, differs⟩ := apart l mem
      obtain ⟨s, shape⟩ := List.head?_eq_some_iff.mp first
      rw [shape, word]
      exact Bool.eq_false_iff.mp (starts_with_apart c d _ s differs)
    rw [table, List.find?_append, missed, Option.none_or, List.find?_cons, starts_with_append]
  have size : name.length = (Text.ofString name).length := by rw [Text.ofString, List.length_map, String.length_toList]
  simp only [readScalar, found, size, List.drop_left]

theorem spells_null (levels : Nat) : Spells levels .null "null" :=
  spells_scalar levels .null 'n' ['u', 'l', 'l'] (by decide) (by decide) fun rest _ =>
    read_scalar_word [] _ "null" .null rest 'n' _ rfl rfl (by simp)

theorem spells_true (levels : Nat) : Spells levels (.bool true) "true" :=
  spells_scalar levels _ 't' ['r', 'u', 'e'] (by decide) (by decide) fun rest _ =>
    read_scalar_word [("null", .null)] _ "true" (.bool true) rest 't' _ rfl rfl (by decide)

theorem spells_false (levels : Nat) : Spells levels (.bool false) "false" :=
  spells_scalar levels _ 'f' ['a', 'l', 's', 'e'] (by decide) (by decide) fun rest _ =>
    read_scalar_word [("null", .null), ("true", .bool true)] _ "false" (.bool false) rest 'f' _ rfl rfl (by decide)

theorem digit_opens (c : CodePoint) (digit : c.isDigit = true) :
    Opens c ∧ c ≠ CodePoint.ofChar '"' ∧ c ≠ CodePoint.ofChar '[' ∧ c ≠ CodePoint.ofChar '\x7b' := by
  have apart (d : CodePoint) (other : d.isDigit = false) : c ≠ d := by
    rintro rfl
    rw [digit] at other
    exact Bool.false_ne_true other.symm
  have low : c.val ≠ 0xFEFF := by
    simp only [CodePoint.isDigit, Bool.and_eq_true, decide_eq_true_eq] at digit
    omega
  have solid : isSpace c = false := by
    simp only [isSpace, Bool.or_eq_false_iff, decide_eq_false_iff_not]
    exact ⟨⟨⟨apart _ rfl, apart _ rfl⟩, apart _ rfl⟩, apart _ rfl⟩
  exact ⟨⟨solid, apart _ rfl, apart _ rfl, low⟩, apart _ rfl, apart _ rfl, apart _ rfl⟩

theorem spells_int (levels : Nat) (i : Int) (short : i.natAbs < tenTo digitLimit) :
    Spells levels (.int i) (signedNumeral i) := by
  have read (rest : Text) (ends : Ends rest) := read_scalar_numeral i rest short ends
  by_cases negative : i < 0
  · rw [signedNumeral, if_pos negative] at read ⊢
    exact spells_scalar levels (.int i) '-' _ (by decide) (by decide) read
  · obtain ⟨d, ds, shape⟩ := List.exists_cons_of_ne_nil (numeral_ne_nil i.natAbs)
    have digit : d.isDigit = true := numeral_digits i.natAbs d (by rw [shape]; exact List.mem_cons_self)
    rw [signedNumeral, if_neg negative, shape] at read ⊢
    exact spells_scalar levels (.int i) d ds (digit_opens d digit).1 (digit_opens d digit).2 read

theorem escaped_point_length (c : CodePoint) : 0 < (escapedPoint c).length := by
  simp only [escapedPoint]
  repeat' split
  all_goals simp [Text.ofString, unicodeEscape]

theorem literal_length (t : Text) : t.length + 2 ≤ (stringLiteral t).length := by
  have inner : t.length ≤ (t.flatMap escapedPoint).length := by
    induction t with
    | nil => simp
    | cons c t ih =>
        have point := escaped_point_length c
        rw [List.flatMap_cons, List.length_append, List.length_cons]
        omega
  have quotes : stringLiteral t = CodePoint.ofChar '"' :: (t.flatMap escapedPoint ++ [CodePoint.ofChar '"']) := rfl
  rw [quotes, List.length_cons, List.length_append, List.length_singleton]
  omega

theorem literal_append (t rest : Text) :
    stringLiteral t ++ rest = CodePoint.ofChar '"' :: (t.flatMap escapedPoint ++ CodePoint.ofChar '"' :: rest) := by
  have quotes : stringLiteral t = CodePoint.ofChar '"' :: (t.flatMap escapedPoint ++ [CodePoint.ofChar '"']) := rfl
  rw [quotes, List.cons_append, List.append_assoc, List.singleton_append]

theorem spells_text (levels : Nat) (t : Text) (scalar : t.Scalar) : Spells levels (.text t) (stringLiteral t) where
  opens := ⟨'"', _, rfl, by decide⟩
  reads := by
    intro fuel depth rest enough shallow ends
    have long := literal_length t
    obtain ⟨fuel, rfl⟩ : ∃ n, fuel = n + 1 := ⟨fuel - 1, by omega⟩
    rw [literal_append, readValue, if_pos rfl, read_string_literal _ _ _ _ t scalar (by omega)]
    rfl

theorem drop_spaces (gap : Text) (c : CodePoint) (rest : Text) (spaces : Spaces gap) (solid : isSpace c = false) :
    dropSpaces (gap ++ c :: rest) = c :: rest := by
  rw [dropSpaces, List.dropWhile_append_of_pos spaces, List.dropWhile_cons_of_neg (by simp [solid])]

theorem ends_gap (gap : Text) (c : CodePoint) (rest : Text) (spaces : Spaces gap)
    (mark : c = CodePoint.ofChar ',' ∨ c = CodePoint.ofChar ']' ∨ c = CodePoint.ofChar '\x7d') :
    Ends (gap ++ c :: rest) := by
  intro d first
  cases gap with
  | nil =>
      obtain rfl := Option.some.inj first
      exact .inr mark
  | cons e gap =>
      obtain rfl := Option.some.inj first
      exact .inl (spaces e List.mem_cons_self)

theorem read_items_last (fuel depth : Nat) (t rest after : Text) (item : Json)
    (first : readValue fuel depth t = .ok (item, rest))
    (mark : dropSpaces rest = CodePoint.ofChar ']' :: after) : readItems (fuel + 1) depth t = .ok ([item], after) := by
  rw [readItems, first]
  simp only [ok_bind, mark, if_true]
  rfl

theorem read_items_more (fuel depth : Nat) (t rest after : Text) (item : Json) (others : List Json × Text)
    (first : readValue fuel depth t = .ok (item, rest)) (mark : dropSpaces rest = CodePoint.ofChar ',' :: after)
    (next : readItems fuel depth (dropSpaces after) = .ok others) :
    readItems (fuel + 1) depth t = .ok (item :: others.1, others.2) := by
  have apart : CodePoint.ofChar ',' ≠ CodePoint.ofChar ']' := by decide
  rw [readItems, first]
  simp only [ok_bind, mark, if_neg apart, if_true, next]
  rfl

theorem join_more (separator first : Text) (second : Text) (others : List Text) :
    Text.join separator (first :: second :: others) = first ++
      (separator ++ Text.join separator (second :: others)) := by
  rw [Text.join, List.append_assoc]

variable (levels : Nat) (gap close : Text)

theorem join_opens (items : List Json) (parts : List Text) (each : List.Forall₂ (Spells levels) items parts)
    (filled : items ≠ []) :
    ∃ c rest, Text.join (CodePoint.ofChar ',' :: gap) parts = c :: rest ∧ Opens c := by
  cases each with
  | nil => exact absurd rfl filled
  | cons first others =>
      obtain ⟨c, rest, rfl, opens⟩ := first.opens
      cases others with
      | nil => exact ⟨c, rest, rfl, opens⟩
      | cons second others => exact ⟨c, _, join_more _ _ _ _, opens⟩

theorem read_items (items : List Json) (parts : List Text) (each : List.Forall₂ (Spells levels) items parts)
    (filled : items ≠ [])
    (between : Spaces gap) (behind : Spaces close) (fuel depth : Nat) (rest : Text)
    (enough : 2 * (Text.join (CodePoint.ofChar ',' :: gap) parts).length + 1 ≤ fuel)
    (shallow : depth + levels ≤ nestingLimit) :
    readItems fuel depth (Text.join (CodePoint.ofChar ',' :: gap) parts ++ (close ++ CodePoint.ofChar ']' :: rest)) =
      .ok (items, rest) := by
  have ending := drop_spaces close (CodePoint.ofChar ']') rest behind (by decide)
  have after := ends_gap close (CodePoint.ofChar ']') rest behind (by decide)
  induction each generalizing fuel with
  | nil => exact absurd rfl filled
  | @cons item part items parts first others ih =>
      obtain ⟨fuel, rfl⟩ : ∃ n, fuel = n + 1 := ⟨fuel - 1, by omega⟩
      cases others with
      | nil =>
          rw [Text.join] at enough
          exact read_items_last fuel depth _ _ rest item (first.reads fuel depth _ (by omega) shallow after) ending
      | @cons item' part' items parts second others =>
          have more := List.Forall₂.cons second others
          obtain ⟨c, t, shape, opens⟩ := join_opens levels gap _ _ more (by simp)
          rw [join_more] at enough ⊢
          simp only [List.length_append, List.length_cons] at enough
          have next := ih (by simp) fuel (by omega)
          have read := first.reads fuel depth
            (CodePoint.ofChar ',' :: (gap ++ (Text.join (CodePoint.ofChar ',' :: gap) (part' :: parts) ++
            (close ++ CodePoint.ofChar ']' :: rest)))) (by omega) shallow (ends_gap [] _ _ (by simp [Spaces]) (by decide))
          have skipped : dropSpaces (gap ++ (Text.join (CodePoint.ofChar ',' :: gap) (part' :: parts) ++
              (close ++ CodePoint.ofChar ']' :: rest))) = Text.join (CodePoint.ofChar ',' :: gap) (part' :: parts) ++
                (close ++ CodePoint.ofChar ']' :: rest) := by
            rw [shape, List.cons_append, drop_spaces gap c _ between opens.1]
          rw [← skipped] at next
          rw [List.append_assoc, List.append_assoc, List.cons_append]
          exact read_items_more fuel depth _ _ _ item _ read (drop_spaces [] _ _ (by simp [Spaces]) (by decide)) next

theorem spells_nothing : Spells (levels + 1) (.list []) "[]" where
  opens := ⟨'[', _, rfl, by decide⟩
  reads := by
    intro fuel depth rest enough shallow ends
    obtain ⟨fuel, rfl⟩ : ∃ n, fuel = n + 1 := ⟨fuel - 1, by simp [Text.ofString] at enough; omega⟩
    have room : ¬ nestingLimit ≤ depth := by omega
    change readValue (fuel + 1) depth (CodePoint.ofChar '[' :: CodePoint.ofChar ']' :: rest) = _
    rw [readValue, if_neg (by decide), if_pos rfl, if_neg room]
    rfl

theorem spells_list (items : List Json) (parts : List Text)
    (each : List.Forall₂ (Spells levels) items parts) (filled : items ≠ [])
    (before : Text) (front : Spaces before) (between : Spaces gap) (behind : Spaces close) :
    Spells (levels + 1) (.list items) (CodePoint.ofChar '[' ::
      (before ++ (Text.join (CodePoint.ofChar ',' :: gap) parts ++ (close ++ [CodePoint.ofChar ']'])))) where
  opens := ⟨'[', _, rfl, by decide⟩
  reads := by
    intro fuel depth rest enough shallow ends
    obtain ⟨c, t, shape, opens⟩ := join_opens levels gap items parts each filled
    simp only [List.length_cons, List.length_append] at enough
    obtain ⟨fuel, rfl⟩ : ∃ n, fuel = n + 1 := ⟨fuel - 1, by omega⟩
    have room : ¬ nestingLimit ≤ depth := by omega
    have read := read_items levels gap close items parts each filled between behind fuel (depth + 1) rest
      (by omega) (by omega)
    have body : dropSpaces
      (before ++ (Text.join (CodePoint.ofChar ',' :: gap) parts ++ (close ++ CodePoint.ofChar ']' :: rest))) =
        Text.join (CodePoint.ofChar ',' :: gap) parts ++ (close ++ CodePoint.ofChar ']' :: rest) := by
      rw [shape, List.cons_append, drop_spaces before c _ front opens.1]
    have inside : (Text.join (CodePoint.ofChar ',' :: gap) parts ++ (close ++ CodePoint.ofChar ']' :: rest)).head? ≠
        some (CodePoint.ofChar ']') := by
      rw [shape]
      simpa using opens.2.1
    simp only [List.cons_append, List.append_assoc, List.nil_append]
    rw [readValue, if_neg (by decide), if_pos rfl, if_neg room]
    simp only [body, if_neg inside, read]
    rfl

theorem read_fields_last (fuel depth : Nat) (known : Fields) (t colon t' rest after key : Text) (value : Json)
    (named : readKey (fuel + 1) t = .ok (key, colon)) (split : expectColon (dropSpaces colon) = .ok t')
    (first : readValue fuel depth (dropSpaces t') = .ok (value, rest))
    (mark : dropSpaces rest = CodePoint.ofChar '\x7d' :: after) :
    readFields (fuel + 1) depth known t = .ok (known.insert key value, after) := by
  rw [readFields, named]
  simp only [ok_bind, split, first, mark, if_true]
  rfl

theorem read_fields_more (fuel depth : Nat) (known : Fields) (t colon t' rest after key : Text) (value : Json)
    (named : readKey (fuel + 1) t = .ok (key, colon)) (split : expectColon (dropSpaces colon) = .ok t')
    (first : readValue fuel depth (dropSpaces t') = .ok (value, rest))
    (mark : dropSpaces rest = CodePoint.ofChar ',' :: after) :
    readFields (fuel + 1) depth known t = readFields fuel depth (known.insert key value) (dropSpaces after) := by
  have apart : CodePoint.ofChar ',' ≠ CodePoint.ofChar '\x7d' := by decide
  rw [readFields, named]
  simp only [ok_bind, split, first, mark, if_neg apart, if_true]

structure SpellsField (field : Text × Json) (part : Text) : Prop where
  scalar : field.1.Scalar
  split : ∃ t, part = stringLiteral field.1 ++ (CodePoint.ofChar ':' :: CodePoint.ofChar ' ' :: t) ∧
    Spells levels field.2 t

theorem insert_new (key : Text) (value : Json) (fields : Fields) (new : key ∉ fields.map Prod.fst) :
    fields.insert key value = fields ++ [(key, value)] := by
  induction fields with
  | nil => rfl
  | cons field rest ih =>
      obtain ⟨k, v⟩ := field
      simp only [List.map_cons, List.mem_cons, not_or] at new
      rw [Fields.insert, if_neg (Ne.symm new.1), ih new.2, List.cons_append]

theorem read_key_literal (fuel : Nat) (key rest : Text) (scalar : key.Scalar) (enough : key.length < fuel) :
    readKey fuel (stringLiteral key ++ rest) = .ok (key, rest) := by
  rw [literal_append, readKey, if_pos rfl, read_string_literal _ _ _ _ key scalar enough]
  rfl

theorem spells_field_reads (field : Text × Json) (part : Text) (spells : SpellsField levels field part)
    (fuel depth : Nat) (after : Text)
    (enough : 2 * part.length ≤ fuel) (shallow : depth + levels ≤ nestingLimit) (ends : Ends after) :
    ∃ colon t, readKey (fuel + 1) (part ++ after) = .ok (field.1, colon) ∧ expectColon (dropSpaces colon) = .ok t ∧
      readValue fuel depth (dropSpaces t) = .ok (field.2, after) := by
  obtain ⟨t, rfl, value⟩ := spells.split
  obtain ⟨c, s, rfl, opens⟩ := value.opens
  have long := literal_length field.1
  simp only [List.length_append, List.length_cons] at enough
  refine ⟨CodePoint.ofChar ':' :: CodePoint.ofChar ' ' :: (c :: s ++ after),
    CodePoint.ofChar ' ' :: (c :: s ++ after), ?_, rfl, ?_⟩
  · rw [List.append_assoc]
    exact read_key_literal (fuel + 1) field.1 _ spells.scalar (by omega)
  · have skipped := drop_spaces [CodePoint.ofChar ' '] c (s ++ after) (by simp [Spaces, isSpace]) opens.1
    rw [List.cons_append, ← List.singleton_append, skipped, ← List.cons_append]
    exact value.reads fuel depth after (by rw [List.length_cons]; omega) shallow ends

theorem join_fields_open (fields : List (Text × Json)) (parts : List Text)
    (each : List.Forall₂ (SpellsField levels) fields parts)
    (filled : fields ≠ []) : ∃ rest, Text.join (CodePoint.ofChar ',' :: gap) parts = CodePoint.ofChar '"' :: rest := by
  cases each with
  | nil => exact absurd rfl filled
  | cons first others =>
      obtain ⟨t, rfl, _⟩ := first.split
      cases others with
      | nil => exact ⟨_, rfl⟩
      | cons second others => exact ⟨_, join_more _ _ _ _⟩

theorem read_fields (fields : List (Text × Json)) (parts : List Text)
    (each : List.Forall₂ (SpellsField levels) fields parts)
    (filled : fields ≠ []) (between : Spaces gap) (behind : Spaces close) (known : Fields)
    (distinct : ((known ++ fields).map Prod.fst).Nodup) (fuel depth : Nat) (rest : Text)
    (enough : 2 * (Text.join (CodePoint.ofChar ',' :: gap) parts).length + 1 ≤ fuel)
    (shallow : depth + levels ≤ nestingLimit) :
    readFields fuel depth known
    (Text.join (CodePoint.ofChar ',' :: gap) parts ++ (close ++ CodePoint.ofChar '\x7d' :: rest)) =
      .ok (known ++ fields, rest) := by
  have ending := drop_spaces close (CodePoint.ofChar '\x7d') rest behind (by decide)
  have after := ends_gap close (CodePoint.ofChar '\x7d') rest behind (by decide)
  induction each generalizing fuel known with
  | nil => exact absurd rfl filled
  | @cons field part fields parts first others ih =>
      obtain ⟨fuel, rfl⟩ : ∃ n, fuel = n + 1 := ⟨fuel - 1, by omega⟩
      have new : field.1 ∉ known.map Prod.fst := by
        rw [List.map_append, List.map_cons] at distinct
        intro mem
        exact (List.nodup_append.mp distinct).2.2 _ mem _ List.mem_cons_self rfl
      have filed : known.insert field.1 field.2 = known ++ [field] := insert_new field.1 field.2 known new
      cases others with
      | nil =>
          obtain ⟨colon, t, named, split, read⟩ := spells_field_reads levels field part first fuel depth _
            (by rw [Text.join] at enough; omega) shallow after
          rw [Text.join,
            read_fields_last fuel depth known _ colon t _ rest field.1 field.2 named split read ending, filed]
      | @cons field' part' fields parts second others =>
          have more := List.Forall₂.cons second others
          obtain ⟨s, shape⟩ := join_fields_open levels gap _ _ more (by simp)
          rw [join_more] at enough ⊢
          simp only [List.length_append, List.length_cons] at enough
          obtain ⟨colon, t, named, split, read⟩ := spells_field_reads levels field part first fuel depth
            (CodePoint.ofChar ',' :: (gap ++
            (Text.join (CodePoint.ofChar ',' :: gap) (part' :: parts) ++
              (close ++ CodePoint.ofChar '\x7d' :: rest)))) (by omega) shallow
              (ends_gap [] _ _ (by simp [Spaces]) (by decide))
          have skipped : dropSpaces (gap ++ (Text.join (CodePoint.ofChar ',' :: gap) (part' :: parts) ++
              (close ++ CodePoint.ofChar '\x7d' :: rest))) = Text.join (CodePoint.ofChar ',' :: gap) (part' :: parts) ++
                (close ++ CodePoint.ofChar '\x7d' :: rest) := by
            rw [shape, List.cons_append, drop_spaces gap _ _ between (by decide)]
          have next := ih (by simp) (known ++ [field]) (by simpa using distinct) fuel (by omega)
          rw [List.append_assoc, List.append_assoc, List.cons_append,
            read_fields_more fuel depth known _ colon t _ _ field.1 field.2 named
            split read (drop_spaces [] _ _ (by simp [Spaces]) (by decide)), skipped, filed, next, List.append_assoc]
          rfl

theorem spells_no_fields : Spells (levels + 1) (.object []) "\x7b\x7d" where
  opens := ⟨'\x7b', _, rfl, by decide⟩
  reads := by
    intro fuel depth rest enough shallow ends
    obtain ⟨fuel, rfl⟩ : ∃ n, fuel = n + 1 := ⟨fuel - 1, by simp [Text.ofString] at enough; omega⟩
    have room : ¬ nestingLimit ≤ depth := by omega
    change readValue (fuel + 1) depth (CodePoint.ofChar '\x7b' :: CodePoint.ofChar '\x7d' :: rest) = _
    rw [readValue, if_neg (by decide), if_neg (by decide), if_pos rfl, if_neg room]
    rfl

theorem spells_object (fields : List (Text × Json)) (parts : List Text)
    (each : List.Forall₂ (SpellsField levels) fields parts)
    (filled : fields ≠ []) (distinct : (fields.map Prod.fst).Nodup) (before : Text) (front : Spaces before)
    (between : Spaces gap)
    (behind : Spaces close) : Spells (levels + 1) (.object fields) (CodePoint.ofChar '\x7b' ::
      (before ++ (Text.join (CodePoint.ofChar ',' :: gap) parts ++ (close ++ [CodePoint.ofChar '\x7d'])))) where
  opens := ⟨'\x7b', _, rfl, by decide⟩
  reads := by
    intro fuel depth rest enough shallow ends
    obtain ⟨t, shape⟩ := join_fields_open levels gap fields parts each filled
    simp only [List.length_cons, List.length_append] at enough
    obtain ⟨fuel, rfl⟩ : ∃ n, fuel = n + 1 := ⟨fuel - 1, by omega⟩
    have room : ¬ nestingLimit ≤ depth := by omega
    have read := read_fields levels gap close fields parts each filled between behind [] distinct fuel
      (depth + 1) rest (by omega) (by omega)
    have body : dropSpaces (before ++
      (Text.join (CodePoint.ofChar ',' :: gap) parts ++ (close ++ CodePoint.ofChar '\x7d' :: rest))) =
        Text.join (CodePoint.ofChar ',' :: gap) parts ++ (close ++ CodePoint.ofChar '\x7d' :: rest) := by
      rw [shape, List.cons_append, drop_spaces before _ _ front (by decide)]
    have inside : (Text.join (CodePoint.ofChar ',' :: gap) parts ++ (close ++ CodePoint.ofChar '\x7d' :: rest)).head? ≠
        some (CodePoint.ofChar '\x7d') := by
      rw [shape, List.cons_append, List.head?_cons]
      decide
    simp only [List.cons_append, List.append_assoc, List.nil_append]
    rw [readValue, if_neg (by decide), if_neg (by decide), if_pos rfl, if_neg room]
    simp only [body, if_neg inside, read]
    rfl

inductive Plain : Nat → Json → Prop where
  | null {levels : Nat} : Plain levels .null
  | bool {levels : Nat} (b : Bool) : Plain levels (.bool b)
  | int {levels : Nat} (i : Int) (short : i.natAbs < tenTo digitLimit) : Plain levels (.int i)
  | text {levels : Nat} (t : Text) (scalar : t.Scalar) : Plain levels (.text t)
  | list {levels : Nat} (items : List Json) (each : ∀ item ∈ items, Plain levels item) :
      Plain (levels + 1) (.list items)
  | object {levels : Nat} (fields : List (Text × Json)) (distinct : (fields.map Prod.fst).Nodup)
      (scalar : ∀ field ∈ fields, field.1.Scalar) (each : ∀ field ∈ fields, Plain levels field.2) :
          Plain (levels + 1) (.object fields)

theorem compact_items_map (items : List Json) : compactItems items = items.map compact := by
  induction items with
  | nil => rfl
  | cons item items ih => rw [compactItems, ih, List.map_cons]

theorem compact_fields_map (fields : List (Text × Json)) :
    compactFields fields = fields.map fun field => stringLiteral field.1 ++ ": " ++ compact field.2 := by
  induction fields with
  | nil => rfl
  | cons field fields ih => rw [compactFields, ih, List.map_cons]

theorem indented_items_map (level : Nat) (items : List Json) : indentedItems level items = items.map
    (indentedAt level) := by
  induction items with
  | nil => rfl
  | cons item items ih => rw [indentedItems, ih, List.map_cons]

theorem indented_fields_map (level : Nat) (fields : List (Text × Json)) :
    indentedFields level fields = fields.map fun field => stringLiteral field.1 ++ ": " ++
      indentedAt level field.2 := by
  induction fields with
  | nil => rfl
  | cons field fields ih => rw [indentedFields, ih, List.map_cons]

theorem spells_items (print : Json → Text) (items : List Json)
    (each : ∀ item ∈ items, Spells levels item (print item)) :
    List.Forall₂ (Spells levels) items (items.map print) := by
  rw [List.forall₂_map_right_iff]
  exact List.forall₂_same.mpr each

theorem spells_fields (print : Json → Text) (fields : List (Text × Json)) (scalar : ∀ field ∈ fields, field.1.Scalar)
    (each : ∀ field ∈ fields, Spells levels field.2 (print field.2)) :
    List.Forall₂ (SpellsField levels) fields
    (fields.map fun field => stringLiteral field.1 ++ ": " ++ print field.2) := by
  rw [List.forall₂_map_right_iff]
  refine List.forall₂_same.mpr ?_
  intro field mem
  exact ⟨scalar field mem, print field.2, List.append_assoc _ _ _, each field mem⟩

theorem spaces_blank : Spaces [CodePoint.ofChar ' '] := by simp [Spaces, isSpace]

theorem spaces_line_start (level : Nat) : Spaces (lineStart level) := by
  intro c mem
  rcases List.mem_cons.mp mem with rfl | blank
  · rfl
  · rw [List.eq_of_mem_replicate blank]
    rfl

theorem plain_compact (v : Json) (plain : Plain levels v) : Spells levels v v.compact := by
  have none : Spaces [] := by simp [Spaces]
  induction plain with
  | null => exact spells_null _
  | bool b =>
      cases b with
      | false => exact spells_false _
      | true => exact spells_true _
  | int i short => exact spells_int _ i short
  | text t scalar => exact spells_text _ t scalar
  | @list levels items each ih =>
      have parts := spells_items levels compact items ih
      rw [compact, compact_items_map]
      cases items with
      | nil => exact spells_nothing levels
      | cons item items =>
          exact spells_list levels [CodePoint.ofChar ' '] [] _ _ parts (by simp) [] none spaces_blank none
  | @object levels fields distinct scalar each ih =>
      have parts := spells_fields levels compact fields scalar ih
      rw [compact, compact_fields_map]
      cases fields with
      | nil => exact spells_no_fields levels
      | cons field fields =>
          exact spells_object levels [CodePoint.ofChar ' '] [] _ _ parts (by simp) distinct [] none spaces_blank none

theorem block_filled (level : Nat) (start finish : CodePoint) (parts : List Text) (filled : parts ≠ []) :
    block level [start] [finish] parts = start :: (lineStart (level + 1) ++
      (Text.join (CodePoint.ofChar ',' :: lineStart (level + 1)) parts ++ (lineStart level ++ [finish]))) := by
  rw [block, if_neg (by simpa using filled)]
  simp only [List.append_assoc, List.singleton_append]
  rfl

theorem plain_indented (v : Json) (plain : Plain levels v) (level : Nat) : Spells levels v (v.indentedAt level) := by
  induction plain generalizing level with
  | null => exact spells_null _
  | bool b =>
      cases b with
      | false => exact spells_false _
      | true => exact spells_true _
  | int i short => exact spells_int _ i short
  | text t scalar => exact spells_text _ t scalar
  | @list levels items each ih =>
      have parts := spells_items levels (indentedAt (level + 1)) items fun item mem => ih item mem (level + 1)
      rw [indentedAt, indented_items_map]
      cases items with
      | nil => exact spells_nothing levels
      | cons item items =>
          have layout := block_filled level '[' ']' ((item :: items).map (indentedAt (level + 1))) (by simp)
          exact layout ▸ spells_list levels _ _ _ _ parts (by simp) _ (spaces_line_start _)
            (spaces_line_start _) (spaces_line_start _)
  | @object levels fields distinct scalar each ih =>
      have parts := spells_fields levels (indentedAt (level + 1)) fields scalar fun field mem =>
        ih field mem (level + 1)
      rw [indentedAt, indented_fields_map]
      cases fields with
      | nil => exact spells_no_fields levels
      | cons field fields =>
          have layout := block_filled level '\x7b' '\x7d' ((field :: fields).map fun field =>
            stringLiteral field.1 ++ ": " ++ indentedAt (level + 1) field.2) (by simp)
          exact layout ▸ spells_object levels _ _ _ _ parts (by simp) distinct _ (spaces_line_start _)
            (spaces_line_start _)
            (spaces_line_start _)

theorem join_each (p : CodePoint → Prop) (separator : Text) (parts : List Text) (between : ∀ c ∈ separator, p c)
    (each : ∀ part ∈ parts, ∀ c ∈ part, p c) : ∀ c ∈ Text.join separator parts, p c := by
  induction parts with
  | nil => simp [Text.join]
  | cons first others ih =>
      have here := each first List.mem_cons_self
      have after := ih fun part mem => each part (List.mem_cons_of_mem first mem)
      cases others with
      | nil => exact here
      | cons second others =>
          rw [join_more]
          exact List.forall_mem_append.mpr ⟨here, List.forall_mem_append.mpr ⟨between, after⟩⟩

theorem unicode_escape_inked (n : Nat) : ∀ c ∈ unicodeEscape n, Inked c := by
  have shape : unicodeEscape n = [CodePoint.ofChar '\\', CodePoint.ofChar 'u', hexDigit (n / 16 / 16 / 16),
    hexDigit (n / 16 / 16),
    hexDigit (n / 16), hexDigit n] := rfl
  simp only [shape, List.forall_mem_cons, hex_digit_inked, true_and]
  exact ⟨by decide, by decide, by simp⟩

theorem escaped_point_inked (c : CodePoint) : ∀ d ∈ escapedPoint c, Inked d := by
  simp only [escapedPoint]
  split
  · decide
  split
  · decide
  split
  · decide
  split
  · decide
  split
  · decide
  split
  · decide
  split
  · decide
  split
  · rename_i visible
    exact List.forall_mem_singleton.mpr visible
  split
  · exact unicode_escape_inked c.val
  · exact List.forall_mem_append.mpr ⟨unicode_escape_inked _, unicode_escape_inked _⟩

theorem literal_inked (t : Text) : ∀ c ∈ stringLiteral t, Inked c := by
  intro c mem
  rcases List.mem_append.mp mem with mem | mem
  · rcases List.mem_append.mp mem with mem | mem
    · exact (by decide : ∀ c ∈ Text.ofString "\"", Inked c) c mem
    · obtain ⟨d, _, inside⟩ := List.mem_flatMap.mp mem
      exact escaped_point_inked d c inside
  · exact (by decide : ∀ c ∈ Text.ofString "\"", Inked c) c mem

theorem minus_inked (negative : Bool) : ∀ c ∈ Binary64.minus negative, Inked c := by cases negative <;> decide

theorem zeros_inked (n : Nat) : ∀ c ∈ Binary64.zeros n, Inked c := by
  intro c mem
  rw [List.eq_of_mem_replicate mem]
  decide

theorem layout_inked (digits : Nat) (k : Int) : ∀ c ∈ Binary64.layout digits k, Inked c := by
  have digital (n : Nat) : ∀ c ∈ numeral n, Inked c := fun c mem => digit_inked c (numeral_digits n c mem)
  have front (n : Nat) : ∀ c ∈ (numeral digits).take n, Inked c :=
    fun c mem => digital digits c (List.mem_of_mem_take mem)
  have back (n : Nat) : ∀ c ∈ (numeral digits).drop n, Inked c :=
    fun c mem => digital digits c (List.mem_of_mem_drop mem)
  have point : ∀ c ∈ Text.ofString ".", Inked c := by decide
  simp only [Binary64.layout]
  split
  · split
    · simp only [List.forall_mem_append]
      exact ⟨⟨by decide, zeros_inked _⟩, digital digits⟩
    · split
      · simp only [List.forall_mem_append]
        exact ⟨⟨digital digits, zeros_inked _⟩, by decide⟩
      · simp only [List.forall_mem_append]
        exact ⟨⟨front _, point⟩, back _⟩
  · simp only [List.forall_mem_append]
    refine ⟨⟨⟨⟨front 1, ?_⟩, ?_⟩, zeros_inked _⟩, digital _⟩
    · split
      · simp
      · exact List.forall_mem_append.mpr ⟨point, back 1⟩
    · split <;> decide

theorem float_literal_inked (d : Binary64) : ∀ c ∈ floatLiteral d, Inked c := by
  rw [floatLiteral]
  split
  · decide
  · exact List.forall_mem_append.mpr ⟨minus_inked _, by decide⟩
  · rename_i s m e finite
    rw [Binary64.text, finite]
    simp only [Binary64.finiteText?, finite]
    split
    · exact List.forall_mem_append.mpr ⟨minus_inked _, by decide⟩
    · exact List.forall_mem_append.mpr ⟨minus_inked _, layout_inked _ _⟩

mutual
theorem compact_inked : ∀ v : Json, ∀ c ∈ v.compact, Inked c
  | .null => by decide
  | .bool true => by decide
  | .bool false => by decide
  | .int i => numeral_inked i
  | .float d => float_literal_inked d
  | .text t => literal_inked t
  | .list items => by
      have inside := join_each Inked ", " _ (by decide) (compact_items_inked items)
      exact List.forall_mem_append.mpr ⟨List.forall_mem_append.mpr ⟨by decide, inside⟩, by decide⟩
  | .object fields => by
      have inside := join_each Inked ", " _ (by decide) (compact_fields_inked fields)
      exact List.forall_mem_append.mpr ⟨List.forall_mem_append.mpr ⟨by decide, inside⟩, by decide⟩

theorem compact_items_inked : ∀ items : List Json, ∀ part ∈ compactItems items, ∀ c ∈ part, Inked c
  | [] => by simp [compactItems]
  | item :: items => List.forall_mem_cons.mpr ⟨compact_inked item, compact_items_inked items⟩

theorem compact_fields_inked : ∀ fields : List (Text × Json), ∀ part ∈ compactFields fields, ∀ c ∈ part, Inked c
  | [] => by simp [compactFields]
  | (key, value) :: fields => by
      refine List.forall_mem_cons.mpr ⟨?_, compact_fields_inked fields⟩
      exact List.forall_mem_append.mpr ⟨List.forall_mem_append.mpr ⟨literal_inked key, by decide⟩, compact_inked value⟩
end

def InkedLines (c : CodePoint) : Prop := c = CodePoint.ofChar '\n' ∨ Inked c

instance (c : CodePoint) : Decidable (InkedLines c) := inferInstanceAs (Decidable (_ ∨ _))

theorem line_start_inked (level : Nat) : ∀ c ∈ lineStart level, InkedLines c := by
  intro c mem
  rcases List.mem_cons.mp mem with rfl | blank
  · decide
  · rw [List.eq_of_mem_replicate blank]
    decide

theorem block_inked (level : Nat) (start finish : CodePoint) (parts : List Text) (first : Inked start)
    (last : Inked finish)
    (each : ∀ part ∈ parts, ∀ c ∈ part, InkedLines c) : ∀ c ∈ block level [start] [finish] parts, InkedLines c := by
  have opened : ∀ c ∈ ([start] : Text), InkedLines c := by simp [InkedLines, first]
  have closed : ∀ c ∈ ([finish] : Text), InkedLines c := by simp [InkedLines, last]
  have comma : ∀ c ∈ CodePoint.ofChar ',' :: lineStart (level + 1), InkedLines c :=
    List.forall_mem_cons.mpr ⟨by decide, line_start_inked (level + 1)⟩
  have inside := join_each InkedLines _ parts comma each
  rw [block]
  split
  · exact List.forall_mem_append.mpr ⟨opened, closed⟩
  · simp only [List.forall_mem_append]
    exact ⟨⟨⟨⟨opened, line_start_inked _⟩, inside⟩, line_start_inked _⟩, closed⟩

theorem indented_inked (v : Json) (plain : Plain levels v) (level : Nat) : ∀ c ∈ v.indentedAt level, InkedLines c := by
  have colon : ∀ c ∈ Text.ofString ": ", InkedLines c := by decide
  induction plain generalizing level with
  | null => exact (by decide : ∀ c ∈ Text.ofString "null", InkedLines c)
  | bool b =>
      cases b with
      | false => exact (by decide : ∀ c ∈ Text.ofString "false", InkedLines c)
      | true => exact (by decide : ∀ c ∈ Text.ofString "true", InkedLines c)
  | int i short => exact fun c mem => .inr (numeral_inked i c mem)
  | text t scalar => exact fun c mem => .inr (literal_inked t c mem)
  | @list levels items each ih =>
      rw [indentedAt, indented_items_map]
      refine block_inked level '[' ']' _ (by decide) (by decide) ?_
      intro part mem
      obtain ⟨item, found, rfl⟩ := List.mem_map.mp mem
      exact ih item found (level + 1)
  | @object levels fields distinct scalar each ih =>
      rw [indentedAt, indented_fields_map]
      refine block_inked level '\x7b' '\x7d' _ (by decide) (by decide) ?_
      intro part mem
      obtain ⟨field, found, rfl⟩ := List.mem_map.mp mem
      exact List.forall_mem_append.mpr
        ⟨List.forall_mem_append.mpr ⟨fun c mem => .inr (literal_inked field.1 c mem), colon⟩,
        ih field found (level + 1)⟩

theorem read_spelled (v : Json) (t : Text) (spells : Spells levels v t)
    (shallow : levels ≤ nestingLimit) : read t = .ok v := by
  obtain ⟨c, rest, shape, opens⟩ := spells.opens
  have skipped := drop_spaces [] c rest (by simp [Spaces]) opens.1
  have value := spells.reads (2 * t.length + 2) 0 [] (by omega) (by omega) (by simp [Ends])
  rw [List.append_nil, shape] at value
  have marked : (c :: rest : Text).head?.map CodePoint.val ≠ some 0xFEFF := by simpa using opens.2.2.2
  have ended : dropSpaces [] = [] := rfl
  rw [List.nil_append] at skipped
  rw [shape, read, if_neg marked]
  simp only [ok_bind, pure_ok, skipped, value, ended]

theorem compact_read_back (v : Json) (plain : Plain levels v) (shallow : levels ≤ nestingLimit) :
    read v.compact = .ok v :=
  read_spelled levels v _ (plain_compact levels v plain) shallow

theorem indented_read_back (v : Json) (plain : Plain levels v) (shallow : levels ≤ nestingLimit) :
    read v.indented = .ok v :=
  read_spelled levels v _ (plain_indented levels v plain 0) shallow

end TapeMachine.Json
