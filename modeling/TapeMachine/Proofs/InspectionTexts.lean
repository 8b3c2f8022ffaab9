import TapeMachine.Command.Inspect
import TapeMachine.Proofs.LoadedDefinitions
import TapeMachine.Proofs.TameTexts

set_option autoImplicit false

namespace TapeMachine

namespace Text

@[simp] theorem bracketless_hex (width n : Nat) : (hexFixed width n).bracketless = true := by
  induction width generalizing n with
  | zero => rfl
  | succ width ih =>
      have digit : hexDigit n ≠ CodePoint.ofChar '[' := by
        intro same
        have value := congrArg CodePoint.val same
        simp only [hexDigit, CodePoint.ofChar] at value
        split at value <;> simp at value <;> omega
      rw [hexFixed, bracketless_append, ih]
      exact (bracketless_cons _ []).mpr ⟨digit, rfl⟩

theorem bracketless_join (separator : Text) (ts : List Text) (plain : separator.bracketless = true)
    (each : ∀ t ∈ ts, t.bracketless = true) :
    bracketless (Text.join separator ts) = true := by
  fun_induction Text.join separator ts with
  | case1 => rfl
  | case2 t => exact each t List.mem_cons_self
  | case3 t u rest ih =>
      obtain ⟨first, others⟩ := List.forall_mem_cons.mp each
      rw [bracketless_append, bracketless_append, first, plain, ih others]
      rfl

@[simp] theorem bracketless_hex_row (bytes : Bytes) : (Hex.row bytes).bracketless = true :=
  bracketless_join _ _ rfl fun t mem => by
    obtain ⟨b, _, rfl⟩ := List.mem_map.mp mem
    exact bracketless_hex 2 b.toNat

@[simp] theorem bracketless_base64 (bytes : Bytes) : (Base64.encode bytes).bracketless = true := by
  have plain (n : Nat) : Base64.digit n ≠ CodePoint.ofChar '[' := by
    have listed : ∀ c ∈ Base64.padding :: Base64.alphabet, c ≠ CodePoint.ofChar '[' := by decide
    apply listed
    rw [Base64.digit]
    cases found : Base64.alphabet[n % 64]? with
    | none => exact List.mem_cons_self
    | some c => exact List.mem_cons_of_mem _ (List.mem_of_getElem? found)
  have filler : Base64.padding ≠ CodePoint.ofChar '[' := by decide
  fun_induction Base64.encode bytes with
  | case1 => rfl
  | case2 a n => simp [plain, filler]; rfl
  | case3 a b n => simp [plain, filler]; rfl
  | case4 a b c rest n ih => simp [plain, ih]

/-- Words of a single code point have no tag, one after the other with blanks between. -/
theorem untagged_spaced (words : List Text) (single : ∀ t ∈ words, ∃ c, t = [c]) :
    untagged (Text.join " " words) = true := by
  fun_induction Text.join " " words with
  | case1 => rfl
  | case2 t =>
      obtain ⟨c, rfl⟩ := single t List.mem_cons_self
      rfl
  | case3 t u rest ih =>
      obtain ⟨first, others⟩ := List.forall_mem_cons.mp single
      obtain ⟨c, rfl⟩ := first
      have last : List.getLast? ([c] ++ Text.ofString " ") = some (CodePoint.ofChar ' ') := rfl
      have gap : CodePoint.ofChar ' ' ≠ CodePoint.ofChar '[' := by decide
      refine untagged_append _ _ (untagged_append [c] " " rfl rfl (.inr (by decide))) (ih others) (.inl ?_)
      rw [last]
      exact fun same => gap (Option.some.inj same)

theorem untagged_marked (mark : CodePoint) (t : Text) (bare : mark ≠ '[') (shut : mark.opensTag = false)
    (plain : t.untagged = true) :
    untagged (mark :: t ++ [mark]) = true := by
  have first : untagged [mark] = true := rfl
  refine untagged_append _ _ (untagged_append [mark] t first plain (.inl ?_)) first (.inr ?_)
  · simpa using bare
  · simpa using shut

theorem untagged_escaped (mark c : CodePoint) (bare : mark ≠ '[') : untagged (escaped mark c) = true := by
  have slash : backslash ≠ CodePoint.ofChar '[' := by decide
  have coded (letter : CodePoint) (width : Nat) (plain : letter ≠ '[') :
      untagged (backslash :: letter :: hexFixed width c.val) = true :=
    untagged_bracketless _ (by simp [slash, plain])
  rw [escaped]
  split
  · rename_i same
    have plain : c ≠ '[' := by rcases same with rfl | rfl <;> assumption
    exact untagged_bracketless _ (by simp [slash, plain]; rfl)
  repeat' split
  · rfl
  · rfl
  · rfl
  · rfl
  · exact coded _ _ (by decide)
  · exact coded _ _ (by decide)
  · exact coded _ _ (by decide)

@[simp] theorem untagged_quoted (c : CodePoint) : untagged (quoted [c]) = true := by
  have mark : quoteMark [c] = '"' ∨ quoteMark [c] = '\'' := by
    rw [quoteMark]
    split
    · exact .inl rfl
    · exact .inr rfl
  rw [quoted, List.flatMap_singleton]
  rcases mark with same | same
  · rw [same]
    exact untagged_marked _ _ (by decide) (by decide) (untagged_escaped _ c (by decide))
  · rw [same]
    exact untagged_marked _ _ (by decide) (by decide) (untagged_escaped _ c (by decide))

end Text

open Screen

theorem State.cell_tame (s : State) (symbol : Symbol)
    (chars : ∀ t ∈ s.transitions, ∃ c, t.output = .char c) : Tame (s.cell symbol) := by
  rw [cell]
  cases found : s.next? symbol with
  | none => exact tame_bracketless _ rfl
  | some t =>
      obtain ⟨c, written⟩ := chars t (List.mem_of_find?_eq_some found)
      have moved : Text.bracketless ([t.action.capital] ++ numeral t.target) = true := by
        rw [Text.bracketless_append, Text.bracketless_numeral]
        cases t.action <;> rfl
      have shut : t.action.capital.opensTag = false := by cases t.action <;> rfl
      refine .untagged _ ?_
      dsimp only
      rw [written, List.append_assoc]
      exact Text.untagged_append [c] _ rfl (Text.untagged_bracketless _ moved) (.inr (by simpa using shut))

theorem State.label_tame (s : State) (start : Label) : Tame (s.label start) := by
  have bare (after : Text) (plain : after.bracketless = true) :
      Text.bracketless ((if start.names s.id then Text.ofString "> " else []) ++ numeral s.id ++ after) = true := by
    rw [Text.bracketless_append, Text.bracketless_append, Text.bracketless_numeral, plain]
    split <;> rfl
  rw [label]
  split
  · exact tame_styled _ _ (by decide) (Text.untagged_bracketless _ (bare " A" rfl))
  · split
    · exact tame_styled _ _ (by decide) (Text.untagged_bracketless _ (bare " R" rfl))
    · exact tame_bracketless _ (by simpa using bare [] rfl)

theorem Table.markup_mem (table : Table) (t : Text) (mem : t ∈ table.markup) :
    t ∈ table.columns ∨ (∃ row ∈ table.rows, t ∈ row) ∨ t = table.title := by
  rcases List.mem_append.mp mem with inside | last
  · obtain ⟨⟨header, i⟩, listed, inside⟩ := List.mem_flatMap.mp inside
    rcases List.mem_cons.mp inside with rfl | inside
    · exact .inl (List.fst_mem_of_mem_zipIdx listed)
    · obtain ⟨row, kept, found⟩ := List.mem_filterMap.mp inside
      exact .inr (.inl ⟨row, kept, List.mem_of_getElem? found⟩)
  · exact .inr (.inr (List.mem_singleton.mp last))

namespace Definition

variable (d : Definition) (filed : d.Filed)

include filed

theorem symbols_char (s : State) (mem : s ∈ d.configuration.states) : ∀ t ∈ s.transitions, ∃ c, t.output = .char c := by
  intro t within
  obtain ⟨c, same, _⟩ := filed.sound.closed.symbols s mem t within t.output List.mem_cons_self
  exact ⟨c, same⟩

theorem charset_text_tame : Tame ("  Charset: " ++ Text.join " " d.charset) := by
  refine .untagged _ ?_
  rw [Text.untagged_after _ _ rfl]
  exact Text.untagged_spaced d.charset filed.sound.closed.single

theorem blank_text_tame : Tame ("  Blank: " ++ optionalText d.blank) := by
  refine .untagged _ ?_
  rw [Text.untagged_after _ _ rfl]
  cases marked : d.blank with
  | none => rfl
  | some blank =>
      obtain ⟨c, rfl⟩ := filed.sound.closed.single blank (filed.sound.closed.blank blank marked)
      exact Text.untagged_quoted c

theorem states_text_tame : Tame
    ("  States: " ++ numeral d.configuration.states.length ++ "  Start: " ++ d.configuration.start.plain) := by
  obtain ⟨id, start⟩ := filed.sound.start
  have plain : d.configuration.start.plain = numeral id := by
    have signed : d.configuration.start.plain = signedNumeral id := by rw [start]; rfl
    rw [signed, signedNumeral, if_neg (Int.not_lt.mpr (Int.natCast_nonneg id)), Int.natAbs_natCast]
  refine tame_bracketless _ ?_
  rw [plain, Text.bracketless_append, Text.bracketless_append, Text.bracketless_append,
    Text.bracketless_numeral, Text.bracketless_numeral]
  rfl

theorem transition_table_tame (table : Table) (shown : .table table ∈ d.inspection) : ∀ t ∈ table.markup, Tame t := by
  simp only [inspection, List.mem_cons, List.not_mem_nil, or_false, Print.table.injEq, reduceCtorEq, false_or] at shown
  subst shown
  intro t mem
  rcases Table.markup_mem _ t mem with head | ⟨row, listed, mem⟩ | rfl
  · rcases List.mem_cons.mp head with rfl | symbol
    · exact tame_bracketless _ rfl
    · obtain ⟨word, declared, rfl⟩ := List.mem_map.mp symbol
      obtain ⟨c, rfl⟩ := filed.sound.closed.single word declared
      exact .untagged _ (Text.untagged_quoted c)
  · obtain ⟨_, rowed, rfl⟩ := List.mem_map.mp listed
    obtain ⟨s, held, rfl⟩ := List.mem_map.mp rowed
    rcases List.mem_cons.mp mem with rfl | cell
    · exact s.label_tame _
    · obtain ⟨x, _, rfl⟩ := List.mem_map.mp cell
      exact s.cell_tame _ (symbols_char d filed s held)
  · exact tame_bracketless _ rfl

/-- The initial memory is the only text of an inspection that may have tags. -/
theorem inspection_tame (p : Print) (shown : p ∈ d.inspection) (t : Text) (mem : t ∈ p.markup) :
    Tame t ∨ ∃ word, d.memory = some word ∧ t = "  Initial memory: " ++ word.quoted := by
  cases p with
  | table table => exact .inl (transition_table_tame d filed table shown t mem)
  | text u =>
      obtain rfl := List.mem_singleton.mp mem
      simp only [inspection, List.mem_cons, List.not_mem_nil, or_false, Print.text.injEq, reduceCtorEq] at shown
      rcases shown with rfl | rfl | rfl | rfl
      · exact .inl (charset_text_tame d filed)
      · exact .inl (blank_text_tame d filed)
      · cases held : d.memory with
        | none => exact .inl (tame_bracketless _ rfl)
        | some word => exact .inr ⟨word, rfl, rfl⟩
      · exact .inl (states_text_tame d filed)
  | _ => simp [inspection] at shown

end Definition

end TapeMachine
