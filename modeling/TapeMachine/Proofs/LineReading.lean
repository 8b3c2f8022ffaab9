import TapeMachine.Proofs.LineForms

set_option autoImplicit false

namespace TapeMachine.Line

open Text (Gap Solid Digits StartsSolid)

theorem read_cases (t : Text) (line : Line) (read : read? t = some line) :
    (t = [] ∧ line = .empty) ∨ (isComment t = true ∧ line = .comment) ∨ charset? t = some line ∨ blank? t = some line ∨
      memory? t = some line ∨ state? t = some line ∨ transition? t = some line := by
  rw [read?] at read
  split at read
  · rename_i empty
    cases read
    exact .inl ⟨empty, rfl⟩
  · split at read
    · rename_i marked
      cases read
      exact .inr (.inl ⟨marked, rfl⟩)
    · simp only [Option.orElse_eq_orElse, Option.orElse_eq_or, Option.or_eq_some_iff] at read
      rcases read with found | ⟨_, found | ⟨_, found | ⟨_, found | ⟨_, found⟩⟩⟩⟩ <;> simp [found]

theorem read_form (t : Text) (line : Line) (read : read? t = some line) : Form t line := by
  rcases read_cases t line read with ⟨rfl, rfl⟩ | ⟨marked, rfl⟩ | charset | blank | memory | state | transition
  · exact .empty
  · obtain ⟨mark, marks, rest, rfl⟩ := (comment_iff t).mp marked
    exact .comment mark rest marks
  · obtain ⟨rest, found, rfl⟩ := Option.map_eq_some_iff.mp charset
    obtain ⟨word, gap, named, filled, isGap, rfl, starts, clean⟩ := (directive_iff _ t rest).mp found
    exact .charset word gap rest named ⟨filled, isGap⟩ starts clean
  · rw [blank?, Option.bind_eq_bind, Option.bind_eq_some_iff] at blank
    obtain ⟨rest, found, single⟩ := blank
    obtain ⟨word, gap, named, filled, isGap, rfl, starts, clean⟩ := (directive_iff _ t rest).mp found
    split at single
    · rename_i c
      cases single
      obtain ⟨d, tail, same, visible⟩ := starts
      cases same
      exact .blank word gap c named ⟨filled, isGap⟩ visible
    · simp at single
  · obtain ⟨rest, found, rfl⟩ := Option.map_eq_some_iff.mp memory
    obtain ⟨word, gap, named, filled, isGap, rfl, starts, clean⟩ := (directive_iff _ t rest).mp found
    exact .memory word gap rest named ⟨filled, isGap⟩ starts clean
  · obtain ⟨isStart, id, acceptance, form, rfl⟩ := (state_iff t line).mp state
    exact .state t id isStart acceptance form
  · obtain ⟨source, inputs, output, action, target, form, rfl⟩ := (transition_iff t line).mp transition
    exact .transition t source inputs target output action form

theorem names_percent (name : List Char) (word rest : Text) (named : Names ('%' :: name) word) :
    isComment (word ++ rest) = false ∧ word ++ rest ≠ [] := by
  obtain ⟨c, tail, rfl, percent, _⟩ := List.map_eq_cons_iff.mp named
  have marks : c ≠ CodePoint.ofChar ';' ∧ c ≠ CodePoint.ofChar '/' ∧ c ≠ CodePoint.ofChar '-' := by
    refine ⟨?_, ?_, ?_⟩ <;> (intro same; rw [same] at percent; exact absurd percent (by decide))
  refine ⟨?_, List.cons_ne_nil c _⟩
  cases shape : tail ++ rest <;> simp [isComment, shape, marks]

theorem directive_other (first second : Char) (name other : List Char) (word rest : Text)
    (named : Names ('%' :: first :: name) word) (different : CodePoint.ofChar first ≠ CodePoint.ofChar second) :
    directive? ('%' :: second :: other) (word ++ rest) = none := by
  obtain ⟨c, tail, rfl, _, letters⟩ := List.map_eq_cons_iff.mp named
  obtain ⟨e, tail, rfl, letter, _⟩ := List.map_eq_cons_iff.mp letters
  simp [directive?, afterWord?, letter, different]

def StartsPlain (t : Text) : Prop := ∃ c rest, t = c :: rest ∧ c.folded ≠ CodePoint.ofChar '%' ∧
  c ≠ CodePoint.ofChar ';' ∧ c ≠ CodePoint.ofChar '/' ∧ c ≠ CodePoint.ofChar '-'

theorem digits_start_plain (digits rest : Text) (number : Digits digits) : StartsPlain (digits ++ rest) := by
  obtain ⟨d, ds, rfl⟩ := List.exists_cons_of_ne_nil number.1
  have digit := number.2 d List.mem_cons_self
  refine ⟨d, ds ++ rest, rfl, ?_⟩
  rw [Text.folded_digit d digit]
  refine ⟨?_, ?_, ?_, ?_⟩ <;> (rintro rfl; exact absurd digit (by decide))

theorem marker_starts_plain (isStart : Bool) (marker digits rest : Text) (marks : Marker isStart marker)
    (number : Digits digits) :
    StartsPlain (marker ++ (digits ++ rest)) := by
  cases isStart with
  | false =>
      obtain rfl : marker = [] := marks
      exact digits_start_plain digits rest number
  | true =>
      obtain ⟨gap, _, rfl⟩ := marks
      refine ⟨CodePoint.ofChar '>', _, rfl, ?_⟩
      refine ⟨?_, ?_, ?_, ?_⟩ <;> decide

theorem read_plain (t : Text) (plain : StartsPlain t) : read? t = (state? t <|> transition? t) := by
  obtain ⟨c, rest, rfl, percent, semicolon, slash, minus⟩ := plain
  have unnamed (name : List Char) : directive? ('%' :: name) (c :: rest) = none := by
    simp [directive?, afterWord?, percent]
  have notComment : isComment (c :: rest) = false := by
    cases rest <;> simp [isComment, semicolon, slash, minus]
  have noCharset : charset? (c :: rest) = none := by rw [charset?, unnamed]; rfl
  have noBlank : blank? (c :: rest) = none := by rw [blank?, unnamed]; rfl
  have noMemory : memory? (c :: rest) = none := by rw [memory?, unnamed]; rfl
  rw [read?, if_neg (by simp), if_neg (by simp [notComment]), noCharset, noBlank, noMemory]
  rfl

theorem state_none (digits gap rest : Text) (number : Digits digits) (filled : gap ≠ [] ∧ Gap gap)
    (starts : StartsSolid rest)
    (long : 2 ≤ rest.length) : state? (digits ++ (gap ++ rest)) = none := by
  have split : splitStart (digits ++ (gap ++ rest)) = (false, digits ++ (gap ++ rest)) :=
    marker_split_start [] digits (gap ++ rest) false rfl number
  have noTag : acceptance? rest = none := by
    match rest, long with
    | _ :: _ :: _, _ => rfl
  simp only [state?, split, digits_before_gap digits gap rest number filled, Option.bind_eq_bind, Option.bind_some,
    Text.drop_blanks_gap gap rest filled.2, Text.drop_blanks_solid rest starts, noTag, Option.bind_none]

theorem form_read (t : Text) (line : Line) (form : Form t line) : read? t = some line := by
  cases form with
  | empty => rfl
  | comment mark rest marks =>
      have marked : isComment (mark ++ rest) = true := (comment_iff _).mpr ⟨mark, marks, rest, rfl⟩
      have filled : mark ++ rest ≠ [] := by
        intro empty
        rw [empty] at marked
        cases marked
      rw [read?, if_neg filled, if_pos marked]
  | charset word gap rest named first starts clean =>
      obtain ⟨notComment, filled⟩ := names_percent _ word (gap ++ rest) named
      have found := (directive_iff _ _ rest).mpr ⟨word, gap, named, first.1, first.2, rfl, starts, clean⟩
      rw [read?, if_neg filled, if_neg (by simp [notComment]), charset?, found]
      rfl
  | blank word gap symbol named first visible =>
      obtain ⟨notComment, filled⟩ := names_percent _ word (gap ++ [symbol]) named
      have solid : Solid [symbol] := by simpa [Solid] using visible
      have tidy := Text.tidy_solid [symbol] solid (List.cons_ne_nil symbol [])
      have found := (directive_iff _ _ [symbol]).mpr
        ⟨word, gap, named, first.1, first.2, rfl, tidy.first, Text.tidy_no_feed [symbol] tidy⟩
      have notCharset := directive_other 'b' 'c' _ ['h', 'a', 'r', 's', 'e',
        't'] word (gap ++ [symbol]) named (by decide)
      rw [read?, if_neg filled, if_neg (by simp [notComment]), charset?, notCharset, blank?, found]
      rfl
  | memory word gap rest named first starts clean =>
      obtain ⟨notComment, filled⟩ := names_percent _ word (gap ++ rest) named
      have found := (directive_iff _ _ rest).mpr ⟨word, gap, named, first.1, first.2, rfl, starts, clean⟩
      have notCharset := directive_other 'm' 'c' _ ['h', 'a', 'r', 's', 'e', 't'] word (gap ++ rest) named (by decide)
      have notBlank := directive_other 'm' 'b' _ ['l', 'a', 'n', 'k'] word (gap ++ rest) named (by decide)
      rw [read?, if_neg filled, if_neg (by simp [notComment]), charset?, notCharset, blank?, notBlank, memory?, found]
      rfl
  | state t id isStart acceptance form =>
      obtain ⟨marker, gap, tag, marks, number, isGap, tags⟩ := form
      have read := (state_iff _ _).mpr ⟨isStart, id, acceptance, .mk marker gap tag marks number isGap tags, rfl⟩
      rw [read_plain _ (marker_starts_plain isStart marker id (gap ++ tag) marks number), read]
      rfl
  | transition t source inputs target output action form =>
      have read := transition_form_read t source inputs output action target form
      obtain ⟨gap₁, gap₂, gap₃, gap₄, gap₅, letter, isSource, first, reads, second, third, writes, fourth,
        moves, fifth, isTarget⟩ := form
      have starts := Text.starts_solid_of_solid inputs reads.2 reads.1
      have noState :=
        state_none source gap₁ (inputs ++ behindInputs gap₂ gap₃ gap₄ gap₅ output letter target) isSource first
        (Text.starts_solid_append inputs _ starts) (by simp [behindInputs]; omega)
      rw [read_plain _ (digits_start_plain source _ isSource), noState, read]
      rfl

theorem read_iff (t : Text) (line : Line) : read? t = some line ↔ Form t line := ⟨read_form t line, form_read t line⟩

theorem form_unique (t : Text) (line other : Line) (first : Form t line) (second : Form t other) : line = other := by
  have same := ((read_iff t line).mpr first).symm.trans ((read_iff t other).mpr second)
  exact Option.some.inj same

end TapeMachine.Line
