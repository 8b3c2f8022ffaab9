import TapeMachine.Proofs.Pieces

set_option autoImplicit false

namespace TapeMachine.Line

open Text (Gap Solid Digits StartsSolid)

def Names (name : List Char) (word : Text) : Prop := word.map CodePoint.folded = name.map CodePoint.ofChar

def Marker : Bool → Text → Prop
  | false, marker => marker = []
  | true, marker => ∃ gap, Gap gap ∧ marker = CodePoint.ofChar '>' :: gap

theorem after_word_iff (name : List Char) (t rest : Text) :
    afterWord? name t = some rest ↔ ∃ word, Names name word ∧ t = word ++ rest := by
  induction name generalizing t with
  | nil =>
      simp only [afterWord?, Names, Option.some.injEq]
      constructor
      · rintro rfl
        exact ⟨[], rfl, rfl⟩
      · rintro ⟨word, empty, rfl⟩
        simp [List.map_eq_nil_iff.mp empty]
  | cons k ks ih =>
      cases t with
      | nil =>
          refine ⟨by simp [afterWord?], ?_⟩
          rintro ⟨word, named, split⟩
          obtain ⟨rfl, _⟩ := List.append_eq_nil_iff.mp split.symm
          simp [Names] at named
      | cons c t =>
          rw [afterWord?]
          constructor
          · intro found
            split at found
            · rename_i hit
              obtain ⟨word, named, rfl⟩ := (ih t).mp found
              exact ⟨c :: word, by simpa [Names, hit] using named, rfl⟩
            · simp at found
          · rintro ⟨word, named, split⟩
            cases word with
            | nil => simp [Names] at named
            | cons d word =>
                obtain ⟨rfl, rfl⟩ := List.cons_eq_cons.mp split
                obtain ⟨hit, named⟩ := List.cons_eq_cons.mp named
                rw [if_pos hit]
                exact (ih (word ++ rest)).mpr ⟨word, named, rfl⟩

theorem after_blanks_iff (t rest : Text) :
    afterBlanks? t = some rest ↔ ∃ gap, gap ≠ [] ∧ Gap gap ∧ t = gap ++ rest ∧ (rest = [] ∨ StartsSolid rest) := by
  constructor
  · intro found
    cases t with
    | nil => simp [afterBlanks?] at found
    | cons c t =>
        rw [afterBlanks?] at found
        split at found
        · rename_i blank
          obtain ⟨gap, isGap, split, kept⟩ := Text.drop_blanks_split t
          cases found
          refine ⟨c :: gap, by simp, ?_, by rw [List.cons_append, ← split], kept⟩
          simpa [Gap, blank] using isGap
        · simp at found
  · rintro ⟨gap, filled, isGap, rfl, kept⟩
    cases gap with
    | nil => exact absurd rfl filled
    | cons c gap =>
        have blank : c.isBlank = true := isGap c List.mem_cons_self
        have tail : Gap gap := fun d mem => isGap d (List.mem_cons_of_mem c mem)
        rw [List.cons_append, afterBlanks?, if_pos blank, Text.drop_blanks_gap gap rest tail]
        rcases kept with rfl | starts
        · rfl
        · rw [Text.drop_blanks_solid rest starts]

theorem directive_iff (name : List Char) (t rest : Text) :
    directive? name t = some rest ↔ ∃ word gap, Names name word ∧ gap ≠ [] ∧ Gap gap ∧ t = word ++ (gap ++ rest) ∧
      StartsSolid rest ∧ CodePoint.ofChar '\n' ∉ rest := by
  simp only [directive?, Option.bind_eq_bind, Option.bind_eq_some_iff, after_word_iff, after_blanks_iff]
  constructor
  · rintro ⟨found, ⟨_, ⟨word, named, rfl⟩, gap, filled, isGap, rfl, kept⟩, decided⟩
    split at decided
    · simp at decided
    · rename_i fits
      cases decided
      obtain ⟨nonempty, clean⟩ := not_or.mp fits
      exact ⟨word, gap, named, filled, isGap, rfl, kept.resolve_left nonempty, by simpa using clean⟩
  · rintro ⟨word, gap, named, filled, isGap, rfl, starts, clean⟩
    refine ⟨rest, ⟨_, ⟨word, named, rfl⟩, gap, filled, isGap, rfl, .inr starts⟩, ?_⟩
    obtain ⟨c, tail, rfl, _⟩ := starts
    rw [if_neg (by simpa using clean)]

theorem digits_iff (t digits rest : Text) :
    digits? t = some (digits, rest) ↔
      Digits digits ∧ t = digits ++ rest ∧ ∀ c tail, rest = c :: tail → c.isDigit = false := by
  constructor
  · intro found
    have split : t.takeWhile CodePoint.isDigit ++ t.dropWhile CodePoint.isDigit = t := List.takeWhile_append_dropWhile
    have all : ∀ c ∈ t.takeWhile CodePoint.isDigit, c.isDigit = true := List.all_eq_true.mp List.all_takeWhile
    rw [digits?] at found
    cases taken : t.takeWhile CodePoint.isDigit with
    | nil => simp [taken] at found
    | cons d ds =>
        simp only [taken, Option.some.injEq, Prod.mk.injEq] at found
        obtain ⟨rfl, rfl⟩ := found
        rw [taken] at split all
        refine ⟨⟨by simp, all⟩, split.symm, ?_⟩
        intro c tail shape
        have stop := List.head?_dropWhile_not CodePoint.isDigit t
        rw [shape] at stop
        simpa using stop
  · rintro ⟨⟨filled, all⟩, rfl, stop⟩
    have head : rest.takeWhile CodePoint.isDigit = [] := by
      cases rest with
      | nil => rfl
      | cons c tail => simp [stop c tail rfl]
    have kept : rest.dropWhile CodePoint.isDigit = rest := by
      cases rest with
      | nil => rfl
      | cons c tail => simp [stop c tail rfl]
    rw [digits?, List.takeWhile_append_of_pos all, List.dropWhile_append_of_pos all, head, kept, List.append_nil]
    cases digits with
    | nil => exact absurd rfl filled
    | cons d ds => rfl

theorem gap_stops_digits (gap rest : Text) (isGap : Gap gap) (filled : gap ≠ []) :
    ∀ c tail, gap ++ rest = c :: tail → c.isDigit = false := by
  intro c tail shape
  cases gap with
  | nil => exact absurd rfl filled
  | cons d gap =>
      obtain ⟨rfl, _⟩ := List.cons_eq_cons.mp shape
      by_contra digit
      have solid := Text.digit_solid d (by simpa using digit)
      have blank := isGap d List.mem_cons_self
      simp [solid] at blank

theorem letter_kind (c : CodePoint) (letter : c.folded.isBlank = false ∧ c.folded.isDigit = false) :
    c.isBlank = false ∧ c.isDigit = false := by
  constructor
  · by_contra blank
    have isBlank : c.isBlank = true := by simpa using blank
    rw [Text.folded_blank c isBlank] at letter
    exact blank letter.1
  · by_contra digit
    have isDigit : c.isDigit = true := by simpa using digit
    rw [Text.folded_digit c isDigit] at letter
    exact digit letter.2

theorem acceptance_kind (tag : Text) (a : Acceptance) (read : acceptance? tag = some a) :
    ∀ c ∈ tag, c.isBlank = false ∧ c.isDigit = false := by
  match tag, read with
  | [], _ => simp
  | [c], read =>
      intro d mem
      rw [List.mem_singleton.mp mem]
      apply letter_kind
      by_cases accepts : c.folded = CodePoint.ofChar 'a'
      · rw [accepts]
        decide
      · by_cases rejects : c.folded = CodePoint.ofChar 'r'
        · rw [rejects]
          decide
        · simp [acceptance?, accepts, rejects] at read
  | _ :: _ :: _, read => simp [acceptance?] at read

theorem action_solid (letter : CodePoint) (action : Action) (read : action? letter = some action) :
    letter.isBlank = false := by
  by_cases left : letter.folded = CodePoint.ofChar 'l'
  · exact (letter_kind letter (by rw [left]; decide)).1
  · by_cases right : letter.folded = CodePoint.ofChar 'r'
    · exact (letter_kind letter (by rw [right]; decide)).1
    · by_cases stay : letter = CodePoint.ofChar '-'
      · rw [stay]
        decide
      · simp [action?, left, right, stay] at read

theorem split_start_marker (t body : Text) (isStart : Bool) (split : splitStart t = (isStart, body)) :
    ∃ marker, Marker isStart marker ∧ t = marker ++ body := by
  cases t with
  | nil =>
      cases split
      exact ⟨[], rfl, rfl⟩
  | cons c t =>
      rw [splitStart] at split
      by_cases marked : c = CodePoint.ofChar '>'
      · rw [if_pos marked] at split
        cases split
        obtain ⟨gap, isGap, whole, _⟩ := Text.drop_blanks_split t
        exact ⟨c :: gap, ⟨gap, isGap, by rw [marked]⟩, by rw [List.cons_append, ← whole]⟩
      · rw [if_neg marked] at split
        cases split
        exact ⟨[], rfl, rfl⟩

theorem marker_split_start (marker digits rest : Text) (isStart : Bool) (marks : Marker isStart marker)
    (number : Digits digits) : splitStart (marker ++ (digits ++ rest)) = (isStart, digits ++ rest) := by
  have starts := Text.starts_solid_of_solid digits (Text.digits_solid digits number) number.1
  cases isStart with
  | false =>
      obtain ⟨d, ds, rfl, _⟩ := starts
      have unmarked : d ≠ CodePoint.ofChar '>' := by
        rintro rfl
        exact absurd (number.2 _ List.mem_cons_self) (by decide)
      obtain rfl : marker = [] := marks
      simp [splitStart, unmarked]
  | true =>
      obtain ⟨gap, isGap, rfl⟩ := marks
      rw [List.cons_append, splitStart, if_pos rfl, Text.drop_blanks_gap gap _ isGap,
        Text.drop_blanks_solid _ (Text.starts_solid_append digits rest starts)]

inductive StateForm (isStart : Bool) (id : Text) (acceptance : Acceptance) : Text → Prop where
  | mk (marker gap tag : Text) (marks : Marker isStart marker) (number : Digits id) (isGap : Gap gap)
      (tags : acceptance? tag = some acceptance) : StateForm isStart id acceptance (marker ++ (id ++ (gap ++ tag)))

theorem state_iff (t : Text) (line : Line) :
    state? t = some line ↔ ∃ isStart id acceptance, StateForm isStart id acceptance t ∧
      line = .state isStart id acceptance := by
  constructor
  · intro read
    cases split : splitStart t with
    | mk isStart body =>
        simp only [state?, split, Option.bind_eq_bind, Option.bind_eq_some_iff, Option.pure_def,
          Option.some.injEq] at read
        obtain ⟨⟨id, rest⟩, found, acceptance, tags, rfl⟩ := read
        obtain ⟨marker, marks, rfl⟩ := split_start_marker t body isStart split
        obtain ⟨number, rfl, _⟩ := (digits_iff body id rest).mp found
        obtain ⟨gap, isGap, whole, _⟩ := Text.drop_blanks_split rest
        have form := StateForm.mk marker gap (Text.dropBlanks rest) marks number isGap tags
        rw [← whole] at form
        exact ⟨isStart, id, acceptance, form, rfl⟩
  · rintro ⟨isStart, id, acceptance, ⟨marker, gap, tag, marks, number, isGap, tags⟩, rfl⟩
    have kind := acceptance_kind tag acceptance tags
    have stop : ∀ c tail, gap ++ tag = c :: tail → c.isDigit = false := by
      by_cases empty : gap = []
      · intro c tail shape
        rw [empty, List.nil_append] at shape
        exact (kind c (by rw [shape]; exact List.mem_cons_self)).2
      · exact gap_stops_digits gap tag isGap empty
    have found := (digits_iff (id ++ (gap ++ tag)) id (gap ++ tag)).mpr ⟨number, rfl, stop⟩
    have bare : Text.dropBlanks (gap ++ tag) = tag := by
      rw [Text.drop_blanks_gap gap tag isGap, Text.drop_blanks_of_solid tag fun c mem => (kind c mem).1]
    simp only [state?, marker_split_start marker id (gap ++ tag) isStart marks number, found, bare, tags,
      Option.bind_eq_bind, Option.bind_some, Option.pure_def]

theorem arrow_inputs_iff (reversed inputs : Text) :
    arrowInputs? reversed = some inputs ↔ ∃ after before, Gap after ∧ Gap before ∧ inputs ≠ [] ∧ Solid inputs ∧
      reversed = after ++ (CodePoint.ofChar '>' :: CodePoint.ofChar '-' :: (before ++ inputs.reverse)) := by
  constructor
  · intro read
    obtain ⟨after, isAfter, whole, _⟩ := Text.drop_blanks_split reversed
    rw [arrowInputs?] at read
    split at read
    · rename_i c d t shape
      rw [shape] at whole
      split at read
      · rename_i arrow
        obtain ⟨rfl, rfl⟩ := arrow
        obtain ⟨before, isBefore, inner, _⟩ := Text.drop_blanks_split t
        simp only [Option.ite_none_left_eq_some, not_or, Option.some.injEq] at read
        obtain ⟨⟨filled, solid⟩, rfl⟩ := read
        refine ⟨after, before, isAfter, isBefore, by simpa using filled, ?_, ?_⟩
        · apply Text.solid_reverse
          intro c mem
          simpa using fun blank : c.isBlank = true => solid (List.any_eq_true.mpr ⟨c, mem, blank⟩)
        · rw [List.reverse_reverse, ← inner, whole]
      · simp at read
    · simp at read
  · rintro ⟨after, before, isAfter, isBefore, filled, solid, rfl⟩
    have bar : (CodePoint.ofChar '>').isBlank = false := by decide
    have reversedSolid := Text.solid_reverse inputs solid
    have fits : ¬ (inputs.reverse = [] ∨ inputs.reverse.any CodePoint.isBlank = true) := by
      rw [not_or]
      refine ⟨by simpa using filled, ?_⟩
      intro blank
      obtain ⟨c, mem, isBlank⟩ := List.any_eq_true.mp blank
      simp [reversedSolid c mem] at isBlank
    rw [arrowInputs?, Text.drop_blanks_gap after _ isAfter, Text.drop_blanks_solid _ ⟨_, _, rfl, bar⟩]
    simp only [and_self, if_true, Text.drop_blanks_gap before _ isBefore,
      Text.drop_blanks_of_solid _ reversedSolid, if_neg fits,
      List.reverse_reverse]

theorem single_iff (t rest : Text) (c : CodePoint) :
    single? t = some (c, rest) ↔
      ∃ gap, gap ≠ [] ∧ Gap gap ∧ t = c :: (gap ++ rest) ∧ (rest = [] ∨ StartsSolid rest) := by
  cases t with
  | nil => simp [single?]
  | cons d t =>
      simp only [single?, Option.map_eq_some_iff, after_blanks_iff]
      constructor
      · rintro ⟨_, ⟨gap, filled, isGap, rfl, kept⟩, same⟩
        cases same
        exact ⟨gap, filled, isGap, rfl, kept⟩
      · rintro ⟨gap, filled, isGap, shape, kept⟩
        obtain ⟨rfl, rfl⟩ := List.cons_eq_cons.mp shape
        exact ⟨rest, ⟨gap, filled, isGap, rfl, kept⟩, rfl⟩

theorem digits_before_gap (digits gap rest : Text) (number : Digits digits) (filled : gap ≠ [] ∧ Gap gap) :
    digits? (digits ++ (gap ++ rest)) = some (digits, gap ++ rest) :=
  (digits_iff _ digits _).mpr ⟨number, rfl, gap_stops_digits gap rest filled.2 filled.1⟩

theorem after_gap (gap rest : Text) (filled : gap ≠ [] ∧ Gap gap) (starts : StartsSolid rest) :
    afterBlanks? (gap ++ rest) = some rest :=
  (after_blanks_iff _ rest).mpr ⟨gap, filled.1, filled.2, rfl, .inr starts⟩

theorem single_before_gap (c : CodePoint) (gap rest : Text) (filled : gap ≠ [] ∧ Gap gap) (starts : StartsSolid rest) :
    single? (c :: (gap ++ rest)) = some (c, rest) :=
  (single_iff _ rest c).mpr ⟨gap, filled.1, filled.2, rfl, .inr starts⟩

def behindInputs (gap₂ gap₃ gap₄ gap₅ : Text) (output letter : CodePoint) (target : Text) : Text :=
  gap₂ ++ (CodePoint.ofChar '-' :: CodePoint.ofChar '>' :: (gap₃ ++ (output :: (gap₄ ++ (letter :: (gap₅ ++ target))))))

inductive TransitionForm (source inputs : Text) (output : CodePoint) (action : Action)
    (target : Text) : Text → Prop where
  | mk (gap₁ gap₂ gap₃ gap₄ gap₅ : Text) (letter : CodePoint) (isSource : Digits source)
      (first : gap₁ ≠ [] ∧ Gap gap₁) (reads : inputs ≠ [] ∧ Solid inputs) (second : Gap gap₂) (third : Gap gap₃)
      (writes : output.isBlank = false) (fourth : gap₄ ≠ [] ∧ Gap gap₄) (moves : action? letter = some action)
      (fifth : gap₅ ≠ [] ∧ Gap gap₅) (isTarget : Digits target) :
      TransitionForm source inputs output action target
        (source ++ (gap₁ ++ (inputs ++ behindInputs gap₂ gap₃ gap₄ gap₅ output letter target)))

theorem gap_reversed (gap : Text) (filled : gap ≠ [] ∧ Gap gap) : gap.reverse ≠ [] ∧ Gap gap.reverse :=
  ⟨by simpa using filled.1, Text.gap_reverse gap filled.2⟩

theorem behind_inputs_reversed (inputs gap₂ gap₃ gap₄ gap₅ : Text) (output letter : CodePoint) (target : Text) :
    (inputs ++ behindInputs gap₂ gap₃ gap₄ gap₅ output letter target).reverse =
      target.reverse ++ (gap₅.reverse ++ (letter :: (gap₄.reverse ++ (output :: (gap₃.reverse ++
        (CodePoint.ofChar '>' :: CodePoint.ofChar '-' :: (gap₂.reverse ++ inputs.reverse))))))) := by
  simp [behindInputs]

theorem transition_read_form (t : Text) (line : Line) (read : transition? t = some line) :
    ∃ source inputs output action target,
      TransitionForm source inputs output action target t ∧ line = .transition source inputs output action target := by
  simp only [transition?, Option.bind_eq_bind, Option.bind_eq_some_iff, Prod.exists] at read
  obtain ⟨source, rest, sourced, body, bodied, reversedTarget, rest', targeted, letter, rest'',
    ⟨lettered, gapped, single⟩,
    action, moves, read⟩ := read
  obtain ⟨isSource, rfl, _⟩ := (digits_iff t source rest).mp sourced
  obtain ⟨gap₁, filled₁, isGap₁, rfl, _⟩ := (after_blanks_iff rest body).mp bodied
  obtain ⟨isTarget, tail, _⟩ := (digits_iff body.reverse reversedTarget rest').mp targeted
  obtain ⟨gap₅, filled₅, isGap₅, rfl, _⟩ := (after_blanks_iff rest' lettered).mp gapped
  obtain ⟨gap₄, filled₄, isGap₄, rfl, kept⟩ := (single_iff lettered rest'' letter).mp single
  cases rest'' with
  | nil => simp at read
  | cons output reversed =>
      simp only [Option.bind_eq_some_iff, Option.pure_def, Option.some.injEq] at read
      obtain ⟨inputs, arrowed, rfl⟩ := read
      obtain ⟨gap₃, gap₂, isGap₃, isGap₂, filled, solid, rfl⟩ := (arrow_inputs_iff reversed inputs).mp arrowed
      have visible : output.isBlank = false := by
        obtain ⟨c, front, shape, visible⟩ := kept.resolve_left (by simp)
        obtain ⟨rfl, _⟩ := List.cons_eq_cons.mp shape
        exact visible
      have whole : body = inputs ++
          behindInputs gap₂.reverse gap₃.reverse gap₄.reverse gap₅.reverse output letter reversedTarget.reverse := by
        rw [← List.reverse_reverse body, tail, ← List.reverse_inj, behind_inputs_reversed]
        simp
      refine ⟨source, inputs, output, action, reversedTarget.reverse, ?_, rfl⟩
      rw [whole]
      exact .mk gap₁ gap₂.reverse gap₃.reverse gap₄.reverse gap₅.reverse letter isSource ⟨filled₁,
        isGap₁⟩ ⟨filled, solid⟩
        (Text.gap_reverse gap₂ isGap₂) (Text.gap_reverse gap₃ isGap₃) visible
          (gap_reversed gap₄ ⟨filled₄, isGap₄⟩) moves
        (gap_reversed gap₅ ⟨filled₅, isGap₅⟩) (Text.digits_reverse reversedTarget isTarget)

theorem transition_form_read (t source inputs : Text) (output : CodePoint) (action : Action) (target : Text)
    (form : TransitionForm source inputs output action target t) :
    transition? t = some (.transition source inputs output action target) := by
  obtain ⟨gap₁, gap₂, gap₃, gap₄, gap₅, letter, isSource, first, reads, second, third, writes, fourth,
    moves, fifth, isTarget⟩ := form
  have starts := Text.starts_solid_of_solid inputs reads.2 reads.1
  have arrowed := (arrow_inputs_iff _ inputs).mpr ⟨gap₃.reverse, gap₂.reverse, Text.gap_reverse gap₃ third,
    Text.gap_reverse gap₂ second, reads.1, reads.2, rfl⟩
  simp only [transition?, Option.bind_eq_bind, Option.bind_some, behind_inputs_reversed,
    digits_before_gap source gap₁ _ isSource first,
    after_gap gap₁ _ first (Text.starts_solid_append inputs _ starts),
    digits_before_gap target.reverse gap₅.reverse _ (Text.digits_reverse target isTarget) (gap_reversed gap₅ fifth),
    after_gap gap₅.reverse _ (gap_reversed gap₅ fifth) ⟨letter, _, rfl, action_solid letter action moves⟩,
    single_before_gap letter gap₄.reverse _ (gap_reversed gap₄ fourth) ⟨output, _, rfl, writes⟩,
    moves, arrowed, List.reverse_reverse, Option.pure_def]

theorem transition_iff (t : Text) (line : Line) :
    transition? t = some line ↔ ∃ source inputs output action target,
      TransitionForm source inputs output action target t ∧ line = .transition source inputs output action target := by
  constructor
  · exact transition_read_form t line
  · rintro ⟨source, inputs, output, action, target, form, rfl⟩
    exact transition_form_read t source inputs output action target form

theorem comment_iff (t : Text) : isComment t = true ↔ ∃ mark ∈
    ([";", "//", "--"] : List Text), ∃ rest, t = mark ++ rest := by
  match t with
  | [] => simp [isComment, Text.ofString]
  | [c] => simp [isComment, Text.ofString]
  | c :: d :: t => simp [isComment, Text.ofString, or_and_right, exists_or]

/-- The forms of a trimmed line, put together from their parts; a charset line declares the first
symbols of its words. -/
inductive Form : Text → Line → Prop where
  | empty : Form [] .empty
  | comment (mark rest : Text) (marks : mark ∈ ([";", "//", "--"] : List Text)) : Form (mark ++ rest) .comment
  | charset (word gap rest : Text) (named : Names ['%', 'c', 'h', 'a', 'r', 's', 'e', 't'] word)
      (first : gap ≠ [] ∧ Gap gap)
      (starts : StartsSolid rest) (clean : CodePoint.ofChar '\n' ∉ rest) :
      Form (word ++ (gap ++ rest)) (.charset ((Text.words rest).filterMap List.head?))
  | blank (word gap : Text) (symbol : CodePoint) (named : Names ['%', 'b', 'l', 'a', 'n', 'k'] word)
      (first : gap ≠ [] ∧ Gap gap)
      (visible : symbol.isBlank = false) : Form (word ++ (gap ++ [symbol])) (.blank symbol)
  | memory (word gap rest : Text) (named : Names ['%', 'm', 'e', 'm', 'o', 'r', 'y'] word) (first : gap ≠ [] ∧ Gap gap)
      (starts : StartsSolid rest) (clean : CodePoint.ofChar '\n' ∉ rest) : Form (word ++ (gap ++ rest)) (.memory rest)
  | state (t id : Text) (isStart : Bool) (acceptance : Acceptance) (form : StateForm isStart id acceptance t) :
      Form t (.state isStart id acceptance)
  | transition (t source inputs target : Text) (output : CodePoint) (action : Action)
      (form : TransitionForm source inputs output action target t) :
          Form t (.transition source inputs output action target)

end TapeMachine.Line
