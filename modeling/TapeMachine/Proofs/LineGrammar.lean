import TapeMachine.Proofs.LinePatterns
import TapeMachine.Proofs.PrintedLines

set_option autoImplicit false

namespace TapeMachine.Line

open Text (Gap Solid Digits StartsSolid Tidy)
open Pattern (many many_first named_first both_first Stops run_cut)

open Kind

section Parting

variable (t : Text)

theorem tag_reads (tag : Option CodePoint) (tags : ∀ c ∈ tag, isTag c = true) :
    ∃ acceptance, acceptance? tag.toList = some acceptance := by
  cases tag with
  | none => exact ⟨.none, rfl⟩
  | some c =>
      have known := tags c rfl
      simp only [isTag, isLetter, Bool.or_eq_true, decide_eq_true_eq] at known
      rw [Option.toList_some, acceptance?]
      split
      · exact ⟨_, rfl⟩
      · rename_i other
        rw [if_pos (known.resolve_left other)]
        exact ⟨_, rfl⟩

theorem move_reads (letter : CodePoint) (moves : isMove letter = true) : ∃ action, action? letter = some action := by
  simp only [isMove, isLetter, isSign, Bool.or_eq_true, decide_eq_true_eq] at moves
  rw [action?]
  split
  · exact ⟨_, rfl⟩
  · rename_i left
    split
    · exact ⟨_, rfl⟩
    · rename_i right
      rw [if_pos (moves.resolve_left (not_or.mpr ⟨left, right⟩))]
      exact ⟨_, rfl⟩

theorem acceptance_tag (t : Text) (acceptance : Acceptance) (read : acceptance? t = some acceptance) :
    ∃ tag : Option CodePoint, (∀ c ∈ tag, isTag c = true) ∧ t = tag.toList := by
  match t with
  | [] => exact ⟨none, by simp, rfl⟩
  | [c] =>
      refine ⟨some c, ?_, rfl⟩
      rintro _ ⟨⟩
      by_contra other
      simp only [isTag, isLetter, Bool.or_eq_true, decide_eq_true_eq, not_or] at other
      simp [acceptance?, other] at read
  | _ :: _ :: _ => cases read

theorem action_letter (letter : CodePoint) (action : Action) (read : action? letter = some action) :
    isMove letter = true := by
  by_contra other
  simp only [isMove, isLetter, isSign, Bool.or_eq_true, decide_eq_true_eq, not_or] at other
  simp [action?, other] at read

theorem solid_stops (c : CodePoint) (rest : Text) (visible : c.isBlank = false) :
    Stops CodePoint.isBlank (c :: rest) := by
  rintro _ _ ⟨⟩
  exact visible

theorem digits_stop (kind : CodePoint → Bool) (id rest : Text) (number : Digits id)
    (other : ∀ c, c.isDigit = true → kind c = false) :
    Stops kind (id ++ rest) := by
  obtain ⟨d, ds, rfl⟩ := List.exists_cons_of_ne_nil number.1
  rintro _ _ ⟨⟩
  exact other d (number.2 d List.mem_cons_self)

theorem tag_stops (tag : Option CodePoint) (tags : ∀ c ∈ tag, isTag c = true) :
    Stops CodePoint.isBlank tag.toList ∧ Stops CodePoint.isDigit tag.toList := by
  obtain ⟨acceptance, read⟩ := tag_reads tag tags
  have kind := acceptance_kind tag.toList acceptance read
  exact ⟨fun c rest shape => (kind c (by rw [shape]; exact List.mem_cons_self)).1,
    fun c rest shape => (kind c (by rw [shape]; exact List.mem_cons_self)).2⟩

theorem gap_stops (gap rest : Text) (isGap : Gap gap) (stops : Stops CodePoint.isDigit rest) :
    Stops CodePoint.isDigit (gap ++ rest) := by
  by_cases empty : gap = []
  · rw [empty]
    exact stops
  · exact gap_stops_digits gap rest isGap empty

def marks (c : CodePoint) : Bool := isSign '>' c || c.isBlank

theorem marker_marks (start : Option Text) (isMarker : ∀ marker ∈ start, Marker true marker) :
    ∀ c ∈ start.getD [], marks c = true := by
  cases start with
  | none => exact List.forall_mem_nil _
  | some marker =>
      obtain ⟨gap, isGap, rfl⟩ := isMarker marker rfl
      refine List.forall_mem_cons.mpr ⟨by decide, fun c mem => ?_⟩
      rw [marks, isGap c mem, Bool.or_true]

theorem digit_no_mark (c : CodePoint) (digit : c.isDigit = true) : marks c = false := by
  rw [marks, Text.digit_solid c digit, Bool.or_false, isSign, decide_eq_false_iff_not]
  rintro rfl
  exact absurd digit (by decide)

theorem marker_told (start start' : Option Text) (isMarker : ∀ marker ∈ start, Marker true marker)
    (isMarker' : ∀ marker ∈ start', Marker true marker) (same : start.getD [] = start'.getD []) : start = start' := by
  cases start with
  | none =>
      cases start' with
      | none => rfl
      | some marker =>
          obtain ⟨gap, _, rfl⟩ := isMarker' marker rfl
          cases same
  | some marker =>
      cases start' with
      | none =>
          obtain ⟨gap, _, rfl⟩ := isMarker marker rfl
          cases same
      | some marker' => exact congrArg some same

theorem state_text_unique (start start' : Option Text) (id id' : Text) (tag tag' : Option CodePoint)
    (first : StateText start id tag t) (second : StateText start' id' tag' t) :
    start = start' ∧ id = id' ∧ tag = tag' := by
  obtain ⟨gap, isMarker, number, isGap, tags⟩ := first
  generalize same : start.getD [] ++ (id ++ (gap ++ tag.toList)) = t at second
  obtain ⟨gap', isMarker', number', isGap', tags'⟩ := second
  obtain ⟨marker, same⟩ := run_cut marks _ _ (marker_marks start isMarker)
    (digits_stop marks id _ number digit_no_mark) _ _
    (marker_marks start' isMarker') (digits_stop marks id' _ number' digit_no_mark) same
  obtain ⟨sameId, same⟩ := run_cut CodePoint.isDigit _ _ number.2 (gap_stops gap _ isGap (tag_stops tag tags).2) _ _
    number'.2 (gap_stops gap' _ isGap' (tag_stops tag' tags').2) same
  obtain ⟨_, sameTag⟩ := run_cut CodePoint.isBlank _ _ isGap (tag_stops tag tags).1 _ _ isGap'
    (tag_stops tag' tags').1 same
  exact ⟨marker_told start start' isMarker isMarker' marker, sameId, by simpa using congrArg List.head? sameTag⟩

theorem state_text_form (start : Option Text) (id : Text) (tag : Option CodePoint) (text : StateText start id tag t) :
    ∃ acceptance, acceptance? tag.toList = some acceptance ∧ StateForm start.isSome id acceptance t := by
  obtain ⟨gap, marks, number, isGap, tags⟩ := text
  obtain ⟨acceptance, read⟩ := tag_reads tag tags
  have marked : Marker start.isSome (start.getD []) := by
    cases start with
    | none => rfl
    | some marker => exact marks marker rfl
  exact ⟨acceptance, read, .mk _ gap _ marked number isGap read⟩

theorem transition_text_form (source inputs : Text) (output letter : CodePoint) (target : Text)
    (text : TransitionText source inputs output letter target t) :
    ∃ action, action? letter = some action ∧ TransitionForm source inputs output action target t := by
  obtain ⟨gap₁, gap₂, gap₃, gap₄, gap₅, isSource, first, reads, second, third, writes, fourth, moves,
    fifth, isTarget⟩ := text
  obtain ⟨action, read⟩ := move_reads letter moves
  exact ⟨action, read,
    .mk gap₁ gap₂ gap₃ gap₄ gap₅ letter isSource first reads second third writes fourth read fifth isTarget⟩

theorem state_form_text (isStart : Bool) (id : Text) (acceptance : Acceptance)
    (form : StateForm isStart id acceptance t) :
    ∃ start tag, StateText start id tag t := by
  obtain ⟨marker, gap, tag, marks, number, isGap, tags⟩ := form
  obtain ⟨tag, known, rfl⟩ := acceptance_tag tag acceptance tags
  cases isStart with
  | false =>
      obtain rfl : marker = [] := marks
      exact ⟨none, tag, .mk gap (by simp) number isGap known⟩
  | true =>
      refine ⟨some marker, tag, .mk gap ?_ number isGap known⟩
      rintro _ ⟨⟩
      exact marks

theorem transition_form_text (source inputs : Text) (output : CodePoint) (action : Action) (target : Text)
    (form : TransitionForm source inputs output action target t) :
    ∃ letter, TransitionText source inputs output letter target t := by
  obtain ⟨gap₁, gap₂, gap₃, gap₄, gap₅, letter, isSource, first, reads, second, third, writes, fourth,
    moves, fifth, isTarget⟩ := form
  exact ⟨letter, .mk gap₁ gap₂ gap₃ gap₄ gap₅ isSource first reads second third writes fourth
    (action_letter letter action moves)
    fifth isTarget⟩

theorem transition_text_back (source inputs : Text) (output letter : CodePoint) (target : Text)
    (text : TransitionText source inputs output letter target t) :
    ∃ gap front, Gap gap ∧ t.reverse = target.reverse ++ (gap ++ letter :: front) := by
  obtain ⟨gap₁, gap₂, gap₃, gap₄, gap₅, _, _, _, _, _, _, _, _, fifth, _⟩ := text
  let arrow : Text := "->"
  refine ⟨gap₅.reverse, (source ++ (gap₁ ++ (inputs ++ (gap₂ ++ (arrow ++ (gap₃ ++ (output :: gap₄))))))).reverse,
    Text.gap_reverse gap₅ fifth.2, ?_⟩
  simp [behindInputs, arrow, Text.ofString]

theorem transition_text_unique (source source' inputs inputs' : Text)
    (output output' letter letter' : CodePoint) (target target' : Text)
    (first : TransitionText source inputs output letter target t)
    (second : TransitionText source' inputs' output' letter' target' t) :
    source = source' ∧ inputs = inputs' ∧ output = output' ∧ letter = letter' ∧ target = target' := by
  obtain ⟨action, read, form⟩ := transition_text_form t source inputs output letter target first
  obtain ⟨action', read', form'⟩ := transition_text_form t source' inputs' output' letter' target' second
  have parts := (transition_form_read t _ _ _ _ _ form).symm.trans (transition_form_read t _ _ _ _ _ form')
  obtain ⟨rfl, rfl, rfl, _, rfl⟩ := Line.transition.inj (Option.some.inj parts)
  -- Two letters may stand for one move, so the letter is told by its place: in front of the last gap.
  obtain ⟨gap, front, isGap, back⟩ := transition_text_back t source inputs output letter target first
  obtain ⟨gap', front', isGap', back'⟩ := transition_text_back t source inputs output letter' target second
  have same := List.append_cancel_left (back.symm.trans back')
  obtain ⟨_, tail⟩ := run_cut CodePoint.isBlank gap _ isGap
    (solid_stops letter front (action_solid letter action read)) gap' _ isGap'
    (solid_stops letter' front' (action_solid letter' action' read')) same
  exact ⟨rfl, rfl, rfl, (List.cons_eq_cons.mp tail).1, rfl⟩

end Parting

def kind? : Line → Option Kind
  | .empty => none
  | .comment => some .comment
  | .charset _ => some .charset
  | .blank _ => some .blank
  | .memory _ => some .memory
  | .state _ _ _ => some .state
  | .transition _ _ _ _ _ => some .transition

theorem words_gap (gap rest : Text) (isGap : Gap gap) (starts : StartsSolid rest) :
    Text.words (gap ++ rest) = Text.words rest := by
  induction gap with
  | nil => rfl
  | cons c gap ih =>
      obtain ⟨blank, others⟩ := List.forall_mem_cons.mp isGap
      obtain ⟨d, tail, shape⟩ := List.exists_cons_of_ne_nil (show gap ++ rest ≠ [] by
        obtain ⟨d, tail, rfl, _⟩ := starts
        simp)
      rw [← ih others, List.cons_append, shape, Text.words, if_pos blank]

/-- What a line says whose pattern is this one, and in what way the parts tell it: all of it, but
for blanks in front of a memory. -/
structure Told (kind : Kind) (t : Text) (groups : Groups) (line : Line) : Prop where
  form : Form t line
  shape : kind? line = some kind
  said : kind ≠ .memory → kind.line? groups = some line
  memory : kind = .memory → ∃ gap word, Gap gap ∧ groups = [(.memory, gap ++ word)] ∧ line = .memory word

section Fitting

variable (t : Text) (groups : Groups)

theorem state_told (matched : Kind.state.pattern.Matches t groups) : ∃ line, Told .state t groups line := by
  obtain ⟨start, id, tag, text, rfl⟩ := (state_matches t groups).mp matched
  obtain ⟨acceptance, read, form⟩ := state_text_form t start id tag text
  refine ⟨_, .state t id start.isSome acceptance form, rfl, fun _ => ?_, fun absurdly => by cases absurdly⟩
  have tagged : ((stateGroups start id tag).lookup .acceptance).getD [] = tag.toList := by
    cases start <;> cases tag <;> rfl
  have marked : ((stateGroups start id tag).lookup .start).isSome = start.isSome := by cases start <;> cases tag <;> rfl
  have numbered : (stateGroups start id tag).lookup .id = some id := by cases start <;> rfl
  rw [Kind.line?, tagged, marked, numbered, read]
  rfl

theorem transition_told (matched : Kind.transition.pattern.Matches t groups) :
    ∃ line, Told .transition t groups line := by
  obtain ⟨source, inputs, output, letter, target, text, rfl⟩ := (transition_matches t groups).mp matched
  obtain ⟨action, read, form⟩ := transition_text_form t source inputs output letter target text
  refine ⟨_, .transition t source inputs target output action form, rfl, fun _ => ?_, fun absurdly => by cases absurdly⟩
  let groups := transitionGroups source inputs output letter target
  have written : groups.lookup .output = some [output] := rfl
  have moved : groups.lookup .action = some [letter] := rfl
  rw [Kind.line?, written, moved]
  simp only [Option.bind_eq_bind, Option.bind_some, read]
  rfl

variable (ends : StartsSolid t.reverse)

include ends

theorem fits_told (kind : Kind) (fits : kind.Fits t groups) : ∃ line, Told kind t groups line := by
  cases kind with
  | comment =>
      obtain ⟨taken, rest, rfl, matched, _⟩ := fits
      obtain ⟨marks, rfl⟩ := (comment_matches taken groups).mp matched
      exact ⟨.comment, .comment taken rest marks, rfl, fun _ => rfl, fun absurdly => by cases absurdly⟩
  | charset =>
      obtain ⟨front, gap, before, rest, named, isGap, isBefore, starts, clean, rfl, rfl⟩ :=
        (listing_matches _ _ t groups ends).mp ((fits_iff _ t groups (by decide) ends).mp fits)
      have form := Form.charset front (gap ++ before) rest named
        ⟨by simp [isGap.1], List.forall_mem_append.mpr ⟨isGap.2, isBefore⟩⟩ starts fun mem =>
          clean (List.mem_append_right before mem)
      rw [List.append_assoc, ← words_gap before rest isBefore starts] at form
      exact ⟨_, form, rfl, fun _ => rfl, fun absurdly => by cases absurdly⟩
  | blank =>
      obtain ⟨front, gap, symbol, named, isGap, visible, rfl, rfl⟩ :=
        (blank_matches t groups).mp ((fits_iff _ t groups (by decide) ends).mp fits)
      exact ⟨.blank symbol, .blank front gap symbol named isGap visible, rfl, fun _ => rfl,
        fun absurdly => by cases absurdly⟩
  | memory =>
      obtain ⟨front, gap, before, rest, named, isGap, isBefore, starts, clean, rfl, rfl⟩ :=
        (listing_matches _ _ t groups ends).mp ((fits_iff _ t groups (by decide) ends).mp fits)
      have form := Form.memory front (gap ++ before) rest named
        ⟨by simp [isGap.1], List.forall_mem_append.mpr ⟨isGap.2, isBefore⟩⟩ starts fun mem =>
          clean (List.mem_append_right before mem)
      rw [List.append_assoc] at form
      exact ⟨.memory rest, form, rfl, fun absurdly => absurd rfl absurdly, fun _ => ⟨before, rest, isBefore, rfl, rfl⟩⟩
  | state => exact state_told t groups ((fits_iff _ t groups (by decide) ends).mp fits)
  | transition => exact transition_told t groups ((fits_iff _ t groups (by decide) ends).mp fits)

theorem fits_read (kind : Kind) (fits : kind.Fits t groups) : ∃ line, read? t = some line ∧ kind? line = some kind := by
  obtain ⟨line, told⟩ := fits_told t groups ends kind fits
  exact ⟨line, form_read t line told.form, told.shape⟩

theorem one_kind (others : Groups) (first second : Kind) (fits : first.Fits t groups)
    (also : second.Fits t others) : first = second := by
  obtain ⟨line, read, shape⟩ := fits_read t groups ends first fits
  obtain ⟨line', read', shape'⟩ := fits_read t others ends second also
  obtain rfl := Option.some.inj (read.symm.trans read')
  exact Option.some.inj (shape.symm.trans shape')

end Fitting

theorem form_fits (t : Text) (line : Line) (form : Form t line) (filled : t ≠ []) (ends : StartsSolid t.reverse) :
    ∃ kind : Kind, ∃ groups, kind.Fits t groups := by
  have whole (kind : Kind) (groups : Groups) (other : kind ≠ .comment) (matched : kind.pattern.Matches t groups) :
      ∃ kind : Kind, ∃ groups, kind.Fits t groups := ⟨kind, groups, (fits_iff kind t groups other ends).mpr matched⟩
  cases form with
  | empty => exact absurd rfl filled
  | comment mark rest marks => exact ⟨.comment, [], mark, rest, rfl, (comment_matches mark []).mpr ⟨marks, rfl⟩, rfl⟩
  | charset word gap rest named first starts clean =>
      exact whole .charset _ (by decide) <| (listing_matches _ _ _ _ ends).mpr
        ⟨word, gap, [], rest, named, first, List.forall_mem_nil _, starts, clean, rfl, rfl⟩
  | blank word gap symbol named first visible =>
      exact whole .blank _ (by decide) ((blank_matches _ _).mpr ⟨word, gap, symbol, named, first, visible, rfl, rfl⟩)
  | memory word gap rest named first starts clean =>
      exact whole .memory _ (by decide) <| (listing_matches _ _ _ _ ends).mpr
        ⟨word, gap, [], rest, named, first, List.forall_mem_nil _, starts, clean, rfl, rfl⟩
  | state t id isStart acceptance form =>
      obtain ⟨start, tag, text⟩ := state_form_text t isStart id acceptance form
      exact whole .state _ (by decide) ((state_matches t _).mpr ⟨start, id, tag, text, rfl⟩)
  | transition t source inputs target output action form =>
      obtain ⟨letter, text⟩ := transition_form_text t source inputs output action target form
      exact whole .transition _ (by decide)
        ((transition_matches t _).mpr ⟨source, inputs, output, letter, target, text, rfl⟩)

section Searching

variable (t : Text) (kind : Kind)

theorem first_fits (groups : Groups) (found : kind.first? t = some groups) : kind.Fits t groups := by
  obtain ⟨way, first, rfl⟩ := Option.map_eq_some_iff.mp found
  obtain ⟨whole, matched⟩ := (Pattern.ways_iff _ t way.taken way.rest way.groups).mp (List.mem_of_find?_eq_some first)
  exact ⟨way.taken, way.rest, whole, matched, List.find?_some (p := fun way : Way => kind.closes way.rest) first⟩

theorem fits_first (groups : Groups) (fits : kind.Fits t groups) : ∃ first, kind.first? t = some first := by
  obtain ⟨taken, rest, whole, matched, closed⟩ := fits
  have mem := (Pattern.ways_iff _ t taken rest groups).mpr ⟨whole, matched⟩
  have some : ((kind.pattern.ways t).find? fun way => kind.closes way.rest).isSome :=
    List.find?_isSome.mpr ⟨_, mem, closed⟩
  obtain ⟨way, found⟩ := Option.isSome_iff_exists.mp some
  exact ⟨way.groups, by rw [Kind.first?, found]; rfl⟩

theorem memory_first (front gap rest : Text) (named : Names ['%', 'm', 'e', 'm', 'o', 'r', 'y'] front)
    (isGap : gap ≠ [] ∧ Gap gap)
    (starts : StartsSolid rest) (clean : CodePoint.ofChar '\n' ∉ rest) :
    Kind.memory.first? (front ++ (gap ++ rest)) = some [(.memory, rest)] := by
  obtain ⟨c, tail, rfl, visible⟩ := starts
  have named := word_first '%' ['m', 'e', 'm', 'o', 'r', 'y'] front (gap ++ c :: tail) named
  have gapped := many_first CodePoint.isBlank gap (c :: tail) isGap.2 (solid_stops c tail visible) isGap.1
  have valued := many_first isInline (c :: tail) [] ((inline_iff _).mpr clean)
    (fun _ _ none => by cases none) (List.cons_ne_nil c tail)
  rw [List.append_nil] at valued
  obtain ⟨others, first⟩ := both_first _ _ _ _ _ _ _ _ _ named <| both_first _ _ _ _ _ _ _ _ _ gapped <|
    named_first _ _ _ _ .memory _ valued
  rw [Kind.first?, Kind.pattern, directive, first]
  rfl

variable (ends : StartsSolid t.reverse)

include ends

theorem first_line (groups : Groups) (found : kind.first? t = some groups) : kind.line? groups = read? t := by
  obtain ⟨line, told⟩ := fits_told t groups ends kind (first_fits t kind groups found)
  rw [form_read t line told.form]
  by_cases isMemory : kind = .memory
  · obtain ⟨_, word, _, _, rfl⟩ := told.memory isMemory
    subst isMemory
    cases told.form with
    | memory front gap rest named isGap starts clean =>
        obtain rfl := Option.some.inj (found.symm.trans (memory_first front gap word named isGap starts clean))
        rfl
  · exact told.said isMemory

theorem order_read (order : List Kind) (every : ∀ kind, kind ∈ order) (filled : t ≠ []) : readBy order t = read? t := by
  have sound (kind : Kind) (line : Line) (said : (kind.first? t >>= fun groups => kind.line? groups) = some line) :
      read? t = some line := by
    obtain ⟨groups, found, told⟩ := Option.bind_eq_some_iff.mp said
    rw [← first_line t kind ends groups found, told]
  cases read : readBy order t with
  | some line =>
      obtain ⟨kind, _, said⟩ := List.exists_of_findSome?_eq_some read
      exact (sound kind line said).symm
  | none =>
      cases meant : read? t with
      | none => rfl
      | some line =>
          obtain ⟨kind, groups, fits⟩ := form_fits t line (read_form t line meant) filled ends
          obtain ⟨first, found⟩ := fits_first t kind groups fits
          have silent := List.findSome?_eq_none_iff.mp read kind (every kind)
          rw [found, Option.bind_eq_bind, Option.bind_some, first_line t kind ends first found, meant] at silent
          cases silent

end Searching

section Printed

variable (source word : Text) (output letter : CodePoint) (target : Text)

def printed : Text := source ++ " " ++ word ++ " -> " ++ [output] ++ " " ++ [letter] ++ " " ++ target

variable (isSource : Digits source) (filled : word ≠ []) (solid : Solid word) (writes : output.isBlank = false)
  (moves : isMove letter = true) (isTarget : Digits target)

include isSource filled solid writes moves isTarget

theorem printed_text : TransitionText source word output letter target (printed source word output letter target) := by
  rw [printed, printed_parts]
  exact .mk " " " " " " " " " " isSource single_space ⟨filled,
    solid⟩ single_space_gap single_space_gap writes single_space moves
    single_space isTarget

theorem printed_tidy : Tidy (printed source word output letter target) := by
  obtain ⟨action, read⟩ := move_reads letter moves
  exact tidy_transition source word target output letter isSource filled solid writes
    (action_solid letter action read) isTarget

theorem printed_fits (kind : Kind) (groups : Groups) : kind.Fits (printed source word output letter target) groups ↔
    kind = .transition ∧ groups = transitionGroups source word output letter target := by
  have text := printed_text source word output letter target isSource filled solid writes moves isTarget
  have ends := (printed_tidy source word output letter target isSource filled solid writes moves isTarget).last
  have whole (groups : Groups) := fits_iff .transition _ groups (by decide) ends
  have here := (whole _).mpr ((transition_matches _ _).mpr ⟨source, word, output, letter, target, text, rfl⟩)
  constructor
  · intro fits
    obtain rfl := one_kind _ groups ends _ kind .transition fits here
    obtain ⟨source', word', output', letter', target', text', rfl⟩ :=
      (transition_matches _ groups).mp ((whole groups).mp fits)
    obtain ⟨rfl, rfl, rfl, rfl, rfl⟩ := transition_text_unique _ _ _ _ _ _ _ _ _ _ _ text text'
    exact ⟨rfl, rfl⟩
  · rintro ⟨rfl, rfl⟩
    exact here

theorem printed_read : ∃ action, action? letter = some action ∧
    read? (printed source word output letter target) = some (.transition source word output action target) := by
  have text := printed_text source word output letter target isSource filled solid writes moves isTarget
  obtain ⟨action, read, form⟩ := transition_text_form _ source word output letter target text
  exact ⟨action, read, form_read _ _ (.transition _ source word target output action form)⟩

end Printed

/-- No two patterns fit a line, a state or a transition is matched with one choice of parts only,
and the line is read alike whichever way; only blanks in front of a memory may be cut in several
ways, and those are not part of it. -/
structure Unambiguous (t : Text) : Prop where
  exclusive (first second : Kind) (groups others : Groups) : first.Fits t groups → second.Fits t others → first = second
  whole (kind : Kind) (groups : Groups) : kind ≠ .comment → (kind.Fits t groups ↔ kind.pattern.Matches t groups)
  state (groups others : Groups) : Kind.state.Fits t groups → Kind.state.Fits t others → groups = others
  transition (groups others : Groups) : Kind.transition.Fits t groups → Kind.transition.Fits t others → groups = others
  order (order : List Kind) : (∀ kind, kind ∈ order) → readBy order t = read? t
  ways (kind : Kind) (groups : Groups) : kind ≠ .memory → kind.Fits t groups → kind.line? groups = read? t
  memory (groups : Groups) : Kind.memory.Fits t groups →
    ∃ gap word, Gap gap ∧ groups = [(.memory, gap ++ word)] ∧ read? t = some (.memory word)

structure PrintedAlone (source word : Text) (output letter : CodePoint) (target : Text) : Prop where
  trimmed : trimmed (printed source word output letter target) = printed source word output letter target
  fits (kind : Kind) (groups : Groups) : kind.Fits (printed source word output letter target) groups ↔
    kind = .transition ∧ groups = transitionGroups source word output letter target
  read : ∃ action, action? letter = some action ∧
    read? (printed source word output letter target) = some (.transition source word output action target)

theorem stripped_unambiguous (t : Text) (stripped : Text.trim t = t) (filled : t ≠ []) : Unambiguous t := by
  have ends := stripped_ends t stripped filled
  refine ⟨?exclusive, fun kind groups other => fits_iff kind t groups other ends, ?state, ?transition,
    fun order every => order_read t ends order every filled, ?ways, ?memory⟩
  case exclusive =>
    intro first second groups others fits also
    exact one_kind t groups ends others first second fits also
  case state =>
    intro groups others fits also
    obtain ⟨start, id, tag, text, rfl⟩ := (state_matches t groups).mp ((fits_iff _ t groups (by decide) ends).mp fits)
    obtain ⟨start', id', tag', text', rfl⟩ :=
      (state_matches t others).mp ((fits_iff _ t others (by decide) ends).mp also)
    obtain ⟨rfl, rfl, rfl⟩ := state_text_unique t start start' id id' tag tag' text text'
    rfl
  case transition =>
    intro groups others fits also
    obtain ⟨_, _, _, _, _, text, rfl⟩ :=
      (transition_matches t groups).mp ((fits_iff _ t groups (by decide) ends).mp fits)
    obtain ⟨_, _, _, _, _, text', rfl⟩ :=
      (transition_matches t others).mp ((fits_iff _ t others (by decide) ends).mp also)
    obtain ⟨rfl, rfl, rfl, rfl, rfl⟩ := transition_text_unique t _ _ _ _ _ _ _ _ _ _ text text'
    rfl
  case ways =>
    intro kind groups other fits
    obtain ⟨line, told⟩ := fits_told t groups ends kind fits
    rw [told.said other, form_read t line told.form]
  case memory =>
    intro groups fits
    obtain ⟨line, told⟩ := fits_told t groups ends .memory fits
    obtain ⟨gap, word, isGap, shape, rfl⟩ := told.memory rfl
    exact ⟨gap, word, isGap, shape, form_read t _ told.form⟩

theorem printed_alone (source word : Text) (output letter : CodePoint) (target : Text)
    (isSource : Digits source) (filled : word ≠ [])
    (solid : Solid word) (writes : output.isBlank = false) (moves : isMove letter = true) (isTarget : Digits target) :
    PrintedAlone source word output letter target where
  trimmed := Text.tidy_trimmed _
    (printed_tidy source word output letter target isSource filled solid writes moves isTarget)
  fits := printed_fits source word output letter target isSource filled solid writes moves isTarget
  read := printed_read source word output letter target isSource filled solid writes moves isTarget

theorem line_grammar_is_unambiguous :
    (∀ t, Text.trim t = t → t ≠ [] → Unambiguous t) ∧
    (∀ source word output letter target, Digits source → word ≠ [] → Solid word → output.isBlank = false →
      isMove letter = true → Digits target → PrintedAlone source word output letter target) :=
  ⟨stripped_unambiguous, printed_alone⟩

theorem arrows_are_told_apart :
    (Text.trim "0 a->->- - 1" = "0 a->->- - 1" ∧ Unambiguous "0 a->->- - 1" ∧
      read? "0 a->->- - 1" = some (.transition "0" "a->" (CodePoint.ofChar '-') .stay "1")) ∧
    Solid "->" ∧ PrintedAlone "12" "->" (CodePoint.ofChar '>') (CodePoint.ofChar 'L') "3" := by
  have solid : Solid "->" := by unfold Solid; decide
  have source : Digits "12" := by unfold Digits; decide
  have target : Digits "3" := by unfold Digits; decide
  refine ⟨⟨by decide, line_grammar_is_unambiguous.1 _ (by decide) (by decide), by decide⟩, solid, ?_⟩
  exact line_grammar_is_unambiguous.2 _ _ _ _ _ source (by decide) solid (by decide) (by decide) target

end TapeMachine.Line
