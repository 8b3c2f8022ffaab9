import TapeMachine.Definition.LinePattern
import TapeMachine.Proofs.LineReading
import TapeMachine.Proofs.Patterns

set_option autoImplicit false

namespace TapeMachine.Line

open Text (Gap Solid Digits StartsSolid)
open Pattern (many word many_matches named_many_matches named_one_matches both_intro both_first)

open Kind

theorem stripped_ends (t : Text) (stripped : Text.trim t = t) (filled : t ≠ []) : StartsSolid t.reverse := by
  obtain ⟨gap, _, _, kept⟩ := Text.drop_blanks_split (Text.dropBlanks t).reverse
  have whole : Text.dropBlanks (Text.dropBlanks t).reverse = t.reverse := List.reverse_eq_iff.mp stripped
  rw [whole] at kept
  exact kept.resolve_left (by simpa using filled)

theorem letter_matches (letter : Char) (t : Text) : (∃ c, isLetter letter c = true ∧ t = [c]) ↔ Names [letter] t := by
  constructor
  · rintro ⟨c, folds, rfl⟩
    simpa [Names, isLetter] using folds
  · intro named
    obtain ⟨c, rest, rfl, folds, none⟩ := List.map_eq_cons_iff.mp named
    obtain rfl := List.map_eq_nil_iff.mp none
    exact ⟨c, by simpa [isLetter] using folds, rfl⟩

theorem word_names (letter : Char) (name : List Char) (t : Text) (groups : Groups) :
    (word isLetter letter name).Matches t groups ↔ Names (letter :: name) t ∧ groups = [] := by
  induction name generalizing letter t groups with
  | nil => rw [word, Pattern.Matches, letter_matches]
  | cons k ks ih =>
      simp only [word, Pattern.Matches, letter_matches, ih]
      constructor
      · rintro ⟨u, v, _, _, ⟨first, rfl⟩, ⟨rest, rfl⟩, rfl, rfl⟩
        exact ⟨by rw [Names, List.map_append, first, rest]; rfl, rfl⟩
      · rintro ⟨named, rfl⟩
        obtain ⟨c, rest, rfl, folds, others⟩ := List.map_eq_cons_iff.mp named
        exact ⟨[c], rest, [], [], ⟨congrArg (fun d : CodePoint => [d]) folds, rfl⟩, ⟨others, rfl⟩, rfl, rfl⟩

theorem word_first (letter : Char) (name : List Char) (front rest : Text) (named : Names (letter :: name) front) :
    ∃ others, (word isLetter letter name).ways (front ++ rest) = ⟨front, rest, []⟩ :: others := by
  induction name generalizing letter front with
  | nil =>
      obtain ⟨c, folds, rfl⟩ := (letter_matches letter front).mpr named
      exact ⟨[], by simp [word, Pattern.ways, folds]⟩
  | cons k ks ih =>
      obtain ⟨c, front, rfl, folds, others⟩ := List.map_eq_cons_iff.mp named
      refine both_first _ [c] (front ++ rest) [] _ _ front rest [] ⟨[], ?_⟩ (ih k front others)
      simp [Pattern.ways, isLetter, folds]

theorem signs_matches (first : Char) (signs : List Char) (t : Text) (groups : Groups) :
    (word isSign first signs).Matches t groups ↔ t = (first :: signs).map CodePoint.ofChar ∧ groups = [] := by
  induction signs generalizing first t groups with
  | nil => simp [word, Pattern.Matches, isSign]
  | cons k ks ih =>
      simp only [word, Pattern.Matches, isSign, decide_eq_true_eq, exists_eq_left, ih]
      constructor
      · rintro ⟨_, _, _, _, ⟨rfl, rfl⟩, ⟨rfl, rfl⟩, rfl, rfl⟩
        exact ⟨rfl, rfl⟩
      · rintro ⟨rfl, rfl⟩
        exact ⟨[CodePoint.ofChar first], _, [], [], ⟨rfl, rfl⟩, ⟨rfl, rfl⟩, rfl, rfl⟩

theorem fits_iff (kind : Kind) (t : Text) (groups : Groups) (other : kind ≠ .comment) (ends : StartsSolid t.reverse) :
    kind.Fits t groups ↔ kind.pattern.Matches t groups := by
  constructor
  · rintro ⟨taken, rest, rfl, fits, closed⟩
    have none : rest = [] := by
      simp only [closes, Bool.or_eq_true, decide_eq_true_eq] at closed
      rcases closed with (comment | empty) | rfl
      · exact absurd comment other
      · exact empty
      · obtain ⟨c, front, shape, visible⟩ := ends
        rw [List.reverse_append] at shape
        obtain ⟨rfl, _⟩ := List.cons_eq_cons.mp shape
        exact absurd visible (by decide)
    rw [none, List.append_nil]
    exact fits
  · intro fits
    exact ⟨t, [], (List.append_nil t).symm, fits, by simp [closes]⟩

theorem inline_iff (t : Text) : (∀ c ∈ t, isInline c = true) ↔ CodePoint.ofChar '\n' ∉ t := by
  simp only [isInline, decide_eq_true_eq]
  exact ⟨fun each mem => each _ mem rfl, fun clean c mem same => clean (same ▸ mem)⟩

theorem solid_iff (t : Text) : (∀ c ∈ t, isSolid c = true) ↔ Solid t := by simp only [isSolid, Bool.not_eq_true', Solid]

theorem directive_matches (name : List Char) (value : Pattern) (t : Text) (groups : Groups) :
    (directive name value).Matches t groups ↔ ∃ front gap rest, Names ('%' :: name) front ∧ (gap ≠ [] ∧ Gap gap) ∧
      value.Matches rest groups ∧ t = front ++ (gap ++ rest) := by
  simp only [directive, Pattern.Matches, word_names, many_matches]
  constructor
  · rintro ⟨front, _, _, _, ⟨named, rfl⟩, ⟨gap, rest, _, inner, ⟨isGap, rfl⟩, inside, rfl, rfl⟩, rfl, rfl⟩
    exact ⟨front, gap, rest, named, isGap, inside, rfl⟩
  · rintro ⟨front, gap, rest, named, isGap, inside, rfl⟩
    exact ⟨front, _, [], groups, ⟨named, rfl⟩, ⟨gap, rest, [], groups, ⟨isGap, rfl⟩, inside, rfl, rfl⟩, rfl, rfl⟩

theorem ends_no_gap (u v : Text) (filled : v ≠ []) (ends : StartsSolid (u ++ v).reverse) : ¬ Gap v := by
  intro isGap
  obtain ⟨c, front, shape, visible⟩ := ends
  obtain ⟨d, others, back⟩ := List.exists_cons_of_ne_nil (List.reverse_ne_nil_iff.mpr filled)
  rw [List.reverse_append, back] at shape
  obtain ⟨rfl, _⟩ := List.cons_eq_cons.mp shape
  have blank := Text.gap_reverse v isGap d (by rw [back]; exact List.mem_cons_self)
  rw [visible] at blank
  cases blank

theorem listing_matches (name : List Char) (part : Part) (t : Text) (groups : Groups) (ends : StartsSolid t.reverse) :
    (directive name (.named part (many isInline))).Matches t groups ↔ ∃ front gap before rest, Names
    ('%' :: name) front ∧
      (gap ≠ [] ∧ Gap gap) ∧ Gap before ∧ StartsSolid rest ∧ CodePoint.ofChar '\n' ∉ before ++ rest ∧
      t = front ++ (gap ++ (before ++ rest)) ∧ groups = [(part, before ++ rest)] := by
  simp only [directive_matches, named_many_matches, inline_iff]
  constructor
  · rintro ⟨front, gap, value, named, isGap, ⟨⟨filled, clean⟩, rfl⟩, rfl⟩
    obtain ⟨before, isBefore, split, kept⟩ := Text.drop_blanks_split value
    have starts : StartsSolid (Text.dropBlanks value) := by
      refine kept.resolve_left fun empty => ?_
      rw [empty, List.append_nil] at split
      rw [← List.append_assoc, split] at ends
      exact ends_no_gap _ before (split ▸ filled) ends isBefore
    exact ⟨front, gap, before, _, named, isGap, isBefore, starts, split ▸ clean, by rw [← split], by rw [← split]⟩
  · rintro ⟨front, gap, before, rest, named, isGap, _, starts, clean, rfl, rfl⟩
    obtain ⟨c, others, rfl, _⟩ := starts
    exact ⟨front, gap, _, named, isGap, ⟨⟨by simp, clean⟩, rfl⟩, rfl⟩

theorem blank_matches (t : Text) (groups : Groups) :
    Kind.blank.pattern.Matches t groups ↔ ∃ front gap symbol, Names ['%', 'b', 'l', 'a', 'n', 'k'] front ∧
      (gap ≠ [] ∧ Gap gap) ∧
      symbol.isBlank = false ∧ t = front ++ (gap ++ [symbol]) ∧ groups = [(.blank, [symbol])] := by
  simp only [Kind.pattern, directive_matches, named_one_matches, isSolid, Bool.not_eq_true']
  constructor
  · rintro ⟨front, gap, _, named, isGap, ⟨symbol, visible, rfl, rfl⟩, rfl⟩
    exact ⟨front, gap, symbol, named, isGap, visible, rfl, rfl⟩
  · rintro ⟨front, gap, symbol, named, isGap, visible, rfl, rfl⟩
    exact ⟨front, gap, [symbol], named, isGap, ⟨symbol, visible, rfl, rfl⟩, rfl⟩

theorem comment_matches (t : Text) (groups : Groups) :
    Kind.comment.pattern.Matches t groups ↔ t ∈ ([";", "//", "--"] : List Text) ∧ groups = [] := by
  simp only [Kind.pattern, Pattern.Matches, signs_matches, ← or_and_right]
  simp [Text.ofString]

theorem marker_matches (t : Text) (groups : Groups) :
    (Pattern.perhaps (.named .start (.both (.one (isSign '>')) (.run CodePoint.isBlank)))).Matches t groups ↔
      ∃ start : Option Text, (∀ marker ∈ start, Marker true marker) ∧ t = start.getD
      [] ∧ groups = start.toList.map (Part.start, ·) := by
  simp only [Pattern.Matches, isSign, decide_eq_true_eq, exists_eq_left]
  constructor
  · rintro (⟨_, ⟨_, gap, _, _, ⟨rfl, rfl⟩, ⟨isGap, rfl⟩, rfl, rfl⟩, rfl⟩ | ⟨rfl, rfl⟩)
    · refine ⟨some _, ?_, rfl, rfl⟩
      rintro _ ⟨⟩
      exact ⟨gap, isGap, rfl⟩
    · exact ⟨none, by simp, rfl, rfl⟩
  · rintro ⟨start, marks, rfl, rfl⟩
    cases start with
    | none => exact .inr ⟨rfl, rfl⟩
    | some marker =>
        obtain ⟨gap, isGap, rfl⟩ := marks marker rfl
        exact .inl ⟨[], ⟨_, gap, [], [], ⟨rfl, rfl⟩, ⟨isGap, rfl⟩, rfl, rfl⟩, rfl⟩

theorem tag_matches (t : Text) (groups : Groups) :
    (Pattern.perhaps (.named .acceptance (.one isTag))).Matches t groups ↔
      ∃ tag : Option CodePoint, (∀ c ∈ tag, isTag c = true) ∧ t = tag.toList ∧ groups = tag.toList.map
        fun c => (Part.acceptance, [c]) := by
  rw [Pattern.Matches, named_one_matches]
  constructor
  · rintro (⟨c, fits, rfl, rfl⟩ | ⟨rfl, rfl⟩)
    · refine ⟨some c, ?_, rfl, rfl⟩
      rintro _ ⟨⟩
      exact fits
    · exact ⟨none, by simp, rfl, rfl⟩
  · rintro ⟨tag, fits, rfl, rfl⟩
    cases tag with
    | none => exact .inr ⟨rfl, rfl⟩
    | some c => exact .inl ⟨c, fits c rfl, rfl, rfl⟩

inductive StateText (start : Option Text) (id : Text) (tag : Option CodePoint) : Text → Prop where
  | mk (gap : Text) (marks : ∀ marker ∈ start, Marker true marker) (number : Digits id) (isGap : Gap gap)
      (tags : ∀ c ∈ tag, isTag c = true) : StateText start id tag (start.getD [] ++ (id ++ (gap ++ tag.toList)))

def stateGroups (start : Option Text) (id : Text) (tag : Option CodePoint) : Groups :=
  start.toList.map (Part.start, ·) ++ (Part.id, id) :: tag.toList.map fun c => (Part.acceptance, [c])

theorem state_matches (t : Text) (groups : Groups) :
    Kind.state.pattern.Matches t groups ↔ ∃ start id tag, StateText start id tag t ∧
      groups = stateGroups start id tag := by
  constructor
  · rintro ⟨_, _, _, _, marked, ⟨id, _, _, _, numbered, ⟨gap, _, _, _, blanks, tagged, rfl, rfl⟩, rfl, rfl⟩, rfl, rfl⟩
    obtain ⟨start, marks, rfl, rfl⟩ := (marker_matches _ _).mp marked
    obtain ⟨number, rfl⟩ := (named_many_matches _ _ _ _).mp numbered
    obtain ⟨isGap, rfl⟩ := blanks
    obtain ⟨tag, tags, rfl, rfl⟩ := (tag_matches _ _).mp tagged
    exact ⟨start, id, tag, .mk gap marks number isGap tags, rfl⟩
  · rintro ⟨start, id, tag, ⟨gap, marks, number, isGap, tags⟩, rfl⟩
    have marked := (marker_matches _ _).mpr ⟨start, marks, rfl, rfl⟩
    have numbered := (named_many_matches Part.id CodePoint.isDigit id _).mpr ⟨number, rfl⟩
    have tagged := (tag_matches _ _).mpr ⟨tag, tags, rfl, rfl⟩
    exact both_intro _ _ _ _ _ _ marked <| both_intro _ _ _ _ _ _ numbered <| both_intro _ _ gap _
      [] _ ⟨isGap, rfl⟩ tagged

inductive TransitionText (source inputs : Text) (output letter : CodePoint) (target : Text) : Text → Prop where
  | mk (gap₁ gap₂ gap₃ gap₄ gap₅ : Text) (isSource : Digits source) (first : gap₁ ≠ [] ∧ Gap gap₁)
      (reads : inputs ≠ [] ∧ Solid inputs) (second : Gap gap₂) (third : Gap gap₃) (writes : output.isBlank = false)
      (fourth : gap₄ ≠ [] ∧ Gap gap₄) (moves : isMove letter = true) (fifth : gap₅ ≠ [] ∧ Gap gap₅)
      (isTarget : Digits target) :
      TransitionText source inputs output letter target
        (source ++ (gap₁ ++ (inputs ++ behindInputs gap₂ gap₃ gap₄ gap₅ output letter target)))

def transitionGroups (source inputs : Text) (output letter : CodePoint) (target : Text) : Groups :=
  [(.source, source), (.inputs, inputs), (.output, [output]), (.action, [letter]), (.target, target)]

theorem transition_matches (t : Text) (groups : Groups) :
    Kind.transition.pattern.Matches t groups ↔ ∃ source inputs output letter target,
      TransitionText source inputs output letter target t ∧
        groups = transitionGroups source inputs output letter target := by
  constructor
  · intro fits
    obtain ⟨source, _, _, _, sourced, fits, rfl, rfl⟩ := fits
    obtain ⟨gap₁, _, _, _, blanks₁, fits, rfl, rfl⟩ := fits
    obtain ⟨inputs, _, _, _, reading, fits, rfl, rfl⟩ := fits
    obtain ⟨gap₂, _, _, _, ⟨second, rfl⟩, fits, rfl, rfl⟩ := fits
    obtain ⟨_, _, _, _, arrow, fits, rfl, rfl⟩ := fits
    obtain ⟨gap₃, _, _, _, ⟨third, rfl⟩, fits, rfl, rfl⟩ := fits
    obtain ⟨_, _, _, _, writing, fits, rfl, rfl⟩ := fits
    obtain ⟨gap₄, _, _, _, blanks₄, fits, rfl, rfl⟩ := fits
    obtain ⟨_, _, _, _, moving, fits, rfl, rfl⟩ := fits
    obtain ⟨gap₅, target, _, _, blanks₅, targeted, rfl, rfl⟩ := fits
    obtain ⟨isSource, rfl⟩ := (named_many_matches _ _ _ _).mp sourced
    obtain ⟨first, rfl⟩ := (many_matches _ _ _).mp blanks₁
    obtain ⟨⟨filled, solid⟩, rfl⟩ := (named_many_matches _ _ _ _).mp reading
    obtain ⟨rfl, rfl⟩ := (signs_matches _ _ _ _).mp arrow
    obtain ⟨output, writes, rfl, rfl⟩ := (named_one_matches _ _ _ _).mp writing
    obtain ⟨fourth, rfl⟩ := (many_matches _ _ _).mp blanks₄
    obtain ⟨letter, moves, rfl, rfl⟩ := (named_one_matches _ _ _ _).mp moving
    obtain ⟨fifth, rfl⟩ := (many_matches _ _ _).mp blanks₅
    obtain ⟨isTarget, rfl⟩ := (named_many_matches _ _ _ _).mp targeted
    refine ⟨source, inputs, output, letter, target, ?_, rfl⟩
    exact .mk gap₁ gap₂ gap₃ gap₄ gap₅ isSource first ⟨filled, (solid_iff inputs).mp solid⟩ second third
      (by simpa [isSolid] using writes) fourth moves fifth isTarget
  · rintro ⟨source, inputs, output, letter, target,
      ⟨gap₁, gap₂, gap₃, gap₄, gap₅, isSource, first, reads, second, third, writes,
      fourth, moves, fifth, isTarget⟩, rfl⟩
    have sourced := (named_many_matches .source CodePoint.isDigit source _).mpr ⟨isSource, rfl⟩
    have blanks₁ := (many_matches CodePoint.isBlank gap₁ _).mpr ⟨first, rfl⟩
    have reading := (named_many_matches .inputs isSolid inputs _).mpr ⟨⟨reads.1, (solid_iff inputs).mpr reads.2⟩, rfl⟩
    have arrow := (signs_matches '-' ['>'] _ _).mpr ⟨rfl, rfl⟩
    have writing := (named_one_matches .output isSolid _ _).mpr ⟨output, by simpa [isSolid] using writes, rfl, rfl⟩
    have blanks₄ := (many_matches CodePoint.isBlank gap₄ _).mpr ⟨fourth, rfl⟩
    have moving := (named_one_matches .action isMove _ _).mpr ⟨letter, moves, rfl, rfl⟩
    have blanks₅ := (many_matches CodePoint.isBlank gap₅ _).mpr ⟨fifth, rfl⟩
    have targeted := (named_many_matches .target CodePoint.isDigit target _).mpr ⟨isTarget, rfl⟩
    exact both_intro _ _ _ _ _ _ sourced <| both_intro _ _ _ _ _ _ blanks₁ <| both_intro _ _ _ _ _ _ reading <|
      both_intro _ _ gap₂ _ [] _ ⟨second,
        rfl⟩ <| both_intro _ _ _ _ _ _ arrow <| both_intro _ _ gap₃ _ [] _ ⟨third, rfl⟩ <|
      both_intro _ _ _ _ _ _ writing <| both_intro _ _ _ _ _ _ blanks₄ <| both_intro _ _ _ _ _ _ moving <|
      both_intro _ _ _ _ _ _ blanks₅ targeted

end TapeMachine.Line
