import TapeMachine.Proofs.Meaning
import TapeMachine.Proofs.TextRoundTrip

set_option autoImplicit false

namespace TapeMachine

namespace Line

def used : Line → Text
  | .blank c => [c]
  | .memory word => word
  | .transition _ inputs output _ _ => inputs ++ [output]
  | _ => []

def ids : Line → List Text
  | .state _ id _ => [id]
  | .transition source _ _ _ target => [source, target]
  | _ => []

end Line

namespace Definition

def DeclaredBy (source : List Text) (c : CodePoint) : Prop :=
  ∃ raw ∈ source, ∃ symbols, Line.Form (Line.trimmed raw) (.charset symbols) ∧ c ∈ symbols

/-- The line has one of the forms, and the lines above it declare all symbols that it uses. -/
def Fitting (above : List Text) (raw : Text) : Prop :=
  ∃ line, Line.Form (Line.trimmed raw) line ∧ ∀ c ∈ line.used, DeclaredBy above c

/-- The line has an id of so many digits, and these are too many. -/
def Overlong (digits : Nat) (raw : Text) : Prop :=
  digitLimit < digits ∧ ∃ line, Line.Form (Line.trimmed raw) line ∧ ∃ id ∈ line.ids, id.length = digits

structure Readable (above : List Text) (raw : Text) : Prop where
  fits : Fitting above raw
  short : ∀ digits, ¬ Overlong digits raw

def Flawless (source : List Text) : Prop := ∀ above raw below, source = above ++ raw :: below → Readable above raw

theorem read_id_cases (digits : Text) :
    (readId digits = .ok (numeralValue digits) ∧ digits.length ≤ digitLimit) ∨
      (readId digits = .error (.longNumeral digits.length) ∧ digitLimit < digits.length) := by
  by_cases long : digitLimit < digits.length
  · exact .inr ⟨if_pos long, long⟩
  · exact .inl ⟨if_neg long, Nat.le_of_not_lt long⟩

theorem check_declared_cases (d : Definition) (symbols : Text) :
    (d.checkDeclared symbols = .ok () ∧ ∀ c ∈ symbols, [c] ∈ d.charset) ∨
      ((∃ reason, d.checkDeclared symbols = .error (.refused reason)) ∧ ¬ ∀ c ∈ symbols, [c] ∈ d.charset) := by
  rw [← check_declared_iff, checkDeclared]
  cases firstSeen (symbols.filter fun c => !d.declares c) with
  | nil => exact .inl ⟨rfl, rfl⟩
  | cons c cs =>
      refine .inr ⟨⟨_, rfl⟩, ?_⟩
      intro passed
      cases passed

theorem enter_cases (d : Definition) (line : Line) :
    (∃ next, d.enter line = .ok next ∧ (∀ c ∈ line.used, [c] ∈ d.charset) ∧ ∀ id ∈ line.ids, id.length ≤ digitLimit) ∨
    (∃ reason, d.enter line = .error (.refused reason) ∧ ¬ ∀ c ∈ line.used, [c] ∈ d.charset) ∨
    (∃ digits, d.enter line = .error (.longNumeral digits) ∧ digitLimit < digits ∧
      ∃ id ∈ line.ids, id.length = digits) := by
  cases line with
  | empty => exact .inl ⟨d, rfl, by simp [Line.used], by simp [Line.ids]⟩
  | comment => exact .inl ⟨d, rfl, by simp [Line.used], by simp [Line.ids]⟩
  | charset symbols => exact .inl ⟨d.declare symbols, rfl, by simp [Line.used], by simp [Line.ids]⟩
  | blank c =>
      by_cases known : [c] ∈ d.charset
      · exact .inl ⟨_, if_pos (by simpa [declares] using known), by simpa [Line.used] using known, by simp [Line.ids]⟩
      · exact .inr (.inl ⟨_, if_neg (by simpa [declares] using known), by simpa [Line.used] using known⟩)
  | memory word =>
      rw [enter]
      rcases d.check_declared_cases word with ⟨checked, known⟩ | ⟨⟨reason, checked⟩, unknown⟩
      · exact .inl ⟨_, by rw [checked]; rfl, known, by simp [Line.ids]⟩
      · exact .inr (.inl ⟨reason, by rw [checked]; rfl, unknown⟩)
  | state isStart digits acceptance =>
      rw [enter]
      rcases read_id_cases digits with ⟨named, short⟩ | ⟨named, long⟩
      · exact .inl ⟨_, by rw [named]; rfl, by simp [Line.used], by simpa [Line.ids] using short⟩
      · exact .inr (.inr ⟨digits.length, by rw [named]; rfl, long, digits, List.mem_cons_self, rfl⟩)
  | transition source inputs output action target =>
      rw [enter]
      rcases read_id_cases source with ⟨sourced, short⟩ | ⟨sourced, long⟩
      · rcases d.check_declared_cases (inputs ++ [output]) with ⟨checked, known⟩ | ⟨⟨reason, checked⟩, unknown⟩
        · rcases read_id_cases target with ⟨targeted, near⟩ | ⟨targeted, far⟩
          · exact .inl ⟨_, by rw [sourced, checked, targeted]; rfl, known, by simpa [Line.ids] using ⟨short, near⟩⟩
          · refine .inr (.inr ⟨target.length, by rw [sourced, checked, targeted]; rfl, far, target, ?_, rfl⟩)
            exact List.mem_cons_of_mem source List.mem_cons_self
        · exact .inr (.inl ⟨reason, by rw [sourced, checked]; rfl, unknown⟩)
      · exact .inr (.inr ⟨source.length, by rw [sourced]; rfl, long, source, List.mem_cons_self, rfl⟩)

theorem declared_by_cons (raw : Text) (rest : List Text) (line : Line)
    (form : Line.Form (Line.trimmed raw) line) (c : CodePoint) :
    DeclaredBy (raw :: rest) c ↔ c ∈ line.symbols ∨ DeclaredBy rest c := by
  rw [DeclaredBy, List.exists_mem_cons_iff]
  apply or_congr_left
  constructor
  · intro declares
    obtain ⟨symbols, charset, mem⟩ := declares
    rw [Line.form_unique _ line _ form charset]
    exact mem
  · intro mem
    cases line with
    | charset symbols => exact ⟨symbols, form, mem⟩
    | _ => cases mem

theorem declared_by_symbols (source : List Text) (lines : List Line)
    (forms : List.Forall₂ (fun raw line => Line.Form (Line.trimmed raw) line) source lines) (c : CodePoint) :
    DeclaredBy source c ↔ c ∈ lines.flatMap Line.symbols := by
  induction forms with
  | nil => simp [DeclaredBy]
  | cons form _ ih => rw [declared_by_cons _ _ _ form, ih, List.flatMap_cons, List.mem_append]

theorem charset_declared (source : List Text) (d : Definition) (read : ofLines source = .ok d) (c : CodePoint) :
    [c] ∈ d.charset ↔ DeclaredBy source c := by
  obtain ⟨lines, reads, rfl⟩ := of_lines_meaning source d read
  rw [declared_by_symbols source lines (reads_forms source lines reads)]
  simp [meaning]

theorem enter_text_cases (above : List Text) (d : Definition) (read : ofLines above = .ok d) (raw : Text) :
    (∃ next, d.enterText (Line.trimmed raw) = .ok next ∧ Readable above raw) ∨
    (∃ reason, d.enterText (Line.trimmed raw) = .error (.refused reason) ∧ ¬ Fitting above raw) ∨
    (∃ digits, d.enterText (Line.trimmed raw) = .error (.longNumeral digits) ∧ Overlong digits raw) := by
  rw [enterText]
  cases formed : Line.read? (Line.trimmed raw) with
  | none =>
      refine .inr (.inl ⟨.noForm, rfl, ?_⟩)
      intro fitting
      obtain ⟨line, form, _⟩ := fitting
      cases formed.symm.trans ((Line.read_iff _ line).mpr form)
  | some line =>
      have form := (Line.read_iff _ line).mp formed
      rcases d.enter_cases line with ⟨next, entered, known, short⟩ | ⟨reason, entered, unknown⟩ | ⟨digits,
        entered, limit, long⟩
      · refine .inl ⟨next, entered, ⟨line, form, fun c mem => (charset_declared above d read c).mp (known c mem)⟩, ?_⟩
        intro digits long
        obtain ⟨limit, other, same, id, mem, size⟩ := long
        obtain rfl := Line.form_unique _ line other form same
        have within := short id mem
        omega
      · refine .inr (.inl ⟨reason, entered, ?_⟩)
        intro fitting
        obtain ⟨other, same, declared⟩ := fitting
        obtain rfl := Line.form_unique _ line other form same
        exact unknown fun c mem => (charset_declared above d read c).mpr (declared c mem)
      · exact .inr (.inr ⟨digits, entered, limit, line, form, long⟩)

theorem of_lines_split (above below : List Text) (raw : Text) (d : Definition) (read : ofLines above = .ok d) :
    ofLines (above ++ raw :: below) = match d.enterText (Line.trimmed raw) with
      | .ok next => next.readFrom (above.length + 2) below
      | .error fault => .error (fault.located (above.length + 1) (Line.trimmed raw)) := by
  have front : readFrom {} 1 above = .ok d := read
  rw [ofLines, read_from_append, front, Nat.add_comm 1 above.length]
  rfl

theorem of_lines_stuck (above below : List Text) (fault : SourceFault) (read : ofLines above = .error fault) :
    ofLines (above ++ below) = .error fault := by
  have front : readFrom {} 1 above = .error fault := read
  rw [ofLines, read_from_append, front]
  rfl

theorem flawless_snoc (source : List Text) (raw : Text) :
    Flawless (source ++ [raw]) ↔ Flawless source ∧ Readable source raw := by
  constructor
  · intro flawless
    refine ⟨?_, flawless source raw [] rfl⟩
    intro above line below split
    exact flawless above line (below ++ [raw]) (by rw [split]; simp)
  · intro both above line below split
    obtain ⟨flawless, last⟩ := both
    rcases List.eq_nil_or_concat below with rfl | ⟨front, other, rfl⟩
    · obtain ⟨rfl, same⟩ := List.append_inj' split rfl
      cases same
      exact last
    · rw [List.concat_eq_append, ← List.cons_append, ← List.append_assoc] at split
      exact flawless above line front (List.append_inj' split rfl).1

theorem returned_flawless (source : List Text) : (∃ d, ofLines source = .ok d) ↔ Flawless source := by
  induction source using List.reverseRecOn with
  | nil => exact iff_of_true ⟨{}, rfl⟩ fun above raw below split => by simp at split
  | append_singleton front raw ih =>
      rw [flawless_snoc, ← ih]
      cases read : ofLines front with
      | error fault => simp [of_lines_stuck front [raw] fault read]
      | ok d =>
          rw [of_lines_split front [] raw d read]
          rcases enter_text_cases front d read raw with
            ⟨next, entered, readable⟩ | ⟨reason, entered, unfit⟩ | ⟨digits, entered, long⟩
          · rw [entered]
            exact iff_of_true ⟨next, rfl⟩ ⟨⟨d, rfl⟩, readable⟩
          · rw [entered]
            exact iff_of_false (by simp) fun both => unfit both.2.fits
          · rw [entered]
            exact iff_of_false (by simp) fun both => both.2.short digits long

theorem first_unreadable (source : List Text) (flawed : ¬ Flawless source) :
    ∃ above raw below, source = above ++ raw :: below ∧ Flawless above ∧ ¬ Readable above raw := by
  induction source using List.reverseRecOn with
  | nil => exact absurd (fun above raw below split => by simp at split) flawed
  | append_singleton front raw ih =>
      by_cases flawless : Flawless front
      · exact ⟨front, raw, [], rfl, flawless,
          fun readable => flawed ((flawless_snoc front raw).mpr ⟨flawless, readable⟩)⟩
      · obtain ⟨above, line, below, rfl, good, bad⟩ := ih flawless
        exact ⟨above, line, below ++ [raw], by simp, good, bad⟩

theorem ends_at_unreadable (above below : List Text) (raw : Text) (flawless : Flawless above)
    (bad : ¬ Readable above raw) :
    ((∃ reason, ofLines (above ++ raw :: below) = .error (.refused (above.length + 1) (Line.trimmed raw) reason)) ∧
        ¬ Fitting above raw) ∨
      ∃ digits, ofLines (above ++ raw :: below) = .error (.longNumeral digits) ∧ Overlong digits raw := by
  obtain ⟨d, read⟩ := (returned_flawless above).mpr flawless
  rw [of_lines_split above below raw d read]
  rcases enter_text_cases above d read raw with ⟨_, _, readable⟩ | ⟨reason, entered, unfit⟩ | ⟨digits, entered, long⟩
  · exact absurd readable bad
  · exact .inl ⟨⟨reason, by rw [entered]; rfl⟩, unfit⟩
  · exact .inr ⟨digits, by rw [entered]; rfl, long⟩

/-- A text or lines are read if every line is readable. Otherwise the first line that is not ends
the reading, whatever comes below: it is told with its number, unless one of its ids is too long for
a number. -/
theorem first_unreadable_line_ends_reading (text : Text) (source : List Text) (outcome : Except SourceFault Definition)
    (read : (outcome = ofText text ∧ source = Text.splitLines text) ∨ outcome = ofLines source) :
    ((∃ d, outcome = .ok d) ↔ Flawless source) ∧
    (Flawless source ∨ ∃ above raw below, source = above ++ raw :: below ∧ Flawless above ∧ ¬ Readable above raw) ∧
    ∀ above raw below, source = above ++ raw :: below → Flawless above → ¬ Readable above raw →
      ((∃ reason, outcome = .error (.refused (above.length + 1) (Line.trimmed raw) reason)) ∧ ¬ Fitting above raw) ∨
        ∃ digits, outcome = .error (.longNumeral digits) ∧ Overlong digits raw := by
  obtain rfl : outcome = ofLines source := by
    rcases read with ⟨same, rfl⟩ | same
    · exact same
    · exact same
  refine ⟨returned_flawless source, ?_, ?_⟩
  · by_cases flawless : Flawless source
    · exact .inl flawless
    · exact .inr (first_unreadable source flawless)
  · intro above raw below split flawless bad
    rw [split]
    exact ends_at_unreadable above below raw flawless bad

theorem early_symbol_ends_reading :
    let text : Text := "%charset a _\n \t0 a -> b r 1\r\n%blank b !\n%charset b"
    let above : List Text := ["%charset a _"]
    let raw : Text := " \t0 a -> b r 1\r"
    ofText text = .error (.refused 2 "0 a -> b r 1" (.undeclared ['b'])) ∧ ¬ Flawless (Text.splitLines text) ∧
      Flawless above ∧ ¬ Fitting above raw := by
  intro text above raw
  have ended : ofText text = .error (.refused 2 "0 a -> b r 1" (.undeclared ['b'])) := by decide +kernel
  obtain ⟨returned, _, ends⟩ := first_unreadable_line_ends_reading text _ _ (.inl ⟨rfl, rfl⟩)
  have good : Flawless above := by
    apply (returned_flawless above).mp
    exact ⟨{ charset := ["a", "_"] }, by decide +kernel⟩
  have flawed : ¬ Flawless (Text.splitLines text) := by
    intro flawless
    obtain ⟨d, read⟩ := returned.mpr flawless
    cases ended.symm.trans read
  have bad : ¬ Readable above raw := by
    intro readable
    obtain ⟨d, read⟩ := (returned_flawless (above ++ [raw])).mpr ((flawless_snoc above raw).mpr ⟨good, readable⟩)
    have refused : ofLines (above ++ [raw]) = .error (.refused 2 "0 a -> b r 1" (.undeclared ['b'])) := by
      decide +kernel
    cases refused.symm.trans read
  rcases ends above raw ["%blank b !", "%charset b"] (by decide +kernel) good bad with ⟨_, unfit⟩ | ⟨digits, long, _⟩
  · exact ⟨ended, flawed, good, unfit⟩
  · cases ended.symm.trans long

theorem padded_id_ends_reading :
    let digits : Text := List.replicate digitLimit (CodePoint.ofChar '0') ++ [CodePoint.ofChar '7']
    Text.splitLines (digits ++ "\n") = [digits, []] ∧ Fitting [] digits ∧ Fitting [digits] [] ∧
      ofText (digits ++ "\n") = .error (.longNumeral (digitLimit + 1)) := by
  intro digits
  have number : Text.Digits digits := by
    refine ⟨by simp [digits], ?_⟩
    intro c mem
    rcases List.mem_append.mp mem with zero | seven
    · rw [List.eq_of_mem_replicate zero]
      rfl
    · rw [List.mem_singleton.mp seven]
      rfl
  have size : digits.length = digitLimit + 1 := by simp [digits]
  have tidy := Text.tidy_solid digits (Text.digits_solid digits number) number.1
  have lines : Text.splitLines (digits ++ "\n") = [digits, []] :=
    Text.split_lines_feed digits [] (Text.tidy_no_feed digits tidy)
  have trimmed := Text.tidy_trimmed digits tidy
  have read : Line.read? digits = some (.state false digits .none) := by
    simpa using Line.read_state [] digits [] [] false .none rfl number (by simp [Text.Gap]) rfl
  refine ⟨lines, ⟨_, trimmed.symm ▸ (Line.read_iff digits _).mp read, by simp [Line.used]⟩,
    ⟨.empty, .empty, by simp [Line.used]⟩, ?_⟩
  have entered : enterText {} (Line.trimmed digits) = .error (.longNumeral (digitLimit + 1)) := by
    rcases read_id_cases digits with ⟨_, short⟩ | ⟨refused, _⟩
    · omega
    · simp only [enterText, trimmed, read, enter, refused, size]
      rfl
  rw [ofText, lines, ofLines, readFrom, entered]
  rfl

end Definition

end TapeMachine
