import TapeMachine.Definition.Stored
import TapeMachine.Proofs.JobRuns
import TapeMachine.Proofs.Pieces
import TapeMachine.Proofs.ScalarText

set_option autoImplicit false

namespace TapeMachine

namespace Text

/-- After a carriage return comes a line feed, or nothing but blanks is left. -/
def ReturnsEndLines (t : Text) : Prop :=
  ∀ above below, t = above ++ CodePoint.ofChar '\r' :: below → below.head? = some (CodePoint.ofChar '\n') ∨ Gap below

theorem returns_end_lines_nil : ReturnsEndLines [] := by
  intro above below split
  simp at split

theorem returns_end_lines_cons_iff (c : CodePoint) (t : Text) : ReturnsEndLines (c :: t) ↔
    (c = CodePoint.ofChar '\r' → t.head? = some (CodePoint.ofChar '\n') ∨ Gap t) ∧ ReturnsEndLines t := by
  constructor
  · intro ends
    refine ⟨fun first => ends [] t (by rw [first, List.nil_append]), fun above below split => ?_⟩
    exact ends (c :: above) below (by rw [split, List.cons_append])
  · rintro ⟨here, later⟩ above below split
    cases above with
    | nil =>
        obtain ⟨first, rfl⟩ := List.cons.inj split
        exact here first
    | cons d above =>
        obtain ⟨_, rest⟩ := List.cons.inj split
        exact later above below rest

instance (t : Text) : Decidable (Gap t) := inferInstanceAs (Decidable (∀ c ∈ t, _))

instance decideReturnsEndLines : (t : Text) → Decidable (ReturnsEndLines t)
  | [] => isTrue returns_end_lines_nil
  | c :: t =>
      have := decideReturnsEndLines t
      decidable_of_iff _ (returns_end_lines_cons_iff c t).symm

theorem gap_nil : Gap [] := List.forall_mem_nil _

@[simp] theorem gap_append (s t : Text) : Gap (s ++ t) ↔ Gap s ∧ Gap t := List.forall_mem_append

theorem gap_subset (s t : Text) (part : s ⊆ t) (gap : Gap t) : Gap s := fun c mem => gap c (part mem)

@[simp] theorem gap_cons (c : CodePoint) (t : Text) : Gap (c :: t) ↔ c.isBlank = true ∧ Gap t := List.forall_mem_cons

theorem gap_unify (t : Text) (gap : Gap t) : Gap (unifyLineEnds t) :=
  gap_subset _ _ (unify_subset t) ((gap_cons _ t).mpr ⟨by decide, gap⟩)

theorem gap_lines (t : Text) (gap : Gap t) : ∀ l ∈ splitLines t, Gap l := fun l mem =>
  gap_subset l t (split_lines_subset t l mem) gap

theorem trim_gap_after (t gap : Text) (blank : Gap gap) : trim (t ++ gap) = trim t := by
  obtain ⟨front, isGap, split, none | starts⟩ := drop_blanks_split t
  · have all : Gap (t ++ gap) := by
      rw [none, List.append_nil] at split
      exact (gap_append t gap).mpr ⟨split ▸ isGap, blank⟩
    rw [trim, trim, none, drop_blanks_only _ all]
  · have dropped : dropBlanks (t ++ gap) = dropBlanks t ++ gap :=
      calc dropBlanks (t ++ gap) = dropBlanks (front ++ (dropBlanks t ++ gap)) := by rw [← List.append_assoc, ← split]
        _ = dropBlanks t ++ gap := by
          rw [drop_blanks_gap front _ isGap, drop_blanks_solid _ (starts_solid_append _ gap starts)]
    rw [trim, trim, dropped, dropBlanksEnd, dropBlanksEnd, List.reverse_append,
      drop_blanks_gap _ _ (gap_reverse gap blank)]

def Beside (s t : Text) : Prop := ∃ kept u v, s = kept ++ u ∧ t = kept ++ v ∧ Gap u ∧ Gap v

theorem beside_gaps (s t : Text) (left : Gap s) (right : Gap t) : Beside s t := ⟨[], s, t, rfl, rfl, left, right⟩

theorem beside_cons (c : CodePoint) (s t : Text) (beside : Beside s t) : Beside (c :: s) (c :: t) := by
  obtain ⟨kept, u, v, rfl, rfl, left, right⟩ := beside
  exact ⟨c :: kept, u, v, rfl, rfl, left, right⟩

theorem beside_trimmed (s t : Text) (beside : Beside s t) : Line.trimmed s = Line.trimmed t := by
  have cut (kept u : Text) (gap : Gap u) : Line.trimmed (kept ++ u) = Line.trimmed kept := by
    rw [Line.trimmed, List.map_append, trim_gap_after _ _ ?_, Line.trimmed]
    intro c mem
    obtain ⟨d, inside, rfl⟩ := List.mem_map.mp mem
    split
    · decide
    · exact gap d inside
  obtain ⟨kept, u, v, rfl, rfl, left, right⟩ := beside
  rw [cut kept u left, cut kept v right]

inductive Alike : List Text → List Text → Prop where
  | gaps (ls ls' : List Text) (left : ∀ l ∈ ls, Gap l) (right : ∀ l ∈ ls', Gap l) : Alike ls ls'
  | cons (l l' : Text) (ls ls' : List Text) (beside : Beside l l') (below : Alike ls ls') : Alike (l :: ls) (l' :: ls')

theorem split_lines_push (c : CodePoint) (t : Text) (noFeed : c ≠ CodePoint.ofChar '\n') :
    ∃ l ls, splitLines t = l :: ls ∧ splitLines (c :: t) = (c :: l) :: ls := by
  obtain ⟨l, ls, cut⟩ := List.exists_cons_of_ne_nil (split_lines_ne_nil t)
  exact ⟨l, ls, cut, by rw [splitLines, if_neg noFeed, cut]⟩

theorem alike_push (c : CodePoint) (s t : Text) (alike : Alike (splitLines s) (splitLines t)) :
    Alike (splitLines (c :: s)) (splitLines (c :: t)) := by
  by_cases feed : c = CodePoint.ofChar '\n'
  · rw [splitLines, splitLines, if_pos feed, if_pos feed]
    exact .cons [] [] _ _ (beside_gaps [] [] gap_nil gap_nil) alike
  · obtain ⟨l, ls, cut, pushed⟩ := split_lines_push c s feed
    obtain ⟨l', ls', cut', pushed'⟩ := split_lines_push c t feed
    rw [cut, cut'] at alike
    rw [pushed, pushed']
    cases alike with
    | gaps _ _ left right =>
        obtain ⟨first, others⟩ := List.forall_mem_cons.mp left
        obtain ⟨first', others'⟩ := List.forall_mem_cons.mp right
        exact .cons _ _ _ _ (beside_cons c l l' (beside_gaps l l' first first')) (.gaps ls ls' others others')
    | cons _ _ _ _ beside below => exact .cons _ _ _ _ (beside_cons c l l' beside) below

theorem unify_alike (t : Text) (ends : ReturnsEndLines t) : Alike (splitLines (unifyLineEnds t)) (splitLines t) := by
  have blankEnd (t : Text) (gap : Gap t) (c d : CodePoint) (c_blank : c.isBlank = true) (d_blank : d.isBlank = true) :
      Alike (splitLines (c :: unifyLineEnds t)) (splitLines (d :: t)) :=
    .gaps _ _ (gap_lines _ ((gap_cons c _).mpr ⟨c_blank, gap_unify t gap⟩))
      (gap_lines _ ((gap_cons d t).mpr ⟨d_blank, gap⟩))
  fun_induction unifyLineEnds t with
  | case1 => exact .gaps _ _ (gap_lines [] gap_nil) (gap_lines [] gap_nil)
  | case2 => exact blankEnd [] gap_nil _ _ (by decide) (by decide)
  | case3 c other => exact alike_push c [] [] (.gaps _ _ (gap_lines [] gap_nil) (gap_lines [] gap_nil))
  | case4 t ih =>
      have below := ih ((returns_end_lines_cons_iff _ t).mp ((returns_end_lines_cons_iff _ _).mp ends).2).2
      exact .cons [] _ _ _ (beside_gaps [] _ gap_nil ((gap_cons _ []).mpr ⟨by decide, gap_nil⟩)) below
  | case5 d t other ih =>
      rcases ((returns_end_lines_cons_iff _ _).mp ends).1 rfl with feed | gap
      · exact absurd (Option.some.inj feed) other
      · exact blankEnd (d :: t) gap _ _ (by decide) (by decide)
  | case6 c d t other ih => exact alike_push c _ _ (ih ((returns_end_lines_cons_iff c _).mp ends).2)

end Text

namespace Definition

open Text (Gap Beside Alike ReturnsEndLines unifyLineEnds)

theorem read_gaps (d : Definition) (number : Nat) (lines : List Text) (gaps : ∀ l ∈ lines, Gap l) :
    d.readFrom number lines = .ok d := by
  induction lines generalizing number with
  | nil => rfl
  | cons l lines ih =>
      obtain ⟨first, others⟩ := List.forall_mem_cons.mp gaps
      have empty : Line.trimmed l = [] := Text.beside_trimmed l [] (Text.beside_gaps l [] first Text.gap_nil)
      rw [readFrom, empty]
      exact ih (number + 1) others

theorem read_alike (d : Definition) (number : Nat) (lines lines' : List Text) (alike : Alike lines lines') :
    d.readFrom number lines = d.readFrom number lines' := by
  induction alike generalizing d number with
  | gaps ls ls' left right => rw [read_gaps d number ls left, read_gaps d number ls' right]
  | cons l l' ls ls' beside below ih => simp only [readFrom, Text.beside_trimmed l l' beside, ih]

theorem of_text_unified (t : Text) (ends : t.ReturnsEndLines) : ofText (unifyLineEnds t) = ofText t :=
  read_alike {} 1 _ _ (Text.unify_alike t ends)

theorem load_lines_run (path : Path) (t : Text) (bytes : Bytes) (s : Session) (written : Utf8.encode t = some bytes)
    (held : s.store.read path.toText = .ok bytes) :
    (loadLines path).runIn s = ((ofText (unifyLineEnds t)).mapError .source, s) := by
  have decoded : Job.decoded bytes = .ok (unifyLineEnds t) := by rw [Job.decoded, (Utf8.decode_iff bytes t).mpr written]
  have text : (Job.readText path.toText).runIn s = (.ok (unifyLineEnds t), s) := by
    rw [Job.readText, Job.run_bind, Job.run_read, held]
    simp only [decoded]
    rfl
  rw [loadLines, Job.run_bind, text]
  exact Job.run_lift s _

/-- A file that holds a text is read as the text in which every carriage return, with the feed after
it if there is one, is a line feed. That is how the text itself is read, error and all, if its
carriage returns stand at the ends of lines. -/
theorem file_is_read_as_text_with_returns_at_ends (t : Text) (scalar : t.Scalar) :
    ∃ bytes, Utf8.encode t = some bytes ∧ ∀ (path : Path) (s : Session), s.store.read path.toText = .ok bytes →
      (loadLines path).runIn s = ((ofText (unifyLineEnds t)).mapError .source, s) ∧
      (t.ReturnsEndLines → (loadLines path).runIn s = ((ofText t).mapError .source, s)) := by
  obtain ⟨bytes, written⟩ := Utf8.encode_exists t scalar
  refine ⟨bytes, written, fun path s held => ?_⟩
  have read := load_lines_run path t bytes s written held
  refine ⟨read, fun ends => ?_⟩
  rw [read, of_text_unified t ends]

def oneFile (name t : Text) : Session where
  store := { files := [([name], (Utf8.encode t).getD [])] }

theorem one_file_run (name t : Text) (scalar : t.Scalar)
    (held : (oneFile name t).store.read (Path.ofText name).toText = .ok ((Utf8.encode t).getD [])) :
    (loadLines (Path.ofText name)).runIn
    (oneFile name t) = ((ofText (unifyLineEnds t)).mapError .source, oneFile name t) := by
  obtain ⟨bytes, written⟩ := Utf8.encode_exists t scalar
  rw [written, Option.getD_some] at held
  exact load_lines_run (Path.ofText name) t bytes (oneFile name t) written held

theorem returns_at_line_ends_change_nothing :
    let t : Text := "%charset a b\r\n\r\n%blank b\r\n> 0\n%\r"
    let s := oneFile "m.tm" t
    t.Scalar ∧ t.ReturnsEndLines ∧ s.store.read (Path.ofText "m.tm").toText = .ok ((Utf8.encode t).getD []) ∧
      ofText t = .error (.refused 5 "%" .noForm) ∧
      (loadLines (Path.ofText "m.tm")).runIn s = (.error (.source (.refused 5 "%" .noForm)), s) := by
  intro t s
  have scalar : t.Scalar := by decide +kernel
  have ends : t.ReturnsEndLines := by decide +kernel
  have held : s.store.read (Path.ofText "m.tm").toText = .ok ((Utf8.encode t).getD []) := by decide +kernel
  have refused : ofText t = .error (.refused 5 "%" .noForm) := by decide +kernel
  obtain ⟨bytes, written, reads⟩ := file_is_read_as_text_with_returns_at_ends t scalar
  have filed : s.store.read (Path.ofText "m.tm").toText = .ok bytes := by rw [held, written, Option.getD_some]
  have read := (reads (Path.ofText "m.tm") s filed).2 ends
  rw [refused] at read
  exact ⟨scalar, ends, held, refused, read⟩

def FilesReadAsTexts : Prop := ∀ (t : Text) (bytes : Bytes) (path : Path) (s : Session), Utf8.encode t = some bytes →
  s.store.read path.toText = .ok bytes → ((loadLines path).runIn s).1 = (ofText t).mapError .source

theorem lone_return_ends_a_line_of_a_file :
    let t : Text := "%charset a b\r%memory a\n"
    let s := oneFile "m.tm" t
    t.Scalar ∧ s.store.read (Path.ofText "m.tm").toText = .ok ((Utf8.encode t).getD []) ∧
      ofText t = .ok { charset := ["a", "b", "%"] } ∧
      (loadLines (Path.ofText "m.tm")).runIn s = (.ok { charset := ["a", "b"], memory := some "a" }, s) ∧
      ¬ FilesReadAsTexts := by
  intro t s
  have scalar : t.Scalar := by decide +kernel
  have held : s.store.read (Path.ofText "m.tm").toText = .ok ((Utf8.encode t).getD []) := by decide +kernel
  have alone : ofText t = .ok { charset := ["a", "b", "%"] } := by decide +kernel
  have lines : ofText (unifyLineEnds t) = .ok { charset := ["a", "b"], memory := some "a" } := by decide +kernel
  have read := one_file_run "m.tm" t scalar held
  rw [lines] at read
  refine ⟨scalar, held, alone, read, fun always => ?_⟩
  obtain ⟨bytes, written⟩ := Utf8.encode_exists t scalar
  have same := always t bytes (Path.ofText "m.tm") s written (by rw [held, written, Option.getD_some])
  rw [read, alone] at same
  exact absurd (congrArg Definition.memory (Except.ok.inj same)) (by decide)

end Definition

end TapeMachine
