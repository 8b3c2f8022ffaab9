import TapeMachine.Pool.Simulation
import TapeMachine.Proofs.StorePlaces

set_option autoImplicit false

namespace TapeMachine

structure Ending (suffix : Text) : Prop where
  clean : slash ∉ suffix
  long : 3 ≤ suffix.length

def resultsEnding : Text := ".jsonl"

def checkpointEnding : Text := "_checkpoint.json"

theorem results_ending : Ending resultsEnding := ⟨by decide, by decide⟩

theorem checkpoint_ending : Ending checkpointEnding := ⟨by decide, by decide⟩

theorem ending_filled (front suffix : Text) (ending : Ending suffix) :
    front ++ suffix ≠ [] ∧ front ++ suffix ≠ thisFolder ∧
    front ++ suffix ≠ parentFolder := by
  have long := ending.long
  have apart (t : Text) (short : t.length < 3) : front ++ suffix ≠ t := by
    intro same
    have length := congrArg List.length same
    rw [List.length_append] at length
    omega
  exact ⟨apart [] (by decide), apart thisFolder (by decide), apart parentFolder (by decide)⟩

theorem split_slashes_clean (t : Text) (clean : slash ∉ t) : splitSlashes t = [t] := by
  induction t with
  | nil => rfl
  | cons c t ih =>
      simp only [List.mem_cons, not_or] at clean
      rw [splitSlashes, if_neg (Ne.symm clean.1), ih clean.2]

theorem split_slashes_ending (t : Text) :
    ∃ front last, ∀ suffix, Ending suffix → splitSlashes (t ++ suffix) = front ++ [last ++ suffix] := by
  induction t with
  | nil => exact ⟨[], [], fun suffix ending => split_slashes_clean suffix ending.clean⟩
  | cons c t ih =>
      obtain ⟨front, last, split⟩ := ih
      by_cases cut : c = slash
      · refine ⟨[] :: front, last, ?_⟩
        intro suffix ending
        rw [List.cons_append, splitSlashes, if_pos cut, split suffix ending, List.cons_append]
      · cases front with
        | nil =>
            refine ⟨[], c :: last, ?_⟩
            intro suffix ending
            rw [List.cons_append, splitSlashes, if_neg cut, split suffix ending]
            rfl
        | cons first others =>
            refine ⟨(c :: first) :: others, last, ?_⟩
            intro suffix ending
            rw [List.cons_append, splitSlashes, if_neg cut, split suffix ending]
            rfl

theorem path_pieces_ending (t : Text) :
    ∃ front last, ∀ suffix, Ending suffix → pathPieces (t ++ suffix) = front ++ [last ++ suffix] := by
  obtain ⟨front, last, split⟩ := split_slashes_ending t
  refine ⟨front.filter (· ≠ []), last, ?_⟩
  intro suffix ending
  have filled := (ending_filled last suffix ending).1
  rw [pathPieces, split suffix ending, List.filter_append,
    List.filter_cons_of_pos (by rwa [decide_eq_true_eq]), List.filter_nil]

theorem root_ending (t suffix : Text) (ending : Ending suffix) : rootOf (t ++ suffix) = rootOf t := by
  have stop : suffix.takeWhile (· = slash) = [] := by
    cases suffix with
    | nil => rfl
    | cons c rest =>
        have first : c ≠ slash := fun same => ending.clean (by rw [same]; exact List.mem_cons_self)
        simp [first]
  have front : (t ++ suffix).takeWhile (· = slash) = t.takeWhile (· = slash) := by
    rw [List.takeWhile_append, stop]
    split
    · rename_i whole
      rw [List.append_nil, (List.takeWhile_sublist _).eq_of_length whole]
    · rfl
  rw [rootOf, rootOf, front]

theorem join_ending (separator last suffix : Text) (front : List Text) :
    Text.join separator (front ++ [last ++ suffix]) = Text.join separator (front ++ [last]) ++ suffix := by
  induction front with
  | nil => rfl
  | cons first others ih =>
      obtain ⟨second, rest, shape⟩ := List.exists_cons_of_ne_nil (show others ++ [last] ≠ [] by simp)
      obtain ⟨second', rest', shape'⟩ := List.exists_cons_of_ne_nil (show others ++ [last ++ suffix] ≠ [] by simp)
      rw [shape, shape'] at ih
      rw [List.cons_append, List.cons_append, shape, shape', Text.join, Text.join, ih,
        List.append_assoc, List.append_assoc,
        List.append_assoc]

theorem child_ending (folder : Path) (name : Text) :
    ∃ base, ∀ suffix, Ending suffix → (folder.child (name ++ suffix)).toText = base ++ suffix := by
  obtain ⟨front, last, split⟩ := path_pieces_ending name
  have names (suffix : Text) (ending : Ending suffix) :
      pathNames (name ++ suffix) = front.filter (· ≠ thisFolder) ++ [last ++ suffix] := by
    have filled := (ending_filled last suffix ending).2.1
    rw [pathNames, split suffix ending, List.filter_append,
      List.filter_cons_of_pos (by rwa [decide_eq_true_eq]), List.filter_nil]
  by_cases rooted : rootOf name = []
  · refine ⟨folder.root ++ Text.join "/" (folder.names ++ front.filter (· ≠ thisFolder) ++ [last]), ?_⟩
    intro suffix ending
    simp only [Path.child, Path.ofText, root_ending name suffix ending, rooted, ne_eq, not_true_eq_false,
      if_false, names suffix ending,
      Path.toText, List.append_eq_nil_iff, List.cons_ne_nil, and_false, ← List.append_assoc, join_ending]
  · refine ⟨rootOf name ++ Text.join "/" (front.filter (· ≠ thisFolder) ++ [last]), ?_⟩
    intro suffix ending
    simp only [Path.child, Path.ofText, root_ending name suffix ending, rooted, ne_eq, not_false_eq_true,
      if_true, names suffix ending,
      Path.toText, false_and, if_false, join_ending, List.append_assoc]

theorem follow_ending (here : Place) (last suffix : Text) (ending : Ending suffix) :
    Store.follow here (last ++ suffix) = here ++ [last ++ suffix] := by
  obtain ⟨_, notThis, notParent⟩ := ending_filled last suffix ending
  rw [Store.follow, if_neg (by simp [notThis, notParent]), if_pos (.inl notParent)]

theorem absolute_ending (base suffix : Text) (ending : Ending suffix) :
    isAbsolute (base ++ suffix) = isAbsolute base := by
  cases base with
  | nil =>
      cases suffix with
      | nil => rfl
      | cons c rest =>
          have first : c ≠ slash := fun same => ending.clean (by rw [same]; exact List.mem_cons_self)
          simp [isAbsolute, first]
  | cons c base => rfl

theorem target_ending (base : Text) :
    ∃ parent last, ∀ suffix, Ending suffix → Store.target (base ++ suffix) = parent ++ [last ++ suffix] := by
  obtain ⟨front, last, split⟩ := path_pieces_ending base
  refine ⟨front.foldl Store.follow (if isAbsolute base then Store.rootPlace else []), last, ?_⟩
  intro suffix ending
  rw [Store.target, split suffix ending, List.foldl_append, absolute_ending base suffix ending]
  exact follow_ending _ last suffix ending

theorem formless_iff (path : Text) :
    (StoreFault.formless path).2 = [] ↔ ∀ c ∈ path, c.isSurrogate = false ∨ c.isByteSurrogate = true := by
  induction path with
  | nil => simp [StoreFault.formless]
  | cons c path ih =>
      rw [List.forall_mem_cons]
      by_cases formed : c.isSurrogate = false ∨ c.isByteSurrogate = true
      · have kept : (!c.isSurrogate || c.isByteSurrogate) = true := by simpa using formed
        rw [← ih]
        simp [StoreFault.formless, kept, formed]
      · simp only [not_or, Bool.not_eq_false, Bool.not_eq_true] at formed
        simp [StoreFault.formless, formed.1, formed.2]

theorem walk_beside (s : Store) (path path' x y : Text) (front : List Text) (here place : Place)
    (walked : s.walk path here (front ++ [x]) = .ok place) :
    (∃ beside, s.walk path' here (front ++ [y]) = .ok beside) ∨ s.walk path' here (front ++ [y]) =
    .error (.longName path') := by
  induction front generalizing here with
  | nil =>
      rw [List.nil_append, Store.walk]
      by_cases long : longestName < nameSize y
      · exact .inr (by rw [if_pos long])
      · exact .inl ⟨_, by rw [if_neg long, if_pos rfl]⟩
  | cons name others ih =>
      have more (z : Text) : others ++ [z] ≠ [] := by simp
      simp only [List.cons_append, Store.walk, if_neg (more x), if_neg (more y)] at walked ⊢
      split at walked
      · cases walked
      · rename_i short
        rw [if_neg short]
        split at walked
        · exact ih _ walked
        · cases walked
        · cases walked

theorem locate_beside (s : Store) (base suffix other : Text) (ending : Ending suffix) (ending' : Ending other)
    (plain : ∀ c ∈ other, c.isSurrogate = false ∧ c.val ≠ 0) (place : Place)
    (located : s.locate (base ++ suffix) = .ok place) :
    (∃ beside, s.locate (base ++ other) = .ok beside) ∨ s.locate (base ++ other) =
    .error (.longName (base ++ other)) := by
  obtain ⟨formed, whole, _, _, walked⟩ := Store.locate_ok s _ place located
  obtain ⟨front, last, split⟩ := path_pieces_ending base
  have formed' : (StoreFault.formless (base ++ other)).2 = [] := by
    rw [formless_iff] at formed ⊢
    exact List.forall_mem_append.mpr ⟨fun c mem => formed c (List.mem_append_left suffix mem),
      fun c mem => .inl (plain c mem).1⟩
  have whole' : ((base ++ other).any fun c => c.val = 0) = false := by
    simp only [List.any_append, Bool.or_eq_false_iff, List.any_eq_false, decide_eq_true_eq] at whole ⊢
    exact ⟨whole.1, fun c mem => (plain c mem).2⟩
  rw [Store.locate, if_neg (by simp [formed']), if_neg (by simp [whole'])]
  split
  · exact .inr rfl
  · rw [if_neg (ending_filled base other ending').1]
    rw [split suffix ending, absolute_ending base suffix ending] at walked
    rw [split other ending', absolute_ending base other ending']
    exact walk_beside s _ _ _ _ front _ place walked

namespace PoolRun

def resultsPlace (run : PoolRun) : Place := Store.target run.resultsFile.toText

def checkpointPlace (run : PoolRun) : Place := Store.target run.checkpointFile.toText

theorem files_beside (run : PoolRun) :
    ∃ base, run.resultsFile.toText = base ++ resultsEnding ∧ run.checkpointFile.toText = base ++ checkpointEnding := by
  obtain ⟨base, shape⟩ := child_ending run.folder run.outputName
  exact ⟨base, shape _ results_ending, shape _ checkpoint_ending⟩

theorem places_beside (run : PoolRun) :
    ∃ parent last, run.resultsPlace = parent ++ [last ++ resultsEnding] ∧ run.checkpointPlace = parent ++
      [last ++ checkpointEnding] := by
  obtain ⟨base, results, checkpoint⟩ := run.files_beside
  obtain ⟨parent, last, shape⟩ := target_ending base
  refine ⟨parent, last, ?_, ?_⟩
  · rw [resultsPlace, results, shape _ results_ending]
  · rw [checkpointPlace, checkpoint, shape _ checkpoint_ending]

theorem results_apart (run other : PoolRun) : run.resultsPlace ≠ other.checkpointPlace := by
  obtain ⟨parent, last, results, _⟩ := run.places_beside
  obtain ⟨parent', last', _, checkpoint⟩ := other.places_beside
  rw [results, checkpoint]
  intro same
  have names := List.singleton_inj.mp (List.append_inj_right' same rfl)
  have letters : (last ++ resultsEnding).getLast? = (last' ++ checkpointEnding).getLast? := by rw [names]
  have first : List.getLast? resultsEnding = some (CodePoint.ofChar 'l') := by decide
  have second : List.getLast? checkpointEnding = some (CodePoint.ofChar 'n') := by decide
  rw [List.getLast?_append, List.getLast?_append, first, second] at letters
  exact absurd letters (by simp only [Option.some_or, Option.some.injEq]; decide)

theorem same_files (run other : PoolRun) :
    run.resultsPlace = other.resultsPlace ↔ run.checkpointPlace = other.checkpointPlace := by
  obtain ⟨parent, last, results, checkpoint⟩ := run.places_beside
  obtain ⟨parent', last', results', checkpoint'⟩ := other.places_beside
  have same (suffix : Text) : parent ++ [last ++ suffix] = parent' ++ [last' ++ suffix] ↔
      parent = parent' ∧ last = last' := by
    constructor
    · intro equal
      obtain ⟨front, back⟩ := List.append_inj' equal rfl
      exact ⟨front, List.append_cancel_right (List.singleton_inj.mp back)⟩
    · rintro ⟨rfl, rfl⟩
      rfl
  rw [results, results', checkpoint, checkpoint', same, same]

/-- The files that a run writes to, and that nothing else should. -/
def Own (run : PoolRun) (place : Place) : Prop := place = run.resultsPlace ∨ place = run.checkpointPlace

def Shares (run other : PoolRun) : Prop := run.resultsPlace = other.resultsPlace

variable {run kin : PoolRun}

theorem own_shared (shares : run.Shares kin) : run.Own = kin.Own := by
  funext place
  rw [Own, Own, shares, (run.same_files kin).mp shares]

theorem unshared_apart (apart : ¬ run.Shares kin) : ¬ kin.Own run.resultsPlace ∧ ¬ kin.Own run.checkpointPlace := by
  constructor
  · rintro (same | same)
    · exact apart same
    · exact run.results_apart kin same
  · rintro (same | same)
    · exact kin.results_apart run same.symm
    · exact apart ((run.same_files kin).mpr same)

end PoolRun

end TapeMachine
