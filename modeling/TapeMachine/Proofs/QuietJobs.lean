import TapeMachine.Proofs.JobRuns
import TapeMachine.Proofs.PoolPlaces

set_option autoImplicit false

namespace TapeMachine

structure Session.Quiet (kept : Place → Prop) (s s' : Session) : Prop where
  folders : s.store.SameFolders s'.store
  stays : s.store.KeepsFiles s'.store
  files : ∀ place, kept place → s'.store.content? place = s.store.content? place

structure Session.Steady (kept : Place → Prop) (s s' : Session) : Prop where
  folders : s.store.KeepsFolders s'.store
  files : ∀ place, kept place → s'.store.content? place = s.store.content? place

/-- Every file is as it was. -/
abbrev Session.Untouched (s s' : Session) : Prop := s.Steady (fun _ => True) s'

namespace Session

variable (kept : Place → Prop)

theorem quiet_refl (s : Session) : s.Quiet kept s := ⟨fun _ => Iff.rfl, fun _ held => held, fun _ _ => rfl⟩

theorem quiet_trans (a b c : Session) (first : a.Quiet kept b) (second : b.Quiet kept c) : a.Quiet kept c :=
  ⟨fun place => (second.folders place).trans (first.folders place),
    fun place held => second.stays place (first.stays place held),
    fun place mem => (second.files place mem).trans (first.files place mem)⟩

theorem quiet_same_store (s s' : Session) (same : s'.store = s.store) : s.Quiet kept s' := by
  refine ⟨?_, ?_, ?_⟩
  · rw [same]
    exact fun _ => Iff.rfl
  · rw [same]
    exact fun _ held => held
  · rw [same]
    exact fun _ _ => rfl

theorem steady_refl (s : Session) : s.Steady kept s := ⟨fun _ folder => folder, fun _ _ => rfl⟩

theorem steady_trans (a b c : Session) (first : a.Steady kept b) (second : b.Steady kept c) : a.Steady kept c :=
  ⟨fun place folder => second.folders place (first.folders place folder),
    fun place mem => (second.files place mem).trans (first.files place mem)⟩

theorem quiet_steady (s s' : Session) (quiet : s.Quiet kept s') : s.Steady kept s' :=
  ⟨fun place => (quiet.folders place).mpr, quiet.files⟩

end Session

namespace Job

variable {α : Type} (kept : Place → Prop)

theorem quiet_bind {β : Type} (job : Job α) (next : α → Job β) (first : job.Keeps (Session.Quiet kept))
    (second : ∀ a, (next a).Keeps (Session.Quiet kept)) : (job >>= next).Keeps (Session.Quiet kept) :=
  keeps_bind _ (Session.quiet_trans kept) job next first second

theorem steady_bind {β : Type} (job : Job α) (next : α → Job β) (first : job.Keeps (Session.Steady kept))
    (second : ∀ a, (next a).Keeps (Session.Steady kept)) : (job >>= next).Keeps (Session.Steady kept) :=
  keeps_bind _ (Session.steady_trans kept) job next first second

theorem same_bind {β : Type} (job : Job α) (next : α → Job β) (first : job.Keeps Eq) (second : ∀ a, (next a).Keeps Eq) :
    (job >>= next).Keeps Eq := keeps_bind Eq (fun _ _ _ => Eq.trans) job next first second

theorem lift_quiet (result : Except Fault α) : (lift result).Keeps (Session.Quiet kept) :=
  keeps_lift _ (Session.quiet_refl kept) result

theorem pure_quiet (a : α) : (pure a : Job α).Keeps (Session.Quiet kept) := keeps_pure _ (Session.quiet_refl kept) a

theorem throw_quiet (fault : Fault) : (throw fault : Job α).Keeps (Session.Quiet kept) :=
  keeps_throw _ (Session.quiet_refl kept) fault

theorem keeps_steady (job : Job α) (quiet : job.Keeps (Session.Quiet kept)) : job.Keeps (Session.Steady kept) :=
  fun s => Session.quiet_steady kept s _ (quiet s)

theorem update_quiet (path : Text) (change : Bytes → Bytes) (away : ¬ kept (Store.target path)) :
    (changeStore (·.update path change)).Keeps (Session.Quiet kept) := by
  intro s
  rw [run_change]
  cases updated : s.store.update path change with
  | error fault => exact Session.quiet_refl kept s
  | ok store =>
      obtain ⟨folders, files⟩ := Store.update_changes s.store store path change updated
      refine ⟨folders, Store.update_keeps_files s.store store path change updated, ?_⟩
      intro place mem
      have elsewhere : place ≠ Store.target path := fun same => away (same ▸ mem)
      rw [files place, if_neg elsewhere]

theorem append_text_quiet (path t : Text) (away : ¬ kept (Store.target path)) : (appendText path t).Keeps
    (Session.Quiet kept) := by
  rw [appendText]
  split
  · exact update_quiet kept path _ away
  · exact quiet_bind kept _ _ (update_quiet kept path _ away) fun _ => throw_quiet kept _

theorem write_text_quiet (path t : Text) (away : ¬ kept (Store.target path)) : (writeText path t).Keeps
    (Session.Quiet kept) :=
  quiet_bind kept _ _ (update_quiet kept path _ away) fun _ => append_text_quiet kept path t away

theorem print_quiet [Screen] (p : Print) : (print p).Keeps (Session.Quiet kept) := by
  intro s
  apply Session.quiet_same_store
  rcases print_cases s p with shown | ⟨_, _, _, _, failed⟩
  · rw [shown, Session.shown_store]
  · rw [failed]

theorem say_quiet [Screen] (t : Text) : (say t).Keeps (Session.Quiet kept) := print_quiet kept (.text t)

theorem make_path_steady (path : Path) : (makePath path).Keeps (Session.Steady kept) := by
  intro s
  rw [makePath, run_change]
  cases made : s.store.makePath path with
  | error fault => exact Session.steady_refl kept s
  | ok store =>
      obtain ⟨folders, files⟩ := Store.make_path_within_ok s.store store _ path made
      exact ⟨folders, fun place _ => files place⟩

theorem make_folders_steady (path : Text) : (makeFolders path).Keeps (Session.Steady kept) := by
  intro s
  rw [makeFolders, run_change]
  cases made : s.store.makeFolders path with
  | error fault => exact Session.steady_refl kept s
  | ok store =>
      obtain ⟨folders, files⟩ := Store.make_folders_within_ok s.store store path _ made
      exact ⟨folders, fun place _ => files place⟩

theorem read_bytes_same (path : Text) : (readBytes path).Keeps Eq := by
  intro s
  rw [run_read]
  split <;> rfl

theorem find_same (path : Text) : (find? path).Keeps Eq := by
  intro s
  rw [run_find]
  split <;> rfl

theorem path_text_same (given : Json) : (pathText given).Keeps Eq := by
  intro s
  cases given <;> rfl

theorem keeps_same (job : Job α) (same : job.Keeps Eq) : job.Keeps (Session.Quiet kept) := by
  intro s
  exact Session.quiet_same_store kept s _ (congrArg Session.store (same s).symm)

theorem read_text_same (path : Text) : (readText path).Keeps Eq := by
  refine same_bind _ _ (read_bytes_same path) ?_
  intro bytes s
  split <;> rfl

theorem read_lines_same (path : Text) : (readLines path).Keeps Eq := by
  refine same_bind _ _ (read_bytes_same path) ?_
  intro bytes s
  split <;> rfl

end Job

open Job

theorem Settings.read_json_same (path : Text) : (Settings.readJson path).Keeps Eq :=
  same_bind _ _ (read_text_same path) fun _ => keeps_lift Eq Eq.refl _

theorem Checkpoint.load_same (path : Path) : (Checkpoint.load path).Keeps Eq := by
  refine same_bind _ _ (find_same _) ?_
  intro found
  split
  · exact keeps_pure Eq Eq.refl _
  · refine same_bind _ _ (Settings.read_json_same _) ?_
    intro value
    split
    · exact keeps_pure Eq Eq.refl _
    · exact keeps_throw Eq Eq.refl _

theorem Pool.load_same (path : Text) : (Pool.load path).Keeps Eq :=
  same_bind _ _ (read_lines_same path) fun _ => keeps_pure Eq Eq.refl _

theorem Definition.load_lines_same (path : Path) : (Definition.loadLines path).Keeps Eq :=
  same_bind _ _ (read_text_same _) fun _ => keeps_lift Eq Eq.refl _

variable (kept : Place → Prop)

namespace RunLog

theorem append_lines_quiet (path : Text) (entries : List Json) (away : ¬ kept (Store.target path)) :
    (appendLines path entries).Keeps (Session.Quiet kept) := by
  refine quiet_bind kept _ _ (append_text_quiet kept path _ away) ?_
  intro _
  split
  · exact throw_quiet kept _
  · exact pure_quiet kept _

def on (log : RunLog) (day : Text) : RunLog := { log with day }

structure Avoids (log : RunLog) : Prop where
  current : ¬ kept (Store.target log.current)
  outcomes : ∀ outcome, ¬ kept (Store.target (log.outcomeFile outcome))

/-- On no day does the log write to one of the files. -/
structure Spares (log : RunLog) : Prop where
  current : ∀ day, ¬ kept (Store.target (RunLog.mk log.folder log.tag day).current)
  outcomes : ∀ day outcome, ¬ kept (Store.target ((RunLog.mk log.folder log.tag day).outcomeFile outcome))

theorem spares_avoids (log : RunLog) (spares : log.Spares kept) (day : Text) : (log.on day).Avoids kept :=
  ⟨spares.current day, spares.outcomes day⟩

@[simp] theorem run_turn_over (log : RunLog) (s : Session) : log.turnOver.runIn s = (.ok (log.on s.today), s) := rfl

theorem record_by_outcome_quiet (log : RunLog) (avoids : log.Avoids kept) (entries : List Json) :
    (log.recordByOutcome entries).Keeps (Session.Quiet kept) := by
  refine quiet_bind kept _ _ (lift_quiet kept _) ?_
  intro sorted
  refine quiet_bind kept _ _ ?_ fun _ => append_lines_quiet kept _ _ avoids.current
  exact keeps_forM _ (Session.quiet_trans kept) (Session.quiet_refl kept) _ _ fun outcome =>
    append_lines_quiet kept _ _ (avoids.outcomes outcome)

end RunLog

namespace PoolRun

theorem log_entries_quiet_on (log : Option RunLog) (s : Session)
    (avoids : ∀ l ∈ log, (l.on s.today).Avoids kept) (entries : List Json) :
    s.Quiet kept ((logEntries log entries).runIn s).2 := by
  cases log with
  | none => exact pure_quiet kept () s
  | some l =>
      have recorded := RunLog.record_by_outcome_quiet kept (l.on s.today) (avoids l rfl) entries s
      change Session.Quiet kept s ((l.turnOver >>= fun turned => turned.recordByOutcome entries).runIn s).2
      rw [run_bind, RunLog.run_turn_over]
      exact recorded

theorem log_entries_quiet (log : Option RunLog) (spares : ∀ l ∈ log, l.Spares kept) (entries : List Json) :
    (logEntries log entries).Keeps (Session.Quiet kept) :=
  fun s => log_entries_quiet_on kept log s (fun l mem => l.spares_avoids kept (spares l mem) s.today) entries

variable (run : PoolRun) (d : Definition)

section Warnings

variable [Screen]

def warnings : WordResult → List Text
  | .decided _ => []
  | .failed word fault => [warning word fault]

/-- What becomes of a word whose warning must be printed, too. -/
def heard (word : Text) : Except Fault WordResult := do
  let result ← run.report d word
  Screen.takes (warnings result)
  return result

theorem heard_ok (word : Text) (result : WordResult) (heard : run.heard d word = .ok result) :
    run.report d word = .ok result := by
  obtain ⟨told, reported, rest⟩ := (bind_ok _ _ _).mp heard
  obtain ⟨_, _, same⟩ := (bind_ok _ _ _).mp rest
  rwa [← Except.ok.inj same]

theorem heard_taken (word : Text) (result : WordResult) (reported : run.report d word = .ok result)
    (taken : ∀ t ∈ warnings result, Screen.refuses t = none) : run.heard d word = .ok result := by
  rw [heard, reported, ok_bind, Screen.takes_all _ taken]
  rfl

theorem heard_all (words : List Text) (results : List WordResult) (heard : words.mapM (run.heard d) = .ok results) :
    words.mapM (run.report d) = .ok results := by
  induction words generalizing results with
  | nil => exact heard
  | cons word rest ih =>
      rw [List.mapM_cons] at heard ⊢
      obtain ⟨result, first, heard⟩ := (bind_ok _ _ _).mp heard
      obtain ⟨others, later, same⟩ := (bind_ok _ _ _).mp heard
      rw [run.heard_ok d word result first, ok_bind, ih others later, ok_bind]
      exact same

end Warnings

variable [Screen]

theorem run_word (word : Text) (s : Session) :
    ((run.runWord d word).runIn s).1 = run.heard d word ∧ ((run.runWord d word).runIn s).2.store = s.store := by
  rw [runWord, run_bind, run_lift, heard]
  cases run.report d word with
  | error fault => exact ⟨rfl, rfl⟩
  | ok result =>
      cases result with
      | decided entry => exact ⟨rfl, rfl⟩
      | failed word fault =>
          simp only [warnOf, run_bind, run_warn, ok_bind, warnings]
          cases Screen.takes [warning word fault] <;> exact ⟨rfl, rfl⟩

theorem run_words (batch : List Text) (s : Session) :
    ((batch.mapM (run.runWord d)).runIn s).1 = batch.mapM (run.heard d) ∧
      ((batch.mapM (run.runWord d)).runIn s).2.store = s.store := by
  induction batch generalizing s with
  | nil => exact ⟨rfl, rfl⟩
  | cons word rest ih =>
      obtain ⟨told, same⟩ := run.run_word d word s
      rw [List.mapM_cons, List.mapM_cons, run_bind, ← told]
      cases first : (run.runWord d word).runIn s with
      | mk outcome t =>
          rw [first] at same
          cases outcome with
          | error fault => exact ⟨rfl, same⟩
          | ok result =>
              obtain ⟨others, still⟩ := ih t
              simp only [run_bind]
              rw [← others]
              cases after : (rest.mapM (run.runWord d)).runIn t with
              | mk outcome' t' =>
                  rw [after] at still
                  cases outcome' <;> exact ⟨rfl, still.trans same⟩

theorem write_batch_quiet (number : Nat) (batch : List Text) (away : ¬ kept run.resultsPlace) :
    (run.writeBatch d number batch).Keeps (Session.Quiet kept) := by
  refine quiet_bind kept _ _ (say_quiet kept _) fun _ => ?_
  refine quiet_bind kept _ _ (lift_quiet kept _) fun _ => ?_
  refine quiet_bind kept _ _ (fun s => Session.quiet_same_store kept s _ (run.run_words d batch s).2) fun results => ?_
  exact quiet_bind kept _ _ (RunLog.append_lines_quiet kept _ _ away) fun _ => pure_quiet kept results

omit [Screen] in
theorem save_batch_quiet (completed : Json) (results : List WordResult) (away : ¬ kept run.checkpointPlace) :
    (run.saveBatch completed results).Keeps (Session.Quiet kept) := by
  refine quiet_bind kept _ _ (lift_quiet kept _) fun completed => ?_
  exact quiet_bind kept _ _ (write_text_quiet kept _ _ away) fun _ => pure_quiet kept completed

theorem run_batches_quiet (log : Option RunLog) (spares : ∀ l ∈ log, l.Spares kept) (number : Nat) (completed : Json)
    (batches : List (List Text)) (results : ¬ kept run.resultsPlace) (checkpoint : ¬ kept run.checkpointPlace) :
    (run.runBatches d log number completed batches).Keeps (Session.Quiet kept) := by
  induction batches generalizing number completed with
  | nil => exact pure_quiet kept []
  | cons batch rest ih =>
      refine quiet_bind kept _ _ (run.write_batch_quiet kept d number batch results) fun written => ?_
      refine quiet_bind kept _ _ (run.save_batch_quiet kept completed written checkpoint) fun completed => ?_
      refine quiet_bind kept _ _ (log_entries_quiet kept log spares _) fun _ => ?_
      exact quiet_bind kept _ _ (ih (number + 1) completed) fun others => pure_quiet kept _

theorem run_batches_stay (log : Option RunLog) (number : Nat) (completed : Json) (batches : List (List Text)) :
    (run.runBatches d log number completed batches).Keeps (Session.Quiet fun _ => False) :=
  run.run_batches_quiet (fun _ => False) d log (fun _ _ => ⟨fun _ => id, fun _ _ => id⟩) number completed batches id id

theorem begin_steady (results : ¬ kept run.resultsPlace) : run.begin.Keeps (Session.Steady kept) := by
  have quiet {α : Type} (job : Job α) (same : job.Keeps Eq) := keeps_steady kept job (keeps_same kept job same)
  have lifted {α : Type} (result : Except Fault α) := keeps_steady kept _ (lift_quiet kept result)
  refine steady_bind kept _ _ (quiet _ (path_text_same _)) fun path => ?_
  refine steady_bind kept _ _ (quiet _ (Definition.load_lines_same _)) fun d => ?_
  refine steady_bind kept _ _ (quiet _ (path_text_same _)) fun pool => ?_
  refine steady_bind kept _ _ (quiet _ (path_text_same _)) fun _ => ?_
  refine steady_bind kept _ _ (make_path_steady kept _) fun _ => ?_
  refine steady_bind kept _ _ (quiet _ (Pool.load_same _)) fun words => ?_
  refine steady_bind kept _ _ (quiet _ (Checkpoint.load_same _)) fun completed => ?_
  refine steady_bind kept _ _ (lifted _) fun done => ?_
  refine steady_bind kept _ _ (keeps_steady kept _ (say_quiet kept _)) fun _ => ?_
  refine steady_bind kept _ _ (keeps_steady kept _ (append_text_quiet kept _ _ results)) fun _ => ?_
  exact steady_bind kept _ _ (lifted _) fun due => keeps_steady kept _ (pure_quiet kept _)

section Concluding

variable [Arrays]

/-- How a run ends with its results. -/
def concluded (results : List WordResult) : Except Fault Summary := do
  let summary ← (Summary.ofTallies (results.map WordResult.tally)).mapError .summary
  Screen.takes [run.success summary.runs]
  return summary

theorem run_conclude (results : List WordResult) (s : Session) :
    ((run.conclude results).runIn s).1 = run.concluded results ∧
      ((run.conclude results).runIn s).2.store = s.store := by
  rw [conclude, run_bind, run_lift, concluded]
  cases (Summary.ofTallies (results.map WordResult.tally)).mapError Fault.summary with
  | error fault => exact ⟨rfl, rfl⟩
  | ok summary =>
      simp only [run_bind, say, run_print, ok_bind, Print.markup]
      cases Screen.takes [run.success summary.runs] <;> exact ⟨rfl, rfl⟩

theorem conclude_quiet (results : List WordResult) : (run.conclude results).Keeps (Session.Quiet kept) :=
  fun s => Session.quiet_same_store kept s _ (run.run_conclude results s).2

end Concluding

theorem simulate_steady [Arrays] (log : Option RunLog) (spares : ∀ l ∈ log, l.Spares kept)
    (results : ¬ kept run.resultsPlace)
    (checkpoint : ¬ kept run.checkpointPlace) : (run.simulate log).Keeps (Session.Steady kept) := by
  refine steady_bind kept _ _ (run.begin_steady kept results) fun start => ?_
  refine steady_bind kept _ _
    (keeps_steady kept _ (run.run_batches_quiet kept _ log spares 1 _ _ results checkpoint)) fun _ => ?_
  exact keeps_steady kept _ (run.conclude_quiet kept _)

end PoolRun

end TapeMachine
