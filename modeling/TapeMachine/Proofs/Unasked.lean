import TapeMachine.Proofs.QuietJobs

set_option autoImplicit false

namespace TapeMachine

def Print.isQuestion : Print → Bool
  | .ask _ _ _ => true
  | _ => false

def Session.questions (s : Session) : List Print := s.printed.filter Print.isQuestion

structure Session.Unasked (s s' : Session) : Prop where
  day : s'.today = s.today
  answers : s'.answers = s.answers
  questions : s'.questions = s.questions

theorem Session.unasked_refl (s : Session) : s.Unasked s := ⟨rfl, rfl, rfl⟩

theorem Session.unasked_trans (a b c : Session) (before : a.Unasked b) (after : b.Unasked c) : a.Unasked c :=
  ⟨after.day.trans before.day, after.answers.trans before.answers, after.questions.trans before.questions⟩

namespace Job

variable {α β : Type}

theorem unasked_bind (job : Job α) (next : α → Job β) (first : job.Keeps Session.Unasked)
    (second : ∀ a, (next a).Keeps Session.Unasked) : (job >>= next).Keeps Session.Unasked :=
  keeps_bind _ Session.unasked_trans job next first second

theorem day_stays (job : Job α) (same : job.Keeps Session.Unasked) (s s' : Session) (outcome : Except Fault α)
    (ran : job.runIn s = (outcome, s')) : s'.today = s.today := by
  have kept := same s
  rw [ran] at kept
  exact kept.day

theorem lift_unasked (result : Except Fault α) : (lift result).Keeps Session.Unasked :=
  keeps_lift _ Session.unasked_refl result

theorem pure_unasked (a : α) : (pure a : Job α).Keeps Session.Unasked := keeps_pure _ Session.unasked_refl a

theorem throw_unasked (fault : Fault) : (throw fault : Job α).Keeps Session.Unasked :=
  keeps_throw _ Session.unasked_refl fault

theorem print_unasked [Screen] (p : Print) (plain : p.isQuestion = false) : (print p).Keeps Session.Unasked := by
  intro s
  have added : (s.printed ++ [p]).filter Print.isQuestion = s.questions := by simp [Session.questions, plain]
  rcases print_cases s p with shown | ⟨_, _, _, _, failed⟩
  · rw [shown]
    exact ⟨rfl, rfl, added⟩
  · rw [failed]
    exact Session.unasked_refl s

theorem warn_unasked [Screen] (t : Text) : (warn t).Keeps Session.Unasked := by
  intro s
  rw [run_warn]
  cases Screen.takes [t] <;> exact ⟨rfl, rfl, rfl⟩

theorem say_unasked [Screen] (t : Text) : (say t).Keeps Session.Unasked := print_unasked (.text t) rfl

theorem same_unasked (job : Job α) (same : job.Keeps Eq) : job.Keeps Session.Unasked := fun s =>
  ⟨congrArg Session.today (same s).symm, congrArg Session.answers (same s).symm,
    congrArg Session.questions (same s).symm⟩

theorem change_unasked (change : Store → Except StoreFault Store) : (changeStore change).Keeps Session.Unasked := by
  intro s
  rw [run_change]
  cases change s.store <;> exact ⟨rfl, rfl, rfl⟩

theorem append_text_unasked (path t : Text) : (appendText path t).Keeps Session.Unasked := by
  rw [appendText]
  split
  · exact change_unasked _
  · exact unasked_bind _ _ (change_unasked _) fun _ => throw_unasked _

theorem write_text_unasked (path t : Text) : (writeText path t).Keeps Session.Unasked :=
  unasked_bind _ _ (change_unasked _) fun _ => append_text_unasked path t

end Job

open Job

namespace RunLog

theorem append_lines_unasked (path : Text) (entries : List Json) :
    (appendLines path entries).Keeps Session.Unasked := by
  refine unasked_bind _ _ (append_text_unasked path _) ?_
  intro _
  split
  · exact throw_unasked _
  · exact pure_unasked _

theorem record_by_outcome_unasked (log : RunLog) (entries : List Json) :
    (log.recordByOutcome entries).Keeps Session.Unasked := by
  refine unasked_bind _ _ (lift_unasked _) fun sorted => ?_
  refine unasked_bind _ _ ?_ fun _ => append_lines_unasked _ _
  exact keeps_forM _ Session.unasked_trans Session.unasked_refl _ _ fun _ => append_lines_unasked _ _

end RunLog

namespace PoolRun

variable (run : PoolRun) (d : Definition)

theorem save_batch_unasked (completed : Json) (results : List WordResult) :
    (run.saveBatch completed results).Keeps Session.Unasked := by
  refine unasked_bind _ _ (lift_unasked _) fun completed => ?_
  exact unasked_bind _ _ (write_text_unasked _ _) fun _ => pure_unasked completed

theorem log_entries_unasked (log : Option RunLog) (entries : List Json) :
    (logEntries log entries).Keeps Session.Unasked := by
  cases log with
  | none => exact pure_unasked ()
  | some l => exact unasked_bind _ _ (fun _ => ⟨rfl, rfl, rfl⟩) fun turned => turned.record_by_outcome_unasked entries

variable [Screen]

theorem run_word_unasked (word : Text) : (run.runWord d word).Keeps Session.Unasked := by
  refine unasked_bind _ _ (lift_unasked _) fun result => ?_
  refine unasked_bind _ _ ?_ fun _ => pure_unasked result
  cases result with
  | decided entry => exact pure_unasked ()
  | failed word fault => exact warn_unasked _

theorem write_batch_unasked (number : Nat) (batch : List Text) :
    (run.writeBatch d number batch).Keeps Session.Unasked := by
  refine unasked_bind _ _ (say_unasked _) fun _ => ?_
  refine unasked_bind _ _ (lift_unasked _) fun _ => ?_
  refine unasked_bind _ _ ?_ fun results => ?_
  · exact keeps_mapM _ Session.unasked_trans Session.unasked_refl batch _ (run.run_word_unasked d)
  · exact unasked_bind _ _ (RunLog.append_lines_unasked _ _) fun _ => pure_unasked results

theorem begin_unasked : run.begin.Keeps Session.Unasked := by
  refine unasked_bind _ _ (same_unasked _ (path_text_same _)) fun path => ?_
  refine unasked_bind _ _ (same_unasked _ (Definition.load_lines_same _)) fun d => ?_
  refine unasked_bind _ _ (same_unasked _ (path_text_same _)) fun pool => ?_
  refine unasked_bind _ _ (same_unasked _ (path_text_same _)) fun _ => ?_
  refine unasked_bind _ _ (change_unasked _) fun _ => ?_
  refine unasked_bind _ _ (same_unasked _ (Pool.load_same _)) fun words => ?_
  refine unasked_bind _ _ (same_unasked _ (Checkpoint.load_same _)) fun completed => ?_
  refine unasked_bind _ _ (lift_unasked _) fun done => ?_
  refine unasked_bind _ _ (say_unasked _) fun _ => ?_
  refine unasked_bind _ _ (append_text_unasked _ _) fun _ => ?_
  exact unasked_bind _ _ (lift_unasked _) fun due => pure_unasked _

theorem run_batches_unasked (log : Option RunLog) (number : Nat) (completed : Json) (batches : List (List Text)) :
    (run.runBatches d log number completed batches).Keeps Session.Unasked := by
  induction batches generalizing number completed with
  | nil => exact pure_unasked []
  | cons batch rest ih =>
      refine unasked_bind _ _ (run.write_batch_unasked d number batch) fun results => ?_
      refine unasked_bind _ _ (run.save_batch_unasked completed results) fun completed => ?_
      refine unasked_bind _ _ (log_entries_unasked log _) fun _ => ?_
      exact unasked_bind _ _ (ih (number + 1) completed) fun others => pure_unasked _

theorem simulate_unasked [Arrays] (log : Option RunLog) : (run.simulate log).Keeps Session.Unasked := by
  refine unasked_bind _ _ run.begin_unasked fun start => ?_
  refine unasked_bind _ _ (run.run_batches_unasked _ log 1 _ _) fun results => ?_
  refine unasked_bind _ _ (lift_unasked _) fun summary => ?_
  exact unasked_bind _ _ (say_unasked _) fun _ => pure_unasked summary

variable (kept : Place → Prop) (day : Text)

def SteadyOn (s s' : Session) : Prop := s.today = day → s.Steady kept s' ∧ s'.today = day

omit [Screen] in
theorem steady_on {α : Type} (job : Job α) (steady : job.Keeps (Session.Steady kept))
    (same : job.Keeps Session.Unasked) :
    job.Keeps (SteadyOn kept day) := fun s here => ⟨steady s, (same s).day.trans here⟩

omit [Screen] in
theorem steady_on_bind {α β : Type} (job : Job α) (next : α → Job β) (first : job.Keeps (SteadyOn kept day))
    (second : ∀ a, (next a).Keeps (SteadyOn kept day)) : (job >>= next).Keeps (SteadyOn kept day) := by
  refine keeps_bind _ ?_ job next first second
  intro a b c before after here
  obtain ⟨front, still⟩ := before here
  obtain ⟨back, stays⟩ := after still
  exact ⟨Session.steady_trans kept a b c front back, stays⟩

theorem run_batches_steady_on (log : Option RunLog) (avoids : ∀ l ∈ log, (l.on day).Avoids kept)
    (number : Nat) (completed : Json)
    (batches : List (List Text)) (results : ¬ kept run.resultsPlace) (checkpoint : ¬ kept run.checkpointPlace) :
    (run.runBatches d log number completed batches).Keeps (SteadyOn kept day) := by
  induction batches generalizing number completed with
  | nil => exact steady_on kept day _ (keeps_steady kept _ (pure_quiet kept [])) (pure_unasked [])
  | cons batch rest ih =>
      have written := keeps_steady kept _ (run.write_batch_quiet kept d number batch results)
      refine steady_on_bind kept day _ _
        (steady_on kept day _ written (run.write_batch_unasked d number batch)) fun entries => ?_
      have saved := keeps_steady kept _ (run.save_batch_quiet kept completed entries checkpoint)
      refine steady_on_bind kept day _ _
        (steady_on kept day _ saved (run.save_batch_unasked completed entries)) fun completed => ?_
      refine steady_on_bind kept day _ _ ?_ fun _ => ?_
      · intro s here
        have logged := log_entries_quiet_on kept log s (by rwa [here]) ((decided entries).map Entry.toJson)
        exact ⟨Session.quiet_steady kept s _ logged, (log_entries_unasked log _ s).day.trans here⟩
      · refine steady_on_bind kept day _ _ (ih (number + 1) completed) fun others => ?_
        exact steady_on kept day _ (keeps_steady kept _ (pure_quiet kept _)) (pure_unasked _)

theorem simulate_steady_on [Arrays] (log : Option RunLog) (s : Session) (avoids : ∀ l ∈ log, (l.on s.today).Avoids kept)
    (results : ¬ kept run.resultsPlace) (checkpoint : ¬ kept run.checkpointPlace) :
    s.Steady kept ((run.simulate log).runIn s).2 := by
  have quiet {α : Type} (job : Job α) (quiet : job.Keeps (Session.Quiet kept)) (same : job.Keeps Session.Unasked) :
      job.Keeps (SteadyOn kept s.today) := steady_on kept s.today job (keeps_steady kept job quiet) same
  have ran : (run.simulate log).Keeps (SteadyOn kept s.today) := by
    refine steady_on_bind kept s.today _ _
      (steady_on kept s.today _ (run.begin_steady kept results) run.begin_unasked) fun start => ?_
    refine steady_on_bind kept s.today _ _
      (run.run_batches_steady_on _ kept s.today log avoids 1 _ _ results checkpoint) fun _ => ?_
    refine steady_on_bind kept s.today _ _ (quiet _ (lift_quiet kept _) (lift_unasked _)) fun summary => ?_
    refine steady_on_bind kept s.today _ _ (quiet _ (say_quiet kept _) (say_unasked _)) fun _ => ?_
    exact quiet _ (pure_quiet kept summary) (pure_unasked summary)
  exact (ran s rfl).1

end PoolRun

end TapeMachine
