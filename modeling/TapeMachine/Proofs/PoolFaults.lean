import TapeMachine.Proofs.BatchRuns
import TapeMachine.Proofs.ReportedFaults
import TapeMachine.Proofs.Tallies

set_option autoImplicit false

namespace TapeMachine

open Job

namespace PoolRun

variable (run : PoolRun) (d : Definition) (log : Option RunLog)

structure Proper : Prop where
  definition : ∃ path, run.definitionPath = .text path
  pool : ∃ path, run.poolFile = .text path
  results : ∃ path, run.resultsFolder = .text path
  batch : ∃ i, run.batchSize = .int i
  steps : ∃ i, run.maxSteps = .int i
  workers : ∃ i, run.workers = .int i

def Muddled (s : Session) : Prop := ∀ done, (Checkpoint.load run.checkpointFile).runIn s ≠
    (.ok (Checkpoint.naming done), s)

/-- The definition takes more steps on some word of the pool than a machine word can hold. -/
inductive Overlong (s : Session) : Prop where
  | steps (path pool : Text) (d : Definition) (words : List Text) (word : Text) (entry : Entry) (t : Session)
      (given : run.definitionPath = .text path)
      (defined : (Definition.loadLines (Path.ofText path)).runIn s = (.ok d, s))
      (given' : run.poolFile = .text pool) (files : s.Untouched t) (pooled : (Pool.load pool).runIn t = (.ok words, t))
      (listed : word ∈ words) (ran : d.runInput word run.maxSteps run.permissive = .ok entry)
      (long : Quantity.isSized entry.steps = false)

theorem batches_of_reported (batch : ∃ i, run.batchSize = .int i) (pending : List Text) :
    (lift (run.batchesOf pending)).Only Fault.Reported := by
  obtain ⟨i, given⟩ := batch
  refine only_lift _ _ fun fault failed => ?_
  rw [batchesOf, given] at failed
  rcases (bind_error _ _ _).mp failed with failed | ⟨_, _, absurdly⟩
  · obtain ⟨cause, stepped, rfl⟩ := (map_error_error _ _ _).mp failed
    rw [Quantity.stride] at stepped
    rcases (bind_error _ _ _).mp stepped with absurdly | ⟨_, _, stepped⟩
    · cases absurdly
    · split at stepped
      · cases stepped
        rfl
      · cases stepped
  · cases absurdly

section Faults

variable [Screen] (lawful : Screen.Lawful)

include lawful

theorem begin_fault (proper : run.Proper) (s s' : Session) (fault : Fault)
    (ran : run.begin.runIn s = (.error fault, s')) :
    fault.Ordinary ∨ ∃ u, s.Untouched u ∧ run.Muddled u := by
  obtain ⟨⟨path, given⟩, ⟨pool, given'⟩, ⟨folder, given''⟩, batch, _, _⟩ := proper
  simp only [begin, given, given', given'', Job.pathText, pure_bind] at ran
  rcases only_or _ _ _ (Definition.load_lines_reported _) _ _ _ ran with reported | ⟨d, t, defined, rest⟩
  · exact .inl (.inl reported)
  rw [same_run _ (Definition.load_lines_same _) _ _ _ defined] at rest
  rcases only_or _ _ _ (change_reported _) _ _ _ rest with reported | ⟨_, u, made, rest⟩
  · exact .inl (.inl reported)
  have steady := make_path_steady (fun _ => True) run.folder s
  rw [makePath, made] at steady
  rcases only_or _ _ _ (Pool.load_reported _) _ _ _ rest with reported | ⟨words, v, pooled, rest⟩
  · exact .inl (.inl reported)
  rw [same_run _ (Pool.load_same _) _ _ _ pooled] at rest
  by_cases clear : ∃ done, (Checkpoint.load run.checkpointFile).runIn u = (.ok (Checkpoint.naming done), u)
  · obtain ⟨done, loaded⟩ := clear
    rw [Job.run_bind, loaded] at rest
    dsimp only at rest
    rw [Checkpoint.words_naming, Job.run_bind, Job.run_lift] at rest
    refine .inl (only_bind _ _ _ (say_ordinary lawful _) (fun _ => reported_ordinary _ ?_) u fault s' rest)
    refine only_bind _ _ _ (append_text_reported _ _) fun _ => ?_
    exact only_bind _ _ _ (run.batches_of_reported batch _) fun _ => only_pure _ _
  · exact .inr ⟨u, steady, fun done loaded => clear ⟨done, loaded⟩⟩

section Batches

variable (clean : d.Clean) (limit : Nat) (bounded : Quantity.stepBound run.maxSteps = .ok limit)

include clean bounded

theorem run_words_refused (batch : List Text) : (batch.mapM (run.runWord d)).Only Fault.Refused := by
  intro s fault s' ran
  have outcome := (run.run_words d batch s).1
  rw [ran] at outcome
  obtain ⟨word, _, failed⟩ := map_all_failed _ batch fault outcome.symm
  obtain ⟨result, reported⟩ := run.report_exists d clean limit bounded word
  rw [heard, reported, ok_bind] at failed
  rcases (bind_error _ _ _).mp failed with failed | ⟨_, _, absurdly⟩
  · obtain ⟨t, _, message, rfl, refused⟩ := Screen.takes_refused _ fault failed
    exact Screen.refused_fault lawful t message refused
  · cases absurdly

theorem write_batch_ordinary (workers : ∃ i, run.workers = .int i) (number : Nat) (batch : List Text) :
    (run.writeBatch d number batch).Only Fault.Ordinary := by
  obtain ⟨i, given⟩ := workers
  refine only_bind _ _ _ (say_ordinary lawful _) fun _ =>
    only_bind _ _ _ (only_mapped _ _ _ fun cause failed => .inl ?_) fun _ => ?_
  · rw [given] at failed
    rcases (bind_error _ _ _).mp failed with absurdly | ⟨_, _, failed⟩
    · cases absurdly
    · split at failed
      · cases failed
        rfl
      · cases failed
  · refine only_bind _ _ _ (only_more _ _ _ (run.run_words_refused d lawful clean limit bounded batch)
      fun _ => .inr) fun results => ?_
    exact reported_ordinary _ (only_bind _ _ _ (RunLog.append_lines_reported _ _) fun _ => only_pure _ _)

omit [Screen] lawful clean bounded in
theorem log_entries_reported (entries : List Entry) :
    (logEntries log (entries.map Entry.toJson)).Only Fault.Reported := by
  cases log with
  | none => exact only_pure _ _
  | some l =>
      refine only_bind _ l.turnOver _ (fun s fault t ran => ?_) fun turned => ?_
      · rw [RunLog.run_turn_over] at ran
        cases ran
      refine only_bind _ _ _ (only_lift _ _ fun fault failed => ?_) fun sorted => ?_
      · rw [RunLog.outcomes_of_entries] at failed
        cases failed
      · refine only_bind _ _ _ (only_forM _ _ _ fun _ => RunLog.append_lines_reported _ _) fun _ => ?_
        exact RunLog.append_lines_reported _ _

theorem run_batches_ordinary (workers : ∃ i, run.workers = .int i) (number : Nat) (done : List Text)
    (batches : List (List Text)) :
    (run.runBatches d log number (Checkpoint.naming done) batches).Only Fault.Ordinary := by
  induction batches generalizing number done with
  | nil => exact only_pure _ _
  | cons batch rest ih =>
      refine only_bind _ _ _ (run.write_batch_ordinary d lawful clean limit bounded workers number batch)
        fun results => ?_
      intro s fault s' ran
      rcases bind_run_cases _ _ _ _ _ ran with ⟨_, failed, same⟩ | ⟨completed, t, saved, ran⟩
      · cases same
        rw [saveBatch, Checkpoint.extend_naming] at failed
        exact reported_ordinary _ (only_bind _ _ _ (only_lift _ _ fun _ absurdly => by cases absurdly)
          fun _ => only_bind _ _ _ (write_text_reported _ _) fun _ => only_pure _ _) s fault s' failed
      · rw [saveBatch, Checkpoint.extend_naming, Job.run_bind, Job.run_lift] at saved
        obtain ⟨_, _, _, same⟩ := (bind_run_ok _ _ _ _ _).mp saved
        cases same
        exact only_bind _ _ _ (reported_ordinary _ (log_entries_reported log _))
          (fun _ => only_bind _ _ _ (ih _ _) fun _ => only_pure _ _) t fault s' ran

end Batches

end Faults

theorem due_listed [Screen] (start : Start) (s t u : Session) (begun : run.Begun s t u start) :
    ∀ word ∈ start.due.flatten, word ∈ start.words := by
  intro word mem
  obtain ⟨size, _, cut⟩ := (bind_ok _ _ _).mp begun.cut
  obtain ⟨batch, listed, within⟩ := List.mem_flatten.mp mem
  rw [← Except.ok.inj cut] at listed
  exact List.mem_of_mem_filter (mem_batches size _ batch listed within)

section Ending

variable [Screen] [Arrays] (lawful : Screen.Lawful) (arrays : Arrays.Lawful)

include arrays

theorem summary_fault (start : Start) (s t u : Session) (begun : run.Begun s t u start) (files : s.Untouched t)
    (results : List WordResult) (heard : start.due.flatten.mapM (run.heard start.definition) = .ok results)
    (fault : SummaryFault) (failed : Summary.ofTallies (results.map WordResult.tally) = .error fault) :
    (Fault.summary fault).kind = .overflow ∧ run.Overlong s := by
  obtain ⟨path, given, defined⟩ := begun.defined
  obtain ⟨pool, given', pooled⟩ := begun.pooled
  obtain ⟨⟨cause, rfl, flaw⟩, entry, mem, large⟩ := Summary.of_results_fault arrays results fault failed
  obtain ⟨word, due, told⟩ := map_all_each _ _ results heard _ ((mem_decided results entry).mp mem)
  have listed := run.due_listed start s t u begun word due
  have ran := report_entry run start.definition word entry (run.heard_ok start.definition word _ told)
  refine ⟨?_, .steps path pool start.definition start.words word entry t
    given defined given' files pooled listed ran large⟩
  rw [Fault.kind, Fault.summaryKind, flaw]
  rfl

include lawful

theorem simulate_fault (proper : run.Proper) (s s' : Session) (fault : Fault)
    (ran : (run.simulate log).runIn s = (.error fault, s')) :
    fault.Ordinary ∨ (∃ u, s.Untouched u ∧ run.Muddled u) ∨ fault.kind = .overflow ∧ run.Overlong s := by
  rcases bind_run_cases _ _ _ _ _ ran with ⟨_, failed, same⟩ | ⟨start, t, started, rest⟩
  · cases same
    exact (run.begin_fault lawful proper s s' fault failed).imp_right .inl
  obtain ⟨m, begun⟩ := run.begin_ok s t start started
  obtain ⟨path, _, defined⟩ := begun.defined
  have clean := Definition.load_lines_clean _ _ _ _ defined
  have steady := make_path_steady (fun _ => True) run.folder s
  rw [begun.made] at steady
  by_cases clear : ∃ done, start.completed = Checkpoint.naming done
  · obtain ⟨done, named⟩ := clear
    obtain ⟨most, given⟩ := proper.steps
    have bounded : Quantity.stepBound run.maxSteps = .ok most.toNat := by rw [given]; rfl
    rw [named] at rest
    rcases only_or _ _ _
      (run.run_batches_ordinary _ log lawful clean _ bounded proper.workers 1 done start.due) _ _ _ rest with
      ordinary | ⟨results, u, batched, rest⟩
    · exact .inl ordinary
    have heard := run.run_batches_heard _ log 1 _ start.due t u results batched
    rcases bind_run_cases _ _ _ _ _ rest with ⟨_, failed, same⟩ | ⟨summary, v, _, rest⟩
    · cases same
      rw [run_lift] at failed
      obtain ⟨cause, summed, rfl⟩ := (map_error_error _ _ _).mp (Prod.mk.inj failed).1
      exact .inr (.inr (run.summary_fault arrays start s m t begun steady results heard cause summed))
    · exact .inl (only_bind _ _ _ (say_ordinary lawful _) (fun _ => only_pure _ _) v fault s' rest)
  · refine .inr (.inl ⟨m, steady, fun done loaded => clear ⟨done, ?_⟩⟩)
    exact Except.ok.inj (Prod.mk.inj (begun.loaded.symm.trans loaded)).1

end Ending

end PoolRun

end TapeMachine
