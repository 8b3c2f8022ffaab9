import TapeMachine.Proofs.Ledger
import TapeMachine.Proofs.Unasked

set_option autoImplicit false

namespace TapeMachine.PoolRun

variable (run : PoolRun) (d : Definition) {written : List WordResult} {done : List Text}

def inputs (results : List WordResult) : List Text := (decided results).map Entry.input

@[simp] theorem inputs_append (xs ys : List WordResult) : inputs (xs ++ ys) = inputs xs ++ inputs ys := by
  simp [inputs, decided]

@[simp] theorem mem_decided (results : List WordResult) (entry : Entry) :
    entry ∈ decided results ↔ .decided entry ∈ results := by
  rw [decided, List.mem_filterMap]
  constructor
  · rintro ⟨result, mem, found⟩
    cases result with
    | decided e =>
        cases found
        exact mem
    | failed input fault => cases found
  · intro mem
    exact ⟨.decided entry, mem, rfl⟩

theorem mem_inputs (results : List WordResult) (word : Text) :
    word ∈ inputs results ↔ ∃ entry, .decided entry ∈ results ∧ entry.input = word := by
  simp only [inputs, List.mem_map, mem_decided]

theorem inputs_scalar (results : List WordResult) (scalar : ∀ result ∈ results, result.Scalar) :
    ∀ word ∈ inputs results, word.Scalar := by
  intro word mem
  obtain ⟨entry, listed, rfl⟩ := (mem_inputs results word).mp mem
  exact (scalar _ listed).1

theorem batch_scalar (clean : d.Clean) (batch : List Text) (scalar : ∀ word ∈ batch, word.Scalar)
    (results : List WordResult)
    (reported : batch.mapM (run.report d) = .ok results) : ∀ result ∈ results, result.Scalar := by
  intro result mem
  obtain ⟨word, listed, told⟩ := map_all_each _ batch results reported result mem
  exact (report_scalar run d clean word result told (scalar word listed)).1

abbrev Holds (written : List WordResult) (done : List Text) (s : Session) : Prop :=
  Ledger run.resultsPlace run.checkpointPlace written done s.store

theorem holds_shared {run kin : PoolRun} (shares : run.Shares kin) (s : Session) :
    run.Holds written done s ↔ kin.Holds written done s := by
  rw [Holds, Holds, shares, (run.same_files kin).mp shares]

theorem fresh_holds (s : Session) (absent : ∀ place, run.Own place → s.store.content? place = none) :
    run.Holds [] [] s where
  results := by rw [absent _ (.inl rfl)]; rfl
  completed := .inl ⟨absent _ (.inr rfl), rfl⟩
  kept := by simp
  scalar := by simp

structure Adds (written : List WordResult) (done batch : List Text) (added : List WordResult)
    (outcome : Except Fault (List WordResult))
    (s : Session) : Prop where
  holds : run.Holds (written ++ added) done s
  reported : ∀ result ∈ added, ∃ word ∈ batch, run.report d word = .ok result
  ended : ∀ results, outcome = .ok results → added = results ∧ batch.mapM (run.report d) = .ok results

theorem nothing_added (batch : List Text) (fault : Fault) (s s' : Session)
    (ledger : run.Holds written done s) (same : s'.store = s.store) :
    run.Adds d written done batch [] (.error fault) s' where
  holds := by
    rw [List.append_nil, Holds, same]
    exact ledger
  reported := by simp
  ended := fun _ absurdly => by cases absurdly

section Writing

variable [Screen]

theorem write_batch_ledger (number : Nat) (batch : List Text) (s : Session)
    (ledger : run.Holds written done s) (clean : d.Clean)
    (scalar : ∀ word ∈ batch, word.Scalar) (outcome : Except Fault (List WordResult)) (s' : Session)
    (ran : (run.writeBatch d number batch).runIn s = (outcome, s')) :
    ∃ added, run.Adds d written done batch added outcome s' := by
  rw [writeBatch] at ran
  rcases Job.bind_run_cases _ _ _ _ _ ran with ⟨fault, failed, rfl⟩ | ⟨_, u, said, ran⟩
  · exact ⟨[], run.nothing_added d batch fault s s' ledger (Job.print_same_store s _ s' _ failed)⟩
  obtain rfl := Job.say_ran s _ u said
  rcases Job.bind_run_cases _ _ _ _ _ ran with ⟨fault, failed, rfl⟩ | ⟨_, t, checked, ran⟩
  · rw [Job.run_lift] at failed
    exact ⟨[], run.nothing_added d batch fault s s' ledger (congrArg Session.store (Prod.mk.inj failed).2).symm⟩
  rw [Job.run_lift] at checked
  obtain ⟨_, rfl⟩ := Prod.mk.inj checked
  have words := run.run_words d batch (s.told (announced number batch.length))
  rcases Job.bind_run_cases _ _ _ _ _ ran with ⟨fault, failed, rfl⟩ | ⟨results, t, reported, ran⟩
  · rw [failed] at words
    exact ⟨[], run.nothing_added d batch fault s s' ledger words.2⟩
  rw [reported] at words
  obtain ⟨heard, same⟩ := words
  have told := (run.heard_all d batch results heard.symm).symm
  have whole := run.batch_scalar d clean batch scalar results told.symm
  have ready : run.Holds written done t := by
    rw [Holds, same]
    exact ledger
  obtain ⟨added, part, held, all⟩ := append_lines_ledger run.resultsFile.toText results t ready rfl
    (run.results_apart run) whole
  have listed : ∀ result ∈ added, ∃ word ∈ batch, run.report d word = .ok result := fun result mem =>
    map_all_each _ batch results told.symm result (part.subset mem)
  rcases Job.bind_run_cases _ _ _ _ _ ran with ⟨fault, failed, rfl⟩ | ⟨_, u, appended, ran⟩
  · rw [failed] at held
    exact ⟨added, held, listed, fun _ absurdly => by cases absurdly⟩
  · rw [appended] at held all
    cases ran
    refine ⟨added, held, listed, ?_⟩
    intro results' same'
    cases same'
    exact ⟨all rfl, told.symm⟩

end Writing

theorem save_batch_ledger (results : List WordResult) (s : Session) (ledger : run.Holds written done s)
    (scalar : ∀ result ∈ results, result.Scalar) (outcome : Except Fault Json) (s' : Session)
    (ran : (run.saveBatch (Checkpoint.naming done) results).runIn s = (outcome, s')) :
    (∃ fault, outcome = .error fault ∧ s' = s) ∨
      outcome = .ok (Checkpoint.naming (done ++ inputs results)) ∧ run.Holds written (done ++ inputs results) s' := by
  have named : ∀ word ∈ done ++ inputs results, word.Scalar :=
    List.forall_mem_append.mpr ⟨ledger.scalar, inputs_scalar results scalar⟩
  rw [saveBatch, Checkpoint.extend_naming, Job.run_bind, Job.run_lift] at ran
  change (Checkpoint.save run.checkpointFile (Checkpoint.naming (done ++ inputs results)) >>= fun _ =>
    (pure (Checkpoint.naming (done ++ inputs results)) : Job Json)).runIn s = (outcome, s') at ran
  rw [Job.run_bind] at ran
  rcases save_ledger run.checkpointFile _ s ledger rfl (run.results_apart run) named with
    ⟨fault, same⟩ | ⟨store, same, held⟩
  · rw [same] at ran
    cases ran
    exact .inl ⟨fault, rfl, rfl⟩
  · rw [same] at ran
    cases ran
    exact .inr ⟨rfl, held⟩

theorem log_ledger (log : Option RunLog) (s : Session) (avoids : ∀ l ∈ log, (l.on s.today).Avoids run.Own)
    (entries : List Json)
    (ledger : run.Holds written done s) : run.Holds written done ((logEntries log entries).runIn s).2 := by
  have quiet := log_entries_quiet_on run.Own log s avoids entries
  exact ledger.unchanged (quiet.files _ (.inl rfl)) (quiet.files _ (.inr rfl))

/-- How far a run on some words has come: the results of whole batches are named in the checkpoint
as far as they did not fail, and those of a batch that was stopped are not. -/
structure Reaches (written : List WordResult) (done words : List Text) (whole rest : List WordResult)
    (outcome : Except Fault (List WordResult)) (s : Session) : Prop where
  holds : run.Holds (written ++ whole ++ rest) (done ++ inputs whole) s
  reported : ∀ result ∈ whole ++ rest, ∃ word ∈ words, run.report d word = .ok result
  ended : ∀ results, outcome = .ok results → rest = [] ∧ whole = results ∧ words.mapM (run.report d) = .ok results

theorem failed_reaches (words : List Text) (whole rest : List WordResult) (fault : Fault) (s : Session)
    (holds : run.Holds (written ++ whole ++ rest) (done ++ inputs whole) s)
    (reported : ∀ result ∈ whole ++ rest, ∃ word ∈ words, run.report d word = .ok result) :
    run.Reaches d written done words whole rest (.error fault) s :=
  ⟨holds, reported, fun _ absurdly => by cases absurdly⟩

theorem reaches_more (batch words : List Text) (first whole rest : List WordResult)
    (outcome : Except Fault (List WordResult)) (s : Session)
    (told : batch.mapM (run.report d) = .ok first)
    (after : run.Reaches d (written ++ first) (done ++ inputs first) words whole rest outcome s) :
    run.Reaches d written done (batch ++ words) (first ++ whole) rest (outcome.map (first ++ ·)) s where
  holds := by
    have holds := after.holds
    rw [List.append_assoc written, List.append_assoc done] at holds
    rwa [inputs_append]
  reported := by
    intro result mem
    rw [List.append_assoc] at mem
    rcases List.mem_append.mp mem with here | later
    · obtain ⟨word, inside, reported⟩ := map_all_each _ batch first told result here
      exact ⟨word, List.mem_append_left words inside, reported⟩
    · obtain ⟨word, inside, reported⟩ := after.reported result later
      exact ⟨word, List.mem_append_right batch inside, reported⟩
  ended := by
    intro results ended
    obtain ⟨others, same, rfl⟩ := (map_ok _ _ _).mp ended
    obtain ⟨nothing, rfl, others⟩ := after.ended others same
    refine ⟨nothing, rfl, ?_⟩
    rw [List.mapM_append, told, others]
    rfl

theorem run_batches_reaches [Screen] (log : Option RunLog) (clean : d.Clean) (number : Nat) (batches : List (List Text))
    (scalar : ∀ batch ∈ batches, ∀ word ∈ batch, word.Scalar) (s : Session)
    (avoids : ∀ l ∈ log, (l.on s.today).Avoids run.Own)
    (ledger : run.Holds written done s) (outcome : Except Fault (List WordResult)) (s' : Session)
    (ran : (run.runBatches d log number (Checkpoint.naming done) batches).runIn s = (outcome, s')) :
    ∃ whole rest, run.Reaches d written done batches.flatten whole rest outcome s' := by
  -- On the batches that are left. The ledger carries it: what the file holds and the checkpoint names.
  induction batches generalizing number written done s outcome with
  | nil =>
      cases ran
      refine ⟨[], [], by simpa [inputs, decided] using ledger, by simp, ?_⟩
      intro results same
      cases same
      exact ⟨rfl, rfl, rfl⟩
  | cons batch later ih =>
      obtain ⟨first, others⟩ := List.forall_mem_cons.mp scalar
      have within (added : List WordResult)
        (listed : ∀ result ∈ added, ∃ word ∈ batch, run.report d word = .ok result) :
          ∀ result ∈ added, ∃ word ∈ (batch :: later).flatten, run.report d word = .ok result := by
        intro result mem
        obtain ⟨word, inside, told⟩ := listed result mem
        exact ⟨word, List.mem_append_left _ inside, told⟩
      -- A batch is written, saved and logged in turn, and a fault in each of these leaves a ledger.
      rw [runBatches] at ran
      rcases Job.bind_run_cases _ _ _ _ _ ran with ⟨fault, failed, rfl⟩ | ⟨results, t, wrote, ran⟩
      · obtain ⟨added, held, listed, _⟩ := run.write_batch_ledger d number batch s ledger clean first _ s' failed
        exact ⟨[], added, run.failed_reaches d _ [] added fault s' (by simpa [inputs, decided] using held)
          (within added listed)⟩
      obtain ⟨added, held, listed, all⟩ := run.write_batch_ledger d number batch s ledger clean first _ t wrote
      obtain ⟨rfl, told⟩ := all results rfl
      have clear := run.batch_scalar d clean batch first added told
      rcases Job.bind_run_cases _ _ _ _ _ ran with ⟨fault, failed, rfl⟩ | ⟨completed, u, saved, ran⟩
      · rcases run.save_batch_ledger added t held clear _ s' failed with ⟨_, _, rfl⟩ | ⟨absurdly, _⟩
        · exact ⟨[], added, run.failed_reaches d _ [] added fault s' (by simpa [inputs, decided] using held)
            (within added listed)⟩
        · cases absurdly
      rcases run.save_batch_ledger added t held clear _ u saved with ⟨_, absurdly, _⟩ | ⟨same, kept⟩
      · cases absurdly
      cases same
      have day : u.today = s.today := (Job.day_stays _ (run.save_batch_unasked _ added) t u _ saved).trans
        (Job.day_stays _ (run.write_batch_unasked d number batch) s t _ wrote)
      have logged := run.log_ledger log u (by rwa [day]) ((decided added).map Entry.toJson) kept
      rcases Job.bind_run_cases _ _ _ _ _ ran with ⟨fault, failed, rfl⟩ | ⟨_, v, noted, ran⟩
      · rw [failed] at logged
        exact ⟨added, [],
          run.failed_reaches d _ added [] fault s' (by simpa using logged) (by simpa using within added listed)⟩
      rw [noted] at logged
      have day : v.today = s.today := (Job.day_stays _ (log_entries_unasked log _) u v _ noted).trans day
      rcases Job.bind_run_cases _ _ _ _ _ ran with ⟨fault, failed, rfl⟩ | ⟨others', w, ended, ran⟩
      · obtain ⟨whole, rest, after⟩ := ih (number + 1) others v (by rwa [day]) logged _ failed
        exact ⟨added ++ whole, rest, run.reaches_more d batch _ added whole rest _ s' told after⟩
      · cases ran
        obtain ⟨whole, rest, after⟩ := ih (number + 1) others v (by rwa [day]) logged _ ended
        exact ⟨added ++ whole, rest, run.reaches_more d batch _ added whole rest _ _ told after⟩

end TapeMachine.PoolRun
