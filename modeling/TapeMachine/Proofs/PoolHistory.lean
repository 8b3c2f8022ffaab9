import TapeMachine.StandIn
import TapeMachine.Proofs.RunStart

set_option autoImplicit false

namespace TapeMachine

/-- The input that a line of results tells to be done with: that of an entry that did not fail. -/
def finishedInput? (line : Text) : Option Text :=
  match Json.read line with
  | .ok (.object fields) =>
      if Fields.find? "status" fields = some (.text failedStatus) then none
      else match Fields.find? "input" fields with
        | some (.text input) => some input
        | _ => none
  | _ => none

def finishedInputs (lines : List Text) : List Text := lines.filterMap finishedInput?

theorem kept_read_back (result : WordResult) (kept : result.Kept) :
    Json.read result.toJson.compact = .ok result.toJson :=
  Json.compact_read_back 1 _ (result_plain result kept.scalar kept.writable) (by decide)

theorem finished_input_decided (entry : Entry) (kept : (WordResult.decided entry).Kept) :
    finishedInput? (WordResult.decided entry).toJson.compact = some entry.input := by
  have finished : entry.status.name ≠ failedStatus := by cases entry.status <;> decide
  rw [finishedInput?, kept_read_back _ kept]
  change (if some (Json.text entry.status.name) =
    some (.text failedStatus) then none else some entry.input) = some entry.input
  rw [if_neg]
  intro same
  exact finished (Json.text.inj (Option.some.inj same))

theorem finished_input_failed (input : Text) (fault : RunFault) (kept : (WordResult.failed input fault).Kept) :
    finishedInput? (WordResult.failed input fault).toJson.compact = none := by
  rw [finishedInput?, kept_read_back _ kept]
  rfl

theorem finished_inputs_lines (written : List WordResult) (kept : ∀ result ∈ written, result.Kept) :
    finishedInputs (written.map fun result => result.toJson.compact) = PoolRun.inputs written := by
  induction written with
  | nil => rfl
  | cons result rest ih =>
      obtain ⟨here, others⟩ := List.forall_mem_cons.mp kept
      have later := ih others
      cases result with
      | decided entry =>
          rw [finishedInputs, List.map_cons, List.filterMap_cons_some (finished_input_decided entry here)]
          exact congrArg (entry.input :: ·) later
      | failed input fault =>
          rw [finishedInputs, List.map_cons, List.filterMap_cons_none (finished_input_failed input fault here)]
          exact later

/-- A run in progress, with the batches that are still due. -/
structure Call where
  run : PoolRun
  definition : Definition
  number : Nat
  completed : Json
  due : List (List Text)

/-- Where the runs stand: no one runs, or one does and is between two batches, or midway between the
results of a batch and its checkpoint. -/
inductive Phase where
  | idle
  | between (call : Call)
  | midway (call : Call) (results : List WordResult)

def Phase.call? : Phase → Option Call
  | .idle => none
  | .between call => some call
  | .midway call _ => some call

section Histories

variable [Screen]

/-- The results that runs have written by and by to the files of one of them, which were not there
at first. A run that does not come to its end stops between two batches. Beside the runs, anything
may happen that leaves the two files alone. -/
inductive History (kin : PoolRun) : List WordResult → Phase → Session → Prop where
  | fresh (s : Session) (absent : ∀ place, kin.Own place → s.store.content? place = none) : History kin [] .idle s
  | outside (written : List WordResult) (s s' : Session) (before : History kin written .idle s)
      (alone : ∀ place, kin.Own place → s'.store.content? place = s.store.content? place) : History kin written .idle s'
  | refused (written : List WordResult) (s s' : Session) (run : PoolRun) (fault : Fault)
      (before : History kin written .idle s)
      (shares : run.Shares kin) (ran : run.begin.runIn s = (.error fault, s')) : History kin written .idle s'
  | called (written : List WordResult) (s s' : Session) (run : PoolRun) (start : PoolRun.Start)
      (before : History kin written .idle s)
      (shares : run.Shares kin) (ran : run.begin.runIn s = (.ok start, s')) :
      History kin written (.between ⟨run, start.definition, 1, start.completed, start.due⟩) s'
  | wrote (written results : List WordResult) (s s' : Session) (run : PoolRun) (d : Definition)
      (number : Nat) (completed : Json)
      (batch : List Text) (due : List (List Text))
      (before : History kin written (.between ⟨run, d, number, completed, batch :: due⟩) s)
      (ran : (run.writeBatch d number batch).runIn s = (.ok results, s')) :
      History kin (written ++ results) (.midway ⟨run, d, number, completed, due⟩ results) s'
  | saved (written results : List WordResult) (s s' : Session) (run : PoolRun) (d : Definition)
      (number : Nat) (completed named : Json)
      (due : List (List Text)) (before : History kin written (.midway ⟨run, d, number, completed, due⟩ results) s)
      (ran : (run.saveBatch completed results).runIn s = (.ok named, s')) :
      History kin written (.between ⟨run, d, number + 1, named, due⟩) s'
  | logged (written : List WordResult) (s : Session) (call : Call)
      (before : History kin written (.between call) s) (log : Option RunLog)
      (spares : ∀ l ∈ log, l.Spares kin.Own) (entries : List Json) :
      History kin written (.between call) ((PoolRun.logEntries log entries).runIn s).2
  | stopped (written : List WordResult) (s : Session) (call : Call) (before : History kin written (.between call) s) :
      History kin written .idle s

variable {kin run : PoolRun} {written : List WordResult} {done : List Text}

structure Call.Ready (call : Call) (kin : PoolRun) (done : List Text) (s : Session) : Prop where
  shares : call.run.Shares kin
  clean : call.definition.Clean
  scalar : ∀ batch ∈ call.due, ∀ word ∈ batch, word.Scalar
  completed : call.completed = Checkpoint.naming done
  files : call.run.Reachable s

omit [Screen] in
theorem ready_stays (call : Call) (s s' : Session) (ready : call.Ready kin done s)
    (quiet : s.Quiet (fun _ => False) s') :
    call.Ready kin done s' := { ready with files := call.run.reachable_stays _ s s' ready.files quiet }

def Phase.Sound (kin : PoolRun) (written : List WordResult) : Phase → Session → Prop
  | .idle, s => kin.Holds written (PoolRun.inputs written) s
  | .between call, s => kin.Holds written (PoolRun.inputs written) s ∧ call.Ready kin (PoolRun.inputs written) s
  | .midway call results, s => ∃ earlier, written = earlier ++ results ∧ kin.Holds written (PoolRun.inputs earlier) s ∧
      call.Ready kin (PoolRun.inputs earlier) s

theorem history_sound (phase : Phase) (s : Session) (history : History kin written phase s) :
    phase.Sound kin written s := by
  induction history with
  | fresh s absent => exact kin.fresh_holds s absent
  | outside written s s' before alone ih => exact ih.unchanged (alone _ (.inl rfl)) (alone _ (.inr rfl))
  | refused written s s' run fault before shares ran ih =>
      have held := run.begin_holds s ((PoolRun.holds_shared shares s).mpr ih)
      rw [ran] at held
      exact (PoolRun.holds_shared shares s').mp held
  | called written s s' run start before shares ran ih =>
      have held := run.begin_holds s ((PoolRun.holds_shared shares s).mpr ih)
      rw [ran] at held
      have started := run.begin_started s s' start ((PoolRun.holds_shared shares s).mpr ih) ran
      exact ⟨(PoolRun.holds_shared shares s').mp held, shares, started.clean,
        run.started_scalar start s' started, started.completed,
        started.files⟩
  | wrote written results s s' run d number completed batch due before ran ih =>
      obtain ⟨held, ready⟩ := ih
      obtain ⟨here, later⟩ := List.forall_mem_cons.mp ready.scalar
      have ledger := (PoolRun.holds_shared ready.shares s).mpr held
      obtain ⟨added, after, _, all⟩ := run.write_batch_ledger d number batch s ledger ready.clean here _ s' ran
      obtain ⟨rfl, _⟩ := all results rfl
      -- From here on the file is one batch ahead of the checkpoint, which a stop may leave so.
      have quiet := run.write_batch_quiet (fun _ => False) d number batch id s
      rw [ran] at quiet
      exact ⟨written, rfl, (PoolRun.holds_shared ready.shares s').mp after,
        ready_stays _ s s' { ready with scalar := later } quiet⟩
  | saved written results s s' run d number completed named due before ran ih =>
      obtain ⟨earlier, rfl, held, ready⟩ := ih
      have scalar : ∀ result ∈ results, result.Scalar :=
        fun result mem => (held.kept result (List.mem_append_right earlier mem)).scalar
      obtain rfl := ready.completed
      have quiet := run.save_batch_quiet (fun _ => False) (Checkpoint.naming (PoolRun.inputs earlier)) results id s
      rw [ran] at quiet
      have ledger := (PoolRun.holds_shared ready.shares s).mpr held
      rcases run.save_batch_ledger results s ledger scalar _ s' ran with ⟨_, absurdly, _⟩ | ⟨same, after⟩
      · cases absurdly
      cases same
      rw [← PoolRun.inputs_append] at after ⊢
      exact ⟨(PoolRun.holds_shared ready.shares s').mp after, { ready_stays _ s s' ready quiet with completed := rfl }⟩
  | logged written s call before log spares entries ih =>
      obtain ⟨held, ready⟩ := ih
      have shares := ready.shares
      have avoids : ∀ l ∈ log, (l.on s.today).Avoids call.run.Own := fun l mem =>
        l.spares_avoids _ (PoolRun.own_shared shares ▸ spares l mem) s.today
      have kept := call.run.log_ledger log s avoids entries ((PoolRun.holds_shared shares s).mpr held)
      have quiet := PoolRun.log_entries_quiet (fun _ => False) log (fun _ _ => ⟨fun _ => id, fun _ _ => id⟩) entries s
      exact ⟨(PoolRun.holds_shared shares _).mp kept, ready_stays call s _ ready quiet⟩
  | stopped written s call before ih => exact ih.1

theorem run_batches_history (d : Definition) (log : Option RunLog) (spares : ∀ l ∈ log, l.Spares kin.Own)
    (number : Nat) (completed : Json)
    (batches : List (List Text)) (s s' : Session) (results : List WordResult)
    (before : History kin written (.between ⟨run, d, number, completed, batches⟩) s)
    (ran : (run.runBatches d log number completed batches).runIn s = (.ok results, s')) :
    ∃ last, History kin (written ++ results) (.between last) s' := by
  induction batches generalizing written number completed s results with
  | nil =>
      cases ran
      exact ⟨_, by rwa [List.append_nil]⟩
  | cons batch later ih =>
      rw [PoolRun.runBatches] at ran
      obtain ⟨first, t, wrote, ran⟩ := (Job.bind_run_ok _ _ _ _ _).mp ran
      obtain ⟨named, u, saved, ran⟩ := (Job.bind_run_ok _ _ _ _ _).mp ran
      obtain ⟨_, v, noted, ran⟩ := (Job.bind_run_ok _ _ _ _ _).mp ran
      obtain ⟨others, w, after, ran⟩ := (Job.bind_run_ok _ _ _ _ _).mp ran
      cases ran
      have midway := History.wrote written first s t run d number completed batch later before wrote
      have between := History.saved _ first t u run d number completed named later midway saved
      have logged := History.logged _ u _ between log spares ((PoolRun.decided first).map Entry.toJson)
      rw [noted] at logged
      obtain ⟨last, reached⟩ := ih (number + 1) named v others logged after
      exact ⟨last, by rwa [← List.append_assoc]⟩

theorem simulate_history [Arrays] (log : Option RunLog) (spares : ∀ l ∈ log, l.Spares kin.Own)
    (shares : run.Shares kin) (s s' : Session)
    (summary : Summary) (before : History kin written .idle s) (ran : (run.simulate log).runIn s = (.ok summary, s')) :
    ∃ results, History kin (written ++ results) .idle s' := by
  rw [PoolRun.simulate] at ran
  obtain ⟨start, t, begun, ran⟩ := (Job.bind_run_ok _ _ _ _ _).mp ran
  obtain ⟨results, u, batches, ran⟩ := (Job.bind_run_ok _ _ _ _ _).mp ran
  have same := (run.run_conclude results u).2
  rw [ran] at same
  have called := History.called written s t run start before shares begun
  obtain ⟨last, ended⟩ :=
    run_batches_history start.definition log spares 1 start.completed start.due t u results called batches
  exact ⟨results, .outside _ u _ (.stopped _ u last ended) fun place _ => congrArg (·.content? place) same⟩

theorem checkpoint_names_finished_inputs (phase : Phase) (s : Session)
    (history : History kin written phase s) (call : Call)
    (running : phase.call? = some call) :
    ∃ lines named, (Job.readLines call.run.resultsFile.toText).runIn s = (.ok lines, s) ∧
      (Checkpoint.load call.run.checkpointFile).runIn s = (.ok (.list (named.map .text)), s) ∧
      lines = written.map (fun result => result.toJson.compact) ∧
      (∀ result ∈ written, Json.read result.toJson.compact = .ok result.toJson) ∧
      named <+: finishedInputs lines ∧ (phase = .between call → named = finishedInputs lines) := by
  have sound := history_sound phase s history
  cases phase with
  | idle => cases running
  | between current =>
      cases running
      obtain ⟨held, ready⟩ := sound
      obtain ⟨results, checkpoint⟩ :=
        call.run.reachable_reads s ready.files ((PoolRun.holds_shared ready.shares s).mpr held)
      have finished := finished_inputs_lines written held.kept
      refine ⟨_, _, results, checkpoint, rfl,
        fun result mem => kept_read_back result (held.kept result mem), ?_, fun _ => finished.symm⟩
      exact ⟨[], by rw [List.append_nil, finished]⟩
  | midway current fresh =>
      cases running
      obtain ⟨earlier, rfl, held, ready⟩ := sound
      obtain ⟨results, checkpoint⟩ :=
        call.run.reachable_reads s ready.files ((PoolRun.holds_shared ready.shares s).mpr held)
      have finished := finished_inputs_lines (earlier ++ fresh) held.kept
      refine ⟨_, _, results, checkpoint, rfl, fun result mem => kept_read_back result (held.kept result mem), ?_, ?_⟩
      · rw [finished, PoolRun.inputs_append]
        exact List.prefix_append _ _
      · intro absurdly
        cases absurdly

end Histories

section Files

open scoped StandIn

def onesFiles : Session where
  store := {
    files := [(["p.txt"], (Utf8.encode "1\n2\n").getD []),
      (["yes.tm"], (Utf8.encode "%charset 1 _\n%blank _\n> 0\n1 A\n0 1 -> 1 r 1\n").getD []),
      (["no.tm"], (Utf8.encode "%charset 1 _\n%blank _\n> 0\n1 R\n0 1 -> 1 r 1\n").getD [])] }

def acceptingRun : PoolRun where
  definitionPath := .text "yes.tm"
  poolFile := .text "p.txt"

def rejectingRun : PoolRun where
  definitionPath := .text "no.tm"
  poolFile := .text "p.txt"

def afterAccepting : Session := ((acceptingRun.simulate none).runIn onesFiles).2

theorem ones_files_fresh (place : Place) (own : acceptingRun.Own place) : onesFiles.store.content? place = none := by
  rcases own with rfl | rfl <;> decide +kernel

theorem checkpoint_names_finished_inputs_of_second_run :
    ∃ written call s, History acceptingRun written (.between call) s ∧ Phase.call?
    (.between call) = some call ∧ ∃ lines,
      (Job.readLines call.run.resultsFile.toText).runIn s = (.ok lines, s) ∧ lines.length = 2 ∧
      (Checkpoint.load call.run.checkpointFile).runIn s = (.ok (.list [.text "1"]), s) ∧
        finishedInputs lines = [("1" : Text)] := by
  have ends : (do
      let summary ← ((acceptingRun.simulate none).runIn onesFiles).1.toOption
      let start ← (rejectingRun.begin.runIn afterAccepting).1.toOption
      let lines ← ((Job.readLines rejectingRun.resultsFile.toText).runIn
        (rejectingRun.begin.runIn afterAccepting).2).1.toOption
      let named ← ((Checkpoint.load rejectingRun.checkpointFile).runIn
        (rejectingRun.begin.runIn afterAccepting).2).1.toOption
      return (lines.length, named)) = some (2, Json.list [.text "1"]) := by decide +kernel
  simp only [Option.bind_eq_bind, Option.bind_eq_some_iff, Option.pure_def, Option.some.injEq, Prod.mk.injEq] at ends
  obtain ⟨summary, ended, start, begun, found, counted, checkpoint, listed, length, rfl⟩ := ends
  obtain ⟨written, history⟩ := simulate_history none (by simp) rfl onesFiles afterAccepting summary
    (.fresh onesFiles ones_files_fresh)
    (Job.run_result _ summary ended)
  have called := History.called written _ _ rejectingRun start history rfl (Job.run_result _ start begun)
  obtain ⟨lines, named, read, load, _, _, _, all⟩ := checkpoint_names_finished_inputs _ _ called _ rfl
  rw [read] at counted
  rw [load] at listed
  obtain rfl := Option.some.inj counted
  have named_one : named = [("1" : Text)] := by
    have same := (Checkpoint.words_naming named).symm.trans (congrArg Checkpoint.words (Option.some.inj listed))
    exact Except.ok.inj same
  subst named_one
  exact ⟨written, _, _, called, rfl, _, read, length, load, (all rfl).symm⟩

end Files

end TapeMachine
