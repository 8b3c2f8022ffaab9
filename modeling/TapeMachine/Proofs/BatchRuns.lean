import TapeMachine.Proofs.RunStart
import TapeMachine.Proofs.TameTexts
import TapeMachine.Proofs.WordReports

set_option autoImplicit false

namespace TapeMachine

namespace Store

/-- A path that leads to a file, or to a place for one. -/
structure Open (s : Store) (path : Text) : Prop where
  located : ∃ place, s.locate path = .ok place
  plain : s.node (target path) ≠ .folder
  file : namesFolder path = false

variable (s s' : Store) (path : Text)

instance : Decidable (s.Open path) :=
  decidable_of_iff
    ((s.locate path).toOption.isSome = true ∧ s.node (target path) ≠ .folder ∧ namesFolder path = false) <| by
    constructor
    · rintro ⟨located, plain, file⟩
      exact ⟨is_some_ok _ located, plain, file⟩
    · rintro ⟨⟨place, located⟩, plain, file⟩
      exact ⟨by rw [located]; rfl, plain, file⟩

theorem open_stays (same : s.SameFolders s') (opens : s.Open path) : s'.Open path := by
  obtain ⟨place, located⟩ := opens.located
  exact ⟨⟨place, locate_keeps s s' (same_folders_keeps s s' same) path place located⟩,
    fun folder => opens.plain ((same _).mp folder),
    opens.file⟩

theorem open_update (opens : s.Open path) (change : Bytes → Bytes) : ∃ t, s.update path change = .ok t := by
  obtain ⟨place, located⟩ := opens.located
  have plain := opens.plain
  rw [← locate_target s path place located] at plain
  exact ⟨_, update_again s path change place located plain opens.file⟩

end Store

namespace Job

theorem run_append_open (path t : Text) (bytes : Bytes) (encoded : Utf8.encode t = some bytes) (s : Session)
    (opens : s.store.Open path) :
    ∃ store, s.store.append path bytes = .ok store ∧ (appendText path t).runIn s = (.ok (), { s with store }) := by
  obtain ⟨store, appended⟩ := s.store.open_update path opens (· ++ bytes)
  have written : s.store.append path bytes = .ok store := appended
  exact ⟨store, written, by rw [run_append s path t bytes encoded, run_change, written]⟩

theorem run_write_open (path t : Text) (bytes : Bytes) (encoded : Utf8.encode t = some bytes) (s : Session)
    (opens : s.store.Open path) :
    ∃ store, (writeText path t).runIn s = (.ok (), { s with store }) ∧ store.content? (Store.target path) ≠ none := by
  obtain ⟨emptied, written⟩ := s.store.open_update path opens fun _ => []
  have first : s.store.write path [] = .ok emptied := written
  obtain ⟨same, _⟩ := Store.update_changes _ _ _ _ written
  obtain ⟨store, appended, ran⟩ := run_append_open path t bytes encoded { s with store := emptied }
    (Store.open_stays _ _ path same opens)
  refine ⟨store, ?_, ?_⟩
  · rw [writeText, run_bind, writeBytes, run_change, first]
    exact ran
  · rw [(Store.update_changes _ _ _ _ appended).2, if_pos rfl]
    exact Option.some_ne_none _

theorem for_all_ok {α : Type} (r : Session → Session → Prop)
    (joins : ∀ a b c, r a b → r b c → r a c) (stays : ∀ a, r a a)
    (items : List α) (job : α → Job Unit) (keeps : ∀ a, (job a).Keeps r) (s : Session)
    (ends : ∀ a ∈ items, ∀ t, r s t → ((job a).runIn t).1 = .ok ()) : ((items.forM job).runIn s).1 = .ok () := by
  induction items generalizing s with
  | nil => rfl
  | cons a rest ih =>
      obtain ⟨first, others⟩ := List.forall_mem_cons.mp ends
      have here := first s (stays s)
      have kept := keeps a s
      cases ran : (job a).runIn s with
      | mk outcome t =>
          rw [ran] at here kept
          cases here
          rw [run_forM_cons s t job a rest ran]
          exact ih t fun b mem u after => others b mem u (joins s t u kept after)

end Job

/-- The results up to the first that has no text. -/
def WordResult.told (results : List WordResult) : List WordResult :=
  results.takeWhile fun result => result.toJson.isWritable

def WordResult.allTold (results : List WordResult) : Bool := results.all fun result => result.toJson.isWritable

namespace WordResult

theorem told_all (results : List WordResult) (all : allTold results = true) : told results = results := by
  rw [told, List.takeWhile_eq_self_iff]
  simpa [allTold] using all

theorem told_append (xs ys : List WordResult) : told (xs ++ ys) = if allTold xs then xs ++ told ys else told xs := by
  rw [told, List.takeWhile_append]
  by_cases all : allTold xs = true
  · have whole := told_all xs all
    rw [told] at whole
    rw [if_pos all, whole, if_pos rfl, told]
  · have short : ¬ (told xs).length = xs.length := by
      intro same
      have whole := (List.takeWhile_prefix _).eq_of_length same
      rw [List.takeWhile_eq_self_iff] at whole
      exact all (by simpa [allTold] using whole)
    rw [told] at short
    rw [if_neg all, if_neg short, told]

theorem told_kept (results : List WordResult) (scalar : ∀ result ∈ results, result.Scalar) :
    ∀ result ∈ told results, result.Kept := by
  intro result mem
  have writable := List.mem_takeWhile_imp mem
  exact ⟨scalar result ((List.takeWhile_prefix _).subset mem), writable⟩

end WordResult

open WordResult

namespace RunLog

theorem append_lines_open (path : Text) (entries : List Json) (s : Session) (opens : s.store.Open path) :
    ∃ bytes store, Utf8.encode (lines (entries.takeWhile Json.isWritable)) = some bytes ∧
      s.store.append path bytes = .ok store ∧
      (appendLines path entries).runIn s =
        (if entries.all Json.isWritable then .ok () else .error .longNumber, { s with store }) := by
  obtain ⟨bytes, encoded⟩ := inked_encoded (lines _) (lines_inked (entries.takeWhile Json.isWritable))
  obtain ⟨store, appended, ran⟩ := Job.run_append_open path _ bytes encoded s opens
  refine ⟨bytes, store, encoded, appended, ?_⟩
  rw [appendLines, Job.run_bind, ran]
  cases entries.all Json.isWritable <;> rfl

theorem append_lines_ok (path : Text) (entries : List Json)
    (writable : ∀ entry ∈ entries, entry.isWritable = true) (s : Session)
    (opens : s.store.Open path) :
    ∃ bytes store, Utf8.encode (lines entries) = some bytes ∧ s.store.append path bytes = .ok store ∧
      (appendLines path entries).runIn s = (.ok (), { s with store }) := by
  obtain ⟨bytes, store, encoded, appended, ran⟩ := append_lines_open path entries s opens
  rw [List.takeWhile_eq_self_iff.mpr writable] at encoded
  rw [if_pos (List.all_eq_true.mpr writable)] at ran
  exact ⟨bytes, store, encoded, appended, ran⟩

theorem append_lines_run (path : Text) (results : List WordResult) (s : Session) (opens : s.store.Open path) :
    ∃ bytes store, Utf8.encode (linesOf (told results)) = some bytes ∧ s.store.append path bytes = .ok store ∧
      (appendLines path (results.map WordResult.toJson)).runIn s =
        (if allTold results then .ok () else .error .longNumber, { s with store }) := by
  have taken : lines ((results.map WordResult.toJson).takeWhile Json.isWritable) = linesOf (told results) := by
    rw [List.takeWhile_map]
    rfl
  have same : (results.map WordResult.toJson).all Json.isWritable = allTold results := by
    rw [List.all_map]
    rfl
  rw [← taken, ← same]
  exact append_lines_open path _ s opens

variable (kept : Place → Prop)

/-- The log of the day can be written, and none of its files is one of those. -/
structure Serves (log : RunLog) (s : Session) : Prop where
  avoids : (log.on s.today).Avoids kept
  current : s.store.Open (log.on s.today).current
  outcomes : ∀ outcome, s.store.Open ((log.on s.today).outcomeFile outcome)

theorem every_outcome (p : Outcome → Prop) : (∀ outcome, p outcome) ↔ p .accepted ∧ p .rejected ∧ p .unhalted := by
  constructor
  · intro every
    exact ⟨every _, every _, every _⟩
  · rintro ⟨accepted, rejected, unhalted⟩ outcome
    cases outcome
    · exact accepted
    · exact rejected
    · exact unhalted

instance (p : Outcome → Prop) [DecidablePred p] : Decidable (∀ outcome, p outcome) :=
  decidable_of_iff _ (every_outcome p).symm

instance [DecidablePred kept] (log : RunLog) : Decidable (log.Avoids kept) :=
  decidable_of_iff (¬ kept (Store.target log.current) ∧ ∀ outcome, ¬ kept (Store.target (log.outcomeFile outcome)))
    ⟨fun ⟨current, outcomes⟩ => ⟨current, outcomes⟩, fun avoids => ⟨avoids.current, avoids.outcomes⟩⟩

instance [DecidablePred kept] (log : RunLog) (s : Session) : Decidable (log.Serves kept s) :=
  decidable_of_iff ((log.on s.today).Avoids kept ∧ s.store.Open (log.on s.today).current ∧
      ∀ outcome, s.store.Open ((log.on s.today).outcomeFile outcome))
    ⟨fun ⟨avoids, current, outcomes⟩ => ⟨avoids, current, outcomes⟩,
      fun serves => ⟨serves.avoids, serves.current, serves.outcomes⟩⟩

theorem serves_fewer (log : RunLog) (fewer : Place → Prop) (within : ∀ place, fewer place → kept place) (s : Session)
    (serves : log.Serves kept s) : log.Serves fewer s :=
  ⟨⟨fun hit => serves.avoids.current (within _ hit),
    fun outcome hit => serves.avoids.outcomes outcome (within _ hit)⟩, serves.current,
    serves.outcomes⟩

theorem serves_stays (log : RunLog) (s s' : Session) (other : Place → Prop) (quiet : s.Quiet other s')
    (day : s'.today = s.today)
    (serves : log.Serves kept s) : log.Serves kept s' := by
  obtain ⟨avoids, current, outcomes⟩ := serves
  rw [← day] at avoids current outcomes
  exact ⟨avoids, Store.open_stays _ _ _ quiet.folders current,
    fun outcome => Store.open_stays _ _ _ quiet.folders (outcomes outcome)⟩

theorem append_entries_ok (path : Text) (entries : List Entry)
    (kept : ∀ entry ∈ entries, (WordResult.decided entry).Kept) (s : Session)
    (opens : s.store.Open path) : ((appendLines path (entries.map Entry.toJson)).runIn s).1 = .ok () := by
  have writable : ∀ json ∈ entries.map Entry.toJson, json.isWritable = true := by
    intro json mem
    obtain ⟨entry, listed, rfl⟩ := List.mem_map.mp mem
    exact (kept entry listed).writable
  obtain ⟨_, _, _, _, ran⟩ := append_lines_ok path _ writable s opens
  exact congrArg Prod.fst ran

def sortedEntries (entries : List Entry) : List (Outcome × Json) :=
  entries.map fun entry => (Outcome.ofStatus (.text entry.status.name), entry.toJson)

theorem outcomes_of_entries (entries : List Entry) : outcomesOf (entries.map Entry.toJson) =
    .ok (sortedEntries entries) := by
  rw [outcomesOf, List.mapM_map]
  exact map_all_ok _ _ _ fun entry _ => rfl

def recordSorted (log : RunLog) (entries : List Entry) (outcome : Outcome) : Job Unit :=
  log.recordOutcome outcome (((sortedEntries entries).filter fun s => s.1 = outcome).map Prod.snd)

theorem record_sorted_ok (log : RunLog) (entries : List Entry)
    (kept : ∀ entry ∈ entries, (WordResult.decided entry).Kept)
    (outcome : Outcome) (s : Session) (opens : s.store.Open (log.outcomeFile outcome)) :
    ((log.recordSorted entries outcome).runIn s).1 = .ok () := by
  have listed : ((sortedEntries entries).filter fun s => s.1 = outcome).map Prod.snd =
      (entries.filter fun entry => Outcome.ofStatus (.text entry.status.name) = outcome).map Entry.toJson := by
    rw [sortedEntries, List.filter_map, List.map_map]
    rfl
  rw [recordSorted, recordOutcome, listed]
  exact append_entries_ok _ _ (fun entry mem => kept entry (List.mem_of_mem_filter mem)) s opens

theorem record_entries_ok (log : RunLog) (entries : List Entry)
    (kept : ∀ entry ∈ entries, (WordResult.decided entry).Kept) (s : Session)
    (current : s.store.Open log.current) (outcomes : ∀ outcome, s.store.Open (log.outcomeFile outcome)) :
    ((log.recordByOutcome (entries.map Entry.toJson)).runIn s).1 = .ok () := by
  let anyFile : Place → Prop := fun _ => False
  let stages := firstSeen ((sortedEntries entries).map Prod.fst)
  have quiet (outcome : Outcome) : (log.recordSorted entries outcome).Keeps (Session.Quiet anyFile) :=
    append_lines_quiet anyFile _ _ id
  have all := Job.for_all_ok (Session.Quiet anyFile) (Session.quiet_trans anyFile) (Session.quiet_refl anyFile) stages
    (log.recordSorted entries) quiet s fun outcome _ t after =>
      record_sorted_ok log entries kept outcome t (Store.open_stays _ _ _ after.folders (outcomes outcome))
  have after := Job.keeps_forM (Session.Quiet anyFile) (Session.quiet_trans anyFile) (Session.quiet_refl anyFile) stages
    (log.recordSorted entries) quiet s
  have shape : log.recordByOutcome (entries.map Entry.toJson) = Job.lift
    (outcomesOf (entries.map Entry.toJson)) >>= fun sorted =>
      ((firstSeen (sorted.map Prod.fst)).forM fun outcome =>
        log.recordOutcome outcome ((sorted.filter fun s => s.1 = outcome).map Prod.snd)) >>= fun _ =>
          log.record (entries.map Entry.toJson) := rfl
  rw [shape, outcomes_of_entries, Job.run_bind, Job.run_lift]
  change ((stages.forM (log.recordSorted entries) >>= fun _ =>
    log.record (entries.map Entry.toJson)).runIn s).1 = .ok ()
  rw [Job.run_bind]
  cases ran : (stages.forM (log.recordSorted entries)).runIn s with
  | mk outcome t =>
      rw [ran] at all after
      cases all
      exact append_entries_ok log.current entries kept t (Store.open_stays _ _ _ after.folders current)

end RunLog

namespace PoolRun

variable (run : PoolRun) (d : Definition) (log : Option RunLog) {written : List WordResult} {done : List Text}

instance : DecidablePred run.Own := fun place => inferInstanceAs
    (Decidable (place = run.resultsPlace ∨ place = run.checkpointPlace))

theorem reachable_open (s : Session) (files : run.Reachable s) :
    s.store.Open run.resultsFile.toText ∧ s.store.Open run.checkpointFile.toText := by
  refine ⟨⟨files.results, ?_, run.results_names_file⟩, ⟨files.checkpoint, files.plain, run.checkpoint_names_file⟩⟩
  intro folder
  have opened := files.opened
  rw [Store.content?, resultsPlace, folder] at opened
  exact opened rfl

theorem log_entries_ok (kept : Place → Prop) (s : Session) (serves : ∀ l ∈ log, l.Serves kept s) (entries : List Entry)
    (each : ∀ entry ∈ entries, (WordResult.decided entry).Kept) :
    ((logEntries log (entries.map Entry.toJson)).runIn s).1 = .ok () := by
  cases log with
  | none => rfl
  | some l =>
      obtain ⟨_, current, outcomes⟩ := serves l rfl
      change ((l.turnOver >>= fun turned => turned.recordByOutcome (entries.map Entry.toJson)).runIn s).1 = _
      rw [Job.run_bind, RunLog.run_turn_over]
      exact RunLog.record_entries_ok (l.on s.today) entries each s current outcomes

section Writing

variable [Screen] (lawful : Screen.Lawful)

include lawful

theorem write_batch_run (workers : Quantity.checkWorkers run.workers = .ok ()) (number : Nat)
    (batch : List Text) (s : Session)
    (files : run.Reachable s) (ledger : run.Holds written done s) (results : List WordResult)
    (heard : batch.mapM (run.heard d) = .ok results) (scalar : ∀ result ∈ results, result.Scalar) :
    ((run.writeBatch d number batch).runIn s).1 = (if allTold results then .ok results else .error .longNumber) ∧
      run.Holds (written ++ told results) done ((run.writeBatch d number batch).runIn s).2 := by
  have said := Job.run_say s _ (lawful.tame _ (announced_tame number batch.length))
  rw [writeBatch, Job.run_bind_ok _ _ _ _ _ said, workers]
  simp only [ok_map_error, Job.run_bind, Job.run_lift]
  obtain ⟨told, here⟩ := run.run_words d batch (s.told (announced number batch.length))
  rw [heard] at told
  cases ran : (batch.mapM (run.runWord d)).runIn (s.told (announced number batch.length)) with
  | mk outcome t =>
      rw [ran] at told here
      cases told
      have here : t.store = s.store := here
      obtain ⟨opens, _⟩ := run.reachable_open s files
      rw [← here] at opens
      obtain ⟨bytes, store, encoded, appended, added⟩ := RunLog.append_lines_run _ results t opens
      have held : run.Holds (written ++ WordResult.told results) done { t with store } := by
        rw [Holds, ← here] at ledger
        exact ledger.added (run.results_apart run) _ rfl _ (told_kept results scalar) bytes encoded appended
      simp only [added]
      cases allTold results with
      | true => exact ⟨rfl, held⟩
      | false => exact ⟨rfl, held⟩

omit lawful in
theorem write_batch_heard (number : Nat) (batch : List Text) (s s' : Session) (results : List WordResult)
    (ran : (run.writeBatch d number batch).runIn s = (.ok results, s')) : batch.mapM (run.heard d) = .ok results := by
  obtain ⟨_, t, _, ran⟩ := (Job.bind_run_ok _ _ _ _ _).mp ran
  obtain ⟨_, u, _, ran⟩ := (Job.bind_run_ok _ _ _ _ _).mp ran
  obtain ⟨told, v, words, ran⟩ := (Job.bind_run_ok _ _ _ _ _).mp ran
  obtain ⟨_, w, _, ended⟩ := (Job.bind_run_ok _ _ _ _ _).mp ran
  have heard := (run.run_words d batch u).1
  rw [words] at heard
  cases ended
  exact heard.symm

end Writing

theorem save_batch_run (results : List WordResult) (s : Session) (files : run.Reachable s)
    (ledger : run.Holds written done s)
    (scalar : ∀ result ∈ results, result.Scalar) :
    ∃ t, (run.saveBatch (Checkpoint.naming done) results).runIn s =
      (.ok (Checkpoint.naming (done ++ inputs results)), t) ∧
      run.Holds written (done ++ inputs results) t ∧ t.store.content? run.checkpointPlace ≠ none := by
  have named : ∀ word ∈ done ++ inputs results, word.Scalar :=
    List.forall_mem_append.mpr ⟨ledger.scalar, inputs_scalar results scalar⟩
  obtain ⟨bytes, encoded⟩ := inked_encoded _ (record_inked _ named)
  obtain ⟨store, saved, there⟩ := Job.run_write_open _ _ bytes encoded s (run.reachable_open s files).2
  have ran : (run.saveBatch (Checkpoint.naming done) results).runIn s =
      (.ok (Checkpoint.naming (done ++ inputs results)), { s with store }) := by
    rw [saveBatch, Checkpoint.extend_naming, Job.run_bind, Job.run_lift]
    dsimp only
    rw [Job.run_bind, Checkpoint.save]
    have same : (Json.object
      [(Checkpoint.key, Checkpoint.naming (done ++ (decided results).map Entry.input))]).indented =
        (Checkpoint.record (done ++ inputs results)).indented := rfl
    rw [same, saved]
    rfl
  refine ⟨_, ran, ?_, there⟩
  rcases run.save_batch_ledger results s ledger scalar _ _ ran with ⟨_, absurdly, _⟩ | ⟨_, held⟩
  · cases absurdly
  · exact held

structure Able (s : Session) : Prop where
  files : run.Reachable s
  serves : ∀ l ∈ log, l.Serves run.Own s

theorem able_stays (s s' : Session) (able : run.Able log s) (quiet : s.Quiet (fun _ => False) s')
    (day : s'.today = s.today) :
    run.Able log s' :=
  ⟨run.reachable_stays _ s s' able.files quiet, fun l mem => l.serves_stays _ s s' _ quiet day (able.serves l mem)⟩

section Batches

variable [Screen]

def runBatch (number : Nat) (completed : Json) (batch : List Text) : Job (List WordResult × Json) := do
  let results ← run.writeBatch d number batch
  let completed ← run.saveBatch completed results
  logEntries log ((decided results).map Entry.toJson)
  return (results, completed)

theorem run_batches_cons (number : Nat) (completed : Json) (batch : List Text) (later : List (List Text)) :
    run.runBatches d log number completed (batch :: later) = (do
      let (results, completed) ← run.runBatch d log number completed batch
      return results ++ (← run.runBatches d log (number + 1) completed later)) := by
  simp only [runBatches, runBatch, bind_assoc, pure_bind]

theorem run_batch_quiet (number : Nat) (completed : Json) (batch : List Text) :
    (run.runBatch d log number completed batch).Keeps (Session.Quiet fun _ => False) := by
  refine Job.quiet_bind _ _ _ (run.write_batch_quiet _ d number batch id) fun results => ?_
  refine Job.quiet_bind _ _ _ (run.save_batch_quiet _ completed results id) fun completed => ?_
  refine Job.quiet_bind _ _ _ ?_ fun _ => Job.pure_quiet _ _
  exact log_entries_quiet _ log (fun _ _ => ⟨fun _ => id, fun _ _ => id⟩) _

theorem run_batch_unasked (number : Nat) (completed : Json) (batch : List Text) :
    (run.runBatch d log number completed batch).Keeps Session.Unasked := by
  refine Job.unasked_bind _ _ (run.write_batch_unasked d number batch) fun results => ?_
  refine Job.unasked_bind _ _ (run.save_batch_unasked completed results) fun completed => ?_
  exact Job.unasked_bind _ _ (log_entries_unasked log _) fun _ => Job.pure_unasked _

variable (lawful : Screen.Lawful)

include lawful

theorem run_batch_passes (clean : d.Clean) (workers : Quantity.checkWorkers run.workers = .ok ())
    (number : Nat) (batch : List Text)
    (scalar : ∀ word ∈ batch, word.Scalar) (s : Session) (able : run.Able log s) (ledger : run.Holds written done s)
    (results : List WordResult) (heard : batch.mapM (run.heard d) = .ok results) (all : allTold results = true) :
    ∃ t, (run.runBatch d log number (Checkpoint.naming done) batch).runIn s =
      (.ok (results, Checkpoint.naming (done ++ inputs results)), t) ∧
      run.Holds (written ++ results) (done ++ inputs results) t ∧ t.store.content? run.checkpointPlace ≠ none := by
  have clear := run.batch_scalar d clean batch scalar results (run.heard_all d batch results heard)
  obtain ⟨wrote, held⟩ := run.write_batch_run d lawful workers number batch s able.files ledger results heard clear
  have quiet := run.write_batch_quiet (fun _ => False) d number batch id s
  have day := (run.write_batch_unasked d number batch s).day
  rw [runBatch, Job.run_bind]
  cases ran : (run.writeBatch d number batch).runIn s with
  | mk outcome t =>
      rw [ran] at wrote held quiet day
      rw [all] at wrote
      rw [told_all results all] at held
      cases wrote
      have able := run.able_stays log s t able quiet day
      obtain ⟨u, saved, kept, there⟩ := run.save_batch_run results t able.files held clear
      have quiet := run.save_batch_quiet (fun _ => False) (Checkpoint.naming done) results id t
      have day := (run.save_batch_unasked (Checkpoint.naming done) results t).day
      rw [saved] at quiet day
      have able := run.able_stays log t u able quiet day
      have each : ∀ entry ∈ decided results, (WordResult.decided entry).Kept :=
        fun entry mem => kept.kept _ (List.mem_append_right written ((mem_decided results entry).mp mem))
      have noted := log_entries_ok log run.Own u able.serves (decided results) each
      have logged := run.log_ledger log u (fun l mem => (able.serves l mem).avoids)
        ((decided results).map Entry.toJson) kept
      have quiet := log_entries_quiet (fun _ => False) log (fun _ _ => ⟨fun _ => id, fun _ _ => id⟩)
        ((decided results).map Entry.toJson) u
      simp only [Job.run_bind, saved]
      cases took : (logEntries log ((decided results).map Entry.toJson)).runIn u with
      | mk outcome v =>
          rw [took] at noted logged quiet
          cases noted
          exact ⟨v, rfl, logged, quiet.stays _ there⟩

theorem run_batch_stops (clean : d.Clean) (workers : Quantity.checkWorkers run.workers = .ok ())
    (number : Nat) (batch : List Text)
    (scalar : ∀ word ∈ batch, word.Scalar) (s : Session) (able : run.Able log s) (ledger : run.Holds written done s)
    (results : List WordResult) (heard : batch.mapM (run.heard d) = .ok results) (part : allTold results = false) :
    ∃ t, (run.runBatch d log number (Checkpoint.naming done) batch).runIn s = (.error .longNumber, t) ∧
      run.Holds (written ++ told results) done t := by
  obtain ⟨wrote, held⟩ := run.write_batch_run d lawful workers number batch s able.files ledger results heard
    (run.batch_scalar d clean batch scalar results (run.heard_all d batch results heard))
  rw [runBatch, Job.run_bind]
  cases ran : (run.writeBatch d number batch).runIn s with
  | mk outcome t =>
      rw [ran, part] at wrote
      rw [ran] at held
      cases wrote
      exact ⟨t, rfl, held⟩

end Batches

structure Completes (written : List WordResult) (done : List Text) (batches : List (List Text))
    (results : List WordResult)
    (ran : Except Fault (List WordResult) × Session) : Prop where
  outcome : ran.1 = if allTold results then .ok results else .error .longNumber
  holds : ∃ named, run.Holds (written ++ told results) named ran.2 ∧
    (allTold results = true → named = done ++ inputs results)
  saved : allTold results = true → batches ≠ [] → ran.2.store.content? run.checkpointPlace ≠ none

theorem completes_more (batch : List Text) (later : List (List Text)) (first rest : List WordResult)
    (ran : Except Fault (List WordResult) × Session) (all : allTold first = true)
    (after : run.Completes (written ++ first) (done ++ inputs first) later rest ran)
    (there : ran.2.store.content? run.checkpointPlace ≠ none) :
    run.Completes written done (batch :: later) (first ++ rest) (ran.1.map (first ++ ·), ran.2) := by
  obtain ⟨outcome, ⟨named, held, names⟩, _⟩ := after
  have whole : allTold (first ++ rest) = allTold rest := by
    rw [allTold] at all
    rw [allTold, List.all_append, all, Bool.true_and, allTold]
  refine ⟨?_, ⟨named, ?_, ?_⟩, fun _ _ => there⟩
  · rw [outcome, whole]
    cases allTold rest <;> rfl
  · rwa [told_append, if_pos all, ← List.append_assoc]
  · intro told
    rw [whole] at told
    rw [names told, inputs_append, List.append_assoc]

theorem completes_stopped (batches : List (List Text)) (first rest : List WordResult) (s : Session)
    (part : allTold first = false)
    (held : run.Holds (written ++ told first) done s) : run.Completes written done batches (first ++ rest)
    (.error .longNumber, s) := by
  have partly : allTold (first ++ rest) = false := by
    rw [allTold] at part
    rw [allTold, List.all_append, part, Bool.false_and]
  have stopped : told (first ++ rest) = told first := by rw [told_append, if_neg (by simp [part])]
  refine ⟨by rw [partly]; rfl, ⟨done, by rwa [stopped], ?_⟩, ?_⟩
  · intro whole
    exact absurd (partly.symm.trans whole) (by decide)
  · intro whole
    exact absurd (partly.symm.trans whole) (by decide)

theorem run_batches_complete [Screen] (lawful : Screen.Lawful) (clean : d.Clean)
    (workers : Quantity.checkWorkers run.workers = .ok ()) (number : Nat)
    (batches : List (List Text)) (scalar : ∀ batch ∈ batches, ∀ word ∈ batch, word.Scalar) (s : Session)
    (able : run.Able log s)
    (ledger : run.Holds written done s) (results : List WordResult)
    (heard : batches.flatten.mapM (run.heard d) = .ok results) :
    run.Completes written done batches results
    ((run.runBatches d log number (Checkpoint.naming done) batches).runIn s) := by
  induction batches generalizing number written done s results with
  | nil =>
      cases heard
      have nothing : run.Holds (written ++ []) done s := by rwa [List.append_nil]
      exact ⟨rfl, ⟨done, nothing, fun _ => (List.append_nil done).symm⟩, fun _ some => absurd rfl some⟩
  | cons batch later ih =>
      obtain ⟨here, others⟩ := List.forall_mem_cons.mp scalar
      rw [List.flatten_cons, List.mapM_append] at heard
      obtain ⟨first, now, heard⟩ := (bind_ok _ _ _).mp heard
      obtain ⟨rest, after, heard⟩ := (bind_ok _ _ _).mp heard
      obtain rfl := Except.ok.inj heard
      rw [run_batches_cons, Job.run_bind]
      cases all : allTold first with
      | false =>
          obtain ⟨t, ran, held⟩ :=
            run.run_batch_stops d log lawful clean workers number batch here s able ledger first now all
          rw [ran]
          exact run.completes_stopped (batch :: later) first rest t all held
      | true =>
          obtain ⟨t, ran, held, there⟩ :=
            run.run_batch_passes d log lawful clean workers number batch here s able ledger first now all
          have quiet := run.run_batch_quiet d log number (Checkpoint.naming done) batch s
          have day := (run.run_batch_unasked d log number (Checkpoint.naming done) batch s).day
          rw [ran] at quiet day
          have final := ih (number + 1) others t (run.able_stays log s t able quiet day) held rest after
          have stays := run.run_batches_stay d log (number + 1) (Checkpoint.naming (done ++ inputs first)) later t
          have joined := run.completes_more batch later first rest _ all final (stays.stays _ there)
          rw [ran]
          simp only [Job.run_bind]
          cases ended :
              (run.runBatches d log (number + 1) (Checkpoint.naming (done ++ inputs first)) later).runIn t with
          | mk outcome u =>
              rw [ended] at joined
              cases outcome with
              | ok results => exact joined
              | error fault => exact joined

theorem run_batches_heard [Screen] (number : Nat) (completed : Json) (batches : List (List Text)) (s s' : Session)
    (results : List WordResult) (ran : (run.runBatches d log number completed batches).runIn s = (.ok results, s')) :
    batches.flatten.mapM (run.heard d) = .ok results := by
  induction batches generalizing number completed s results with
  | nil =>
      cases ran
      rfl
  | cons batch later ih =>
      obtain ⟨first, t, wrote, ran⟩ := (Job.bind_run_ok _ _ _ _ _).mp ran
      obtain ⟨completed', u, _, ran⟩ := (Job.bind_run_ok _ _ _ _ _).mp ran
      obtain ⟨_, v, _, ran⟩ := (Job.bind_run_ok _ _ _ _ _).mp ran
      obtain ⟨rest, w, after, ended⟩ := (Job.bind_run_ok _ _ _ _ _).mp ran
      have here := run.write_batch_heard d number batch s t first wrote
      cases ended
      have others := ih (number + 1) completed' v rest after
      rw [List.flatten_cons, List.mapM_append, here, ok_bind, others]
      rfl

end PoolRun

end TapeMachine
