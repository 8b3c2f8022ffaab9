import TapeMachine.Proofs.BatchLedger

set_option autoImplicit false

namespace TapeMachine

namespace Job

theorem same_run {α : Type} (job : Job α) (same : job.Keeps Eq) (s s' : Session) (outcome : Except Fault α)
    (ran : job.runIn s = (outcome, s')) : s' = s := by
  have kept := same s
  rw [ran] at kept
  exact kept.symm

theorem path_text_ok (given : Json) (path : Text) (s s' : Session)
    (ran : (pathText given).runIn s = (.ok path, s')) : given = .text path := by
  cases given with
  | text t =>
      cases ran
      rfl
  | _ => cases ran

theorem decoded_scalar (bytes : Bytes) (t : Text) (decoded : Job.decoded bytes = .ok t) : t.Scalar := by
  rw [Job.decoded] at decoded
  split at decoded
  · rename_i plain read
    rw [← Except.ok.inj decoded]
    exact Text.unify_scalar plain (Text.decode_scalar plain bytes read)
  · cases decoded

theorem read_text_scalar (path t : Text) (s s' : Session) (ran : (readText path).runIn s = (.ok t, s')) : t.Scalar := by
  obtain ⟨bytes, u, _, ran⟩ := (bind_run_ok _ _ _ _ _).mp ran
  split at ran
  · rename_i t' decoded
    cases ran
    exact decoded_scalar bytes _ decoded
  · cases ran

theorem read_lines_scalar (path : Text) (lines : List Text) (s s' : Session)
    (ran : (readLines path).runIn s = (.ok lines, s')) :
    ∀ line ∈ lines, line.Scalar := by
  obtain ⟨bytes, u, _, ran⟩ := (bind_run_ok _ _ _ _ _).mp ran
  split at ran
  · rename_i t' decoded
    cases ran
    exact Text.file_lines_scalar _ (decoded_scalar bytes _ decoded)
  · cases ran

end Job

theorem Definition.load_lines_clean (path : Path) (d : Definition) (s s' : Session)
    (ran : (Definition.loadLines path).runIn s = (.ok d, s')) : d.Clean := by
  obtain ⟨t, u, text, ran⟩ := (Job.bind_run_ok _ _ _ _ _).mp ran
  have scalar := Job.read_text_scalar _ t s u text
  rw [Job.run_lift] at ran
  cases read : Definition.ofText t with
  | error fault =>
      rw [read] at ran
      cases ran
  | ok d' =>
      rw [read] at ran
      cases ran
      exact clean_of_text t d read scalar

theorem Pool.load_scalar (path : Text) (words : List Text) (s s' : Session)
    (ran : (Pool.load path).runIn s = (.ok words, s')) :
    ∀ word ∈ words, word.Scalar := by
  obtain ⟨lines, u, read, ran⟩ := (Job.bind_run_ok _ _ _ _ _).mp ran
  have scalar := Job.read_lines_scalar path lines s u read
  cases ran
  intro word mem
  obtain ⟨line, listed, rfl⟩ := List.mem_map.mp (List.mem_filter.mp mem).1
  exact Text.scalar_subset _ line (Text.trim_subset line) (scalar line listed)

namespace PoolRun

variable (run : PoolRun) {written : List WordResult} {done : List Text}

structure Reachable (s : Session) : Prop where
  results : ∃ place, s.store.locate run.resultsFile.toText = .ok place
  opened : s.store.content? run.resultsPlace ≠ none
  checkpoint : ∃ place, s.store.locate run.checkpointFile.toText = .ok place
  plain : s.store.node run.checkpointPlace ≠ .folder

theorem reachable_stays (kept : Place → Prop) (s s' : Session) (files : run.Reachable s)
    (quiet : s.Quiet kept s') : run.Reachable s' := by
  obtain ⟨place, results⟩ := files.results
  obtain ⟨beside, checkpoint⟩ := files.checkpoint
  have keeps := Store.same_folders_keeps _ _ quiet.folders
  exact ⟨⟨place, Store.locate_keeps _ _ keeps _ place results⟩, quiet.stays _ files.opened,
    ⟨beside, Store.locate_keeps _ _ keeps _ beside checkpoint⟩, fun folder => files.plain ((quiet.folders _).mp folder)⟩

theorem reachable_reads (s : Session) (files : run.Reachable s) (held : run.Holds written done s) :
    (Job.readLines run.resultsFile.toText).runIn s = (.ok (written.map fun result => result.toJson.compact), s) ∧
      (Checkpoint.load run.checkpointFile).runIn s = (.ok (Checkpoint.naming done), s) := by
  obtain ⟨place, results⟩ := files.results
  obtain ⟨beside, checkpoint⟩ := files.checkpoint
  exact ⟨read_results _ s held rfl run.results_names_file place results files.opened,
    load_ledger _ s held rfl run.checkpoint_names_file beside checkpoint files.plain⟩

/-- The words that a run still has to do. -/
def Start.pending (start : Start) : List Text := start.words.filter fun word => !start.done.contains word

structure Started (start : Start) (done : List Text) (s : Session) : Prop where
  clean : start.definition.Clean
  scalar : ∀ word ∈ start.words, word.Scalar
  completed : start.completed = Checkpoint.naming done
  named : start.done = done
  due : run.batchesOf (start.words.filter fun word => !done.contains word) = .ok start.due
  files : run.Reachable s

theorem started_scalar (start : Start) (s : Session) (started : run.Started start done s) :
    ∀ batch ∈ start.due, ∀ word ∈ batch, word.Scalar := by
  intro batch cut word mem
  obtain ⟨size, _, due⟩ := (bind_ok _ _ _).mp started.due
  rw [← Except.ok.inj due] at cut
  exact started.scalar word (List.mem_of_mem_filter (mem_batches size _ batch cut mem))

theorem open_holds (s : Session) (ledger : run.Holds written done s) :
    run.Holds written done ((Job.appendText run.resultsFile.toText []).runIn s).2 := by
  rw [Job.run_append s _ [] [] rfl, Job.run_change]
  cases opened : s.store.append run.resultsFile.toText [] with
  | error fault => exact ledger
  | ok store =>
      have same := ledger.added (run.results_apart run) run.resultsFile.toText rfl [] (by simp) [] rfl opened
      rwa [List.append_nil] at same

theorem print_holds [Screen] (p : Print) (s : Session) (held : run.Holds written done s) :
    run.Holds written done ((Job.print p).runIn s).2 := by
  have same : ((Job.print p).runIn s).2.store = s.store := Job.print_same_store s p _ _ rfl
  rw [Holds, same]
  exact held

theorem begin_holds [Screen] (s : Session) (ledger : run.Holds written done s) :
    run.Holds written done (run.begin.runIn s).2 := by
  let holding (a b : Session) : Prop := run.Holds written done a → run.Holds written done b
  have joins (a b c : Session) (first : holding a b) (second : holding b c) : holding a c :=
    fun held => second (first held)
  have still {α : Type} (job : Job α) (same : job.Keeps Eq) : job.Keeps holding := fun s held => (same s) ▸ held
  have lifted {α : Type} (result : Except Fault α) : (Job.lift result).Keeps holding :=
    Job.keeps_lift holding (fun _ held => held) result
  have kept : run.begin.Keeps holding := by
    refine Job.keeps_bind holding joins _ _ (still _ (Job.path_text_same _)) fun path => ?_
    refine Job.keeps_bind holding joins _ _ (still _ (Definition.load_lines_same _)) fun d => ?_
    refine Job.keeps_bind holding joins _ _ (still _ (Job.path_text_same _)) fun pool => ?_
    refine Job.keeps_bind holding joins _ _ (still _ (Job.path_text_same _)) fun _ => ?_
    refine Job.keeps_bind holding joins _ _ ?_ fun _ => ?_
    · intro s held
      have steady := Job.make_path_steady run.Own run.folder s
      exact held.unchanged (steady.files _ (.inl rfl)) (steady.files _ (.inr rfl))
    refine Job.keeps_bind holding joins _ _ (still _ (Pool.load_same _)) fun words => ?_
    refine Job.keeps_bind holding joins _ _ (still _ (Checkpoint.load_same _)) fun completed => ?_
    refine Job.keeps_bind holding joins _ _ (lifted _) fun done => ?_
    refine Job.keeps_bind holding joins _ _ (fun s held => run.print_holds _ s held) fun _ => ?_
    refine Job.keeps_bind holding joins _ _ (fun s held => run.open_holds s held) fun _ => ?_
    exact Job.keeps_bind holding joins _ _ (lifted _) fun due => Job.keeps_pure holding (fun _ held => held) _
  exact kept s ledger

structure Begun [Screen] (s t s' : Session) (start : Start) : Prop where
  defined : ∃ path, run.definitionPath = .text path ∧ (Definition.loadLines (Path.ofText path)).runIn s =
    (.ok start.definition, s)
  made : (Job.makePath run.folder).runIn s = (.ok (), t)
  pooled : ∃ path, run.poolFile = .text path ∧ (Pool.load path).runIn t = (.ok start.words, t)
  foldered : ∃ path, run.resultsFolder = .text path
  loaded : (Checkpoint.load run.checkpointFile).runIn t = (.ok start.completed, t)
  named : Checkpoint.words start.completed = .ok start.done
  heard : Screen.refuses (loadedText start.words.length start.pending.length) = none
  opened : t.store.append run.resultsFile.toText [] = .ok s'.store
  cut : run.batchesOf start.pending = .ok start.due

theorem begin_ok [Screen] (s s' : Session) (start : Start) (ran : run.begin.runIn s = (.ok start, s')) :
    ∃ t, run.Begun s t s' start := by
  obtain ⟨path, t₁, named, ran⟩ := (Job.bind_run_ok _ _ _ _ _).mp ran
  obtain ⟨d, t₂, defined, ran⟩ := (Job.bind_run_ok _ _ _ _ _).mp ran
  obtain ⟨pool, t₃, given, ran⟩ := (Job.bind_run_ok _ _ _ _ _).mp ran
  obtain ⟨_, t₄, foldered, ran⟩ := (Job.bind_run_ok _ _ _ _ _).mp ran
  obtain ⟨_, t₅, made, ran⟩ := (Job.bind_run_ok _ _ _ _ _).mp ran
  obtain ⟨words, t₆, pooled, ran⟩ := (Job.bind_run_ok _ _ _ _ _).mp ran
  obtain ⟨completed, t₇, loaded, ran⟩ := (Job.bind_run_ok _ _ _ _ _).mp ran
  obtain ⟨found, t₈, checked, ran⟩ := (Job.bind_run_ok _ _ _ _ _).mp ran
  obtain ⟨_, u, said, ran⟩ := (Job.bind_run_ok _ _ _ _ _).mp ran
  obtain ⟨_, t₉, opened, ran⟩ := (Job.bind_run_ok _ _ (Job.appendText run.resultsFile.toText []) _ _).mp ran
  obtain ⟨due, t₁₀, cut, ended⟩ := (Job.bind_run_ok _ _ _ _ _).mp ran
  obtain rfl := Job.same_run _ (Job.path_text_same _) _ _ _ named
  obtain rfl := Job.same_run _ (Definition.load_lines_same _) _ _ _ defined
  obtain rfl := Job.same_run _ (Job.path_text_same _) _ _ _ given
  obtain rfl := Job.same_run _ (Job.path_text_same _) _ _ _ foldered
  obtain rfl := Job.same_run _ (Pool.load_same _) _ _ _ pooled
  obtain rfl := Job.same_run _ (Checkpoint.load_same _) _ _ _ loaded
  rw [Job.run_lift] at checked cut
  obtain ⟨known, rfl⟩ := Prod.mk.inj checked
  obtain ⟨due_words, rfl⟩ := Prod.mk.inj cut
  have heard := Job.say_taken _ _ u said
  obtain rfl := Job.say_ran _ _ u said
  rw [Job.run_append _ _ [] [] rfl, Job.run_change, Session.shown_store] at opened
  cases ended
  refine ⟨_, ⟨_, Job.path_text_ok _ _ _ _ named, defined⟩, made, ⟨_, Job.path_text_ok _ _ _ _ given, pooled⟩,
    ⟨_, Job.path_text_ok _ _ _ _ foldered⟩, loaded, known, heard, ?_, due_words⟩
  split at opened
  · rename_i store appended
    cases opened
    exact appended
  · cases opened

theorem begin_made [Screen] (s t u : Session) (start : Start) (begun : run.Begun s t u start) : ∃ printed,
    run.begin.runIn s = (.ok start, { t with store := u.store, printed }) := by
  obtain ⟨path, given, defined⟩ := begun.defined
  obtain ⟨pool, given', pooled⟩ := begun.pooled
  obtain ⟨folder, given''⟩ := begun.foldered
  refine ⟨t.printed ++ [.text (loadedText start.words.length start.pending.length)], ?_⟩
  simp only [begin, given, given', given'', Job.pathText, pure_bind]
  rw [Job.run_bind, defined]
  dsimp only
  rw [Job.run_bind, begun.made]
  dsimp only
  rw [Job.run_bind, pooled]
  dsimp only
  rw [Job.run_bind, begun.loaded]
  dsimp only
  rw [Job.run_bind, begun.named, Job.run_lift]
  dsimp only
  have heard : Screen.refuses (loadedText start.words.length
    (start.words.filter fun word => !start.done.contains word).length) = none := begun.heard
  rw [Job.run_bind_ok _ _ _ _ _ (Job.run_say t _ heard)]
  rw [Job.run_bind, Job.run_append _ _ [] [] rfl, Job.run_change]
  simp only [Session.shown_store, begun.opened]
  have cut : run.batchesOf (start.words.filter fun word => !start.done.contains word) = .ok start.due := begun.cut
  rw [Job.run_bind, cut, Job.run_lift]
  rfl

theorem checkpoint_located (s t : Session) (completed : Json)
    (loaded : (Checkpoint.load run.checkpointFile).runIn s = (.ok completed, t))
    (place : Place) (located : s.store.locate run.resultsFile.toText = .ok place) :
    ∃ beside, s.store.locate run.checkpointFile.toText = .ok beside := by
  obtain ⟨base, results, checkpoint⟩ := run.files_beside
  rw [results] at located
  rcases locate_beside s.store base resultsEnding checkpointEnding results_ending checkpoint_ending
    (by decide) place located with
    found | long
  · rwa [checkpoint]
  · rw [← checkpoint] at long
    obtain ⟨found, _, asked, _⟩ := (Job.bind_run_ok _ _ _ _ _).mp loaded
    rw [Job.run_find, Store.find?, long] at asked
    cases asked

theorem begin_started [Screen] (s s' : Session) (start : Start) (ledger : run.Holds written done s)
    (ran : run.begin.runIn s = (.ok start, s')) : run.Started start done s' := by
  obtain ⟨t, begun⟩ := run.begin_ok s s' start ran
  obtain ⟨path, _, defined⟩ := begun.defined
  obtain ⟨pool, _, pooled⟩ := begun.pooled
  have held : run.Holds written done t := by
    have steady := Job.make_path_steady run.Own run.folder s
    rw [begun.made] at steady
    exact ledger.unchanged (steady.files _ (.inl rfl)) (steady.files _ (.inr rfl))
  obtain ⟨place, located, _, _, _⟩ := Store.update_ok _ _ _ _ begun.opened
  obtain ⟨beside, checkpoint⟩ := run.checkpoint_located t t start.completed begun.loaded place located
  obtain ⟨same, files⟩ := Store.update_changes _ _ _ _ begun.opened
  have keeps := Store.same_folders_keeps _ _ same
  have file := run.checkpoint_names_file
  have plain : t.store.node run.checkpointPlace ≠ .folder :=
    load_no_folder run.checkpointFile t t start.completed file beside checkpoint begun.loaded
  have loaded := begun.loaded
  rw [load_ledger run.checkpointFile t held rfl file beside checkpoint plain] at loaded
  have completed : start.completed = Checkpoint.naming done := (Except.ok.inj (Prod.mk.inj loaded).1).symm
  have known : start.done = done := by
    have listed := begun.named
    rw [completed, Checkpoint.words_naming] at listed
    exact (Except.ok.inj listed).symm
  exact {
    clean := Definition.load_lines_clean _ start.definition s s defined
    scalar := Pool.load_scalar pool start.words t t pooled
    completed := completed
    named := known
    due := known ▸ begun.cut
    files := {
      results := ⟨place, Store.locate_keeps _ _ keeps _ place located⟩
      opened := by
        rw [resultsPlace, files, if_pos rfl]
        exact Option.some_ne_none _
      checkpoint := ⟨beside, Store.locate_keeps _ _ keeps _ beside checkpoint⟩
      plain := fun folder => plain ((same _).mp folder) } }

end PoolRun

end TapeMachine
