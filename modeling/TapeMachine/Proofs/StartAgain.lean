import TapeMachine.Proofs.CallRuns

set_option autoImplicit false

namespace TapeMachine

namespace Store

variable (s s' : Store)

theorem is_folder_iff (path : Text) : s.isFolder path = true ↔ ∃ place, s.locate path = .ok place ∧
    s.node place = .folder := by
  rw [isFolder]
  cases s.locate path with
  | error fault => simp
  | ok place => simp

theorem is_folder_keeps (keeps : s.KeepsFolders s') (path : Text) (folder : s.isFolder path = true) :
    s'.isFolder path = true := by
  obtain ⟨place, located, held⟩ := (is_folder_iff s path).mp folder
  exact (is_folder_iff s' path).mpr ⟨place, locate_keeps s s' keeps path place located, keeps place held⟩

theorem make_folder_made (path : Text) (made : s.makeFolder path = .ok s') : s'.isFolder path = true := by
  have keeps := (make_folder_ok s s' path made).1
  rw [makeFolder] at made
  obtain ⟨place, located, made⟩ := (bind_ok _ _ _).mp made
  split at made
  · obtain rfl := Except.ok.inj made
    exact (is_folder_iff _ path).mpr ⟨place, locate_keeps _ _ keeps path place located, by simp [node]⟩
  · cases made

theorem make_folder_unless_made (path : Text) (made : s.makeFolderUnless path = .ok s') : s'.isFolder path = true := by
  rw [makeFolderUnless] at made
  split at made
  · rename_i t fresh
    obtain rfl := Except.ok.inj made
    exact make_folder_made s t path fresh
  · split at made
    · rename_i there
      obtain rfl := Except.ok.inj made
      exact (Bool.and_eq_true _ _ ▸ there).2
    · cases made

theorem make_path_made (p : Path) (made : s.makePath p = .ok s') : s'.isFolder p.toText = true := by
  rw [makePath] at made
  generalize p.names.length = fuel at made
  cases fuel with
  | zero => exact make_folder_unless_made s s' _ made
  | succ fuel =>
      rw [makePathWithin] at made
      split at made
      · rename_i t fresh
        obtain rfl := Except.ok.inj made
        exact make_folder_made s t _ fresh
      · split at made
        · cases made
        · obtain ⟨t, _, made⟩ := (bind_ok _ _ _).mp made
          exact make_folder_unless_made t s' _ made
      · split at made
        · rename_i there
          obtain rfl := Except.ok.inj made
          exact (Bool.and_eq_true _ _ ▸ there).2
        · cases made

theorem make_folder_again (path : Text) (folder : s.isFolder path = true) : s.makeFolder path =
    .error (.present path) := by
  obtain ⟨place, located, held⟩ := (is_folder_iff s path).mp folder
  rw [makeFolder, located]
  simp only [ok_bind, held]
  rfl

theorem make_path_again (p : Path) (folder : s.isFolder p.toText = true) : s.makePath p = .ok s := by
  have present := make_folder_again s p.toText folder
  rw [makePath]
  cases p.names.length with
  | zero => rw [makePathWithin, makeFolderUnless, present, folder]; rfl
  | succ fuel => rw [makePathWithin, present, folder]; rfl

theorem read_content (path : Text) (bytes : Bytes) (read : s.read path = .ok bytes) :
    (∃ place, s.locate path = .ok place) ∧ s.content? (target path) = some bytes ∧ namesFolder path = false := by
  rw [Store.read] at read
  obtain ⟨place, located, read⟩ := (bind_ok _ _ _).mp read
  split at read
  · rename_i found held
    split at read
    · cases read
    · rename_i named
      obtain rfl := Except.ok.inj read
      refine ⟨⟨place, located⟩, ?_, by simpa using named⟩
      rw [← locate_target s path place located, content?, held]
  · cases read
  · cases read

theorem read_again (keeps : s.KeepsFolders s') (path : Text) (bytes : Bytes) (read : s.read path = .ok bytes)
    (same : s'.content? (target path) = s.content? (target path)) : s'.read path = .ok bytes := by
  obtain ⟨⟨place, located⟩, held, file⟩ := read_content s path bytes read
  have held' := content_file s' _ bytes (same.trans held)
  exact read_file s' path bytes place (locate_keeps s s' keeps path place located) held' file

end Store

namespace Job

theorem read_bytes_ok (path : Text) (bytes : Bytes) (s s' : Session)
    (ran : (readBytes path).runIn s = (.ok bytes, s')) :
    s.store.read path = .ok bytes := by
  rw [run_read] at ran
  split at ran
  · rename_i found read
    cases ran
    exact read
  · cases ran

theorem read_text_again (path t : Text) (s s' : Session) (ran : (readText path).runIn s = (.ok t, s')) :
    ∃ bytes, s.store.read path = .ok bytes ∧ ∀ u :
    Session, u.store.read path = .ok bytes → (readText path).runIn u = (.ok t, u) := by
  obtain ⟨bytes, v, found, ran⟩ := (bind_run_ok _ _ _ _ _).mp ran
  refine ⟨bytes, read_bytes_ok path bytes s v found, fun u read => ?_⟩
  rw [readText, run_bind, run_read, read]
  dsimp only
  split at ran
  · cases ran
    rfl
  · cases ran

theorem read_lines_again (path : Text) (lines : List Text) (s s' : Session)
    (ran : (readLines path).runIn s = (.ok lines, s')) :
    ∃ bytes, s.store.read path = .ok bytes ∧ ∀ u :
    Session, u.store.read path = .ok bytes → (readLines path).runIn u = (.ok lines, u) := by
  obtain ⟨bytes, v, found, ran⟩ := (bind_run_ok _ _ _ _ _).mp ran
  refine ⟨bytes, read_bytes_ok path bytes s v found, fun u read => ?_⟩
  rw [readLines, run_bind, run_read, read]
  dsimp only
  split at ran
  · cases ran
    rfl
  · cases ran

end Job

theorem Definition.load_lines_again (path : Path) (d : Definition) (s s' : Session)
    (ran : (Definition.loadLines path).runIn s = (.ok d, s')) :
    ∃ bytes, s.store.read path.toText = .ok bytes ∧
      ∀ u : Session, u.store.read path.toText = .ok bytes → (Definition.loadLines path).runIn u = (.ok d, u) := by
  obtain ⟨t, v, found, ran⟩ := (Job.bind_run_ok _ _ _ _ _).mp ran
  obtain ⟨bytes, read, again⟩ := Job.read_text_again path.toText t s v found
  refine ⟨bytes, read, fun u same => ?_⟩
  rw [Job.run_lift] at ran
  rw [Definition.loadLines, Job.run_bind, again u same]
  dsimp only
  rw [Job.run_lift, (Prod.mk.inj ran).1]

theorem Pool.load_again (path : Text) (words : List Text) (s s' : Session)
    (ran : (Pool.load path).runIn s = (.ok words, s')) :
    ∃ bytes, s.store.read path = .ok bytes ∧ ∀ u :
    Session, u.store.read path = .ok bytes → (Pool.load path).runIn u = (.ok words, u) := by
  obtain ⟨lines, v, found, ran⟩ := (Job.bind_run_ok _ _ _ _ _).mp ran
  obtain ⟨bytes, read, again⟩ := Job.read_lines_again path lines s v found
  refine ⟨bytes, read, fun u same => ?_⟩
  cases ran
  rw [Pool.load, Job.run_bind, again u same]
  rfl

namespace PoolRun

variable (run : PoolRun) {written : List WordResult} {done : List Text}

/-- The files that a run reads to begin with. -/
def Reads (place : Place) : Prop :=
  (∃ path, run.definitionPath = .text path ∧ place = Store.target (Path.ofText path).toText) ∨
  ∃ path, run.poolFile = .text path ∧ place = Store.target path

instance : DecidablePred run.Reads := fun place =>
  decidable_of_iff
    (((Checkpoint.textOf? run.definitionPath).any fun path => place = Store.target (Path.ofText path).toText) = true ∨
      ((Checkpoint.textOf? run.poolFile).any fun path => place = Store.target path) = true) <| by
    rw [Reads]
    cases run.definitionPath <;> cases run.poolFile <;> simp [Checkpoint.textOf?]

section Beginning

variable [Screen]

structure Made (s t : Session) (start : Start) : Prop where
  present : ∀ place, run.Reads place → s.store.content? place ≠ none
  foldered : t.store.isFolder run.folder.toText = true
  texts : ∃ path pool folder, run.definitionPath = .text path ∧ run.poolFile = .text pool ∧
    run.resultsFolder = .text folder
  again : ∀ u : Session, t.store.KeepsFolders u.store →
    (∀ place, run.Reads place → u.store.content? place = s.store.content? place) →
    (∀ path, run.definitionPath = .text path → (Definition.loadLines (Path.ofText path)).runIn u =
      (.ok start.definition, u)) ∧
      ∀ pool, run.poolFile = .text pool → (Pool.load pool).runIn u = (.ok start.words, u)

theorem begin_leaves (s t : Session) (start : Start) (begun : run.begin.runIn s = (.ok start, t)) :
    run.Made s t start := by
  obtain ⟨m, steps⟩ := run.begin_ok s t start begun
  obtain ⟨path, given, defined⟩ := steps.defined
  obtain ⟨pool, given', pooled⟩ := steps.pooled
  obtain ⟨folder, given''⟩ := steps.foldered
  have made : s.store.makePath run.folder = .ok m.store := by
    have made := steps.made
    rw [Job.makePath, Job.run_change] at made
    split at made
    · rename_i store found
      cases made
      exact found
    · cases made
  obtain ⟨first, unchanged⟩ := Store.make_path_within_ok _ _ _ _ made
  have second := Store.same_folders_keeps _ _ (Store.update_changes _ _ _ _ steps.opened).1
  obtain ⟨bytes, read, define⟩ := Definition.load_lines_again _ _ s s defined
  obtain ⟨bytes', read', pool_again⟩ := Pool.load_again _ _ m m pooled
  refine ⟨?_, Store.is_folder_keeps _ _ second _ (Store.make_path_made _ _ _ made),
    ⟨path, pool, folder, given, given', given''⟩, ?_⟩
  · rintro place (⟨path', named, rfl⟩ | ⟨pool', named, rfl⟩)
    · obtain rfl : path = path' := Json.text.inj (given.symm.trans named)
      rw [(Store.read_content _ _ _ read).2.1]
      exact Option.some_ne_none _
    · obtain rfl : pool = pool' := Json.text.inj (given'.symm.trans named)
      rw [← unchanged, (Store.read_content _ _ _ read').2.1]
      exact Option.some_ne_none _
  · intro u keeps same
    refine ⟨fun path' named => ?_, fun pool' named => ?_⟩
    · obtain rfl : path = path' := Json.text.inj (given.symm.trans named)
      refine define u (Store.read_again s.store u.store (fun place held => ?_) _ bytes read
        (same _ (.inl ⟨path, given, rfl⟩)))
      exact keeps place (second place (first place held))
    · obtain rfl : pool = pool' := Json.text.inj (given'.symm.trans named)
      refine pool_again u
        (Store.read_again m.store u.store (fun place held => keeps place (second place held)) _ bytes' read' ?_)
      exact (same _ (.inr ⟨pool, given', rfl⟩)).trans (unchanged _).symm

theorem begin_again (lawful : Screen.Lawful) (s t u : Session) (start : Start)
    (begun : run.begin.runIn s = (.ok start, t)) (keeps : t.store.KeepsFolders u.store)
    (same : ∀ place, run.Reads place → u.store.content? place = s.store.content? place) (files : run.Reachable u)
    (held : run.Holds written done u) : ∃ due v,
      run.begin.runIn u = (.ok ⟨start.definition, start.words, Checkpoint.naming done, done, due⟩, v) ∧
        run.batchesOf (start.words.filter fun word => !done.contains word) = .ok due ∧ u.Quiet (fun _ => False) v ∧
        v.today = u.today := by
  obtain ⟨_, foldered, ⟨path, pool, folder, given, given', given''⟩, again⟩ := run.begin_leaves s t start begun
  obtain ⟨defined, pooled⟩ := again u keeps same
  obtain ⟨m, steps⟩ := run.begin_ok s t start begun
  obtain ⟨size, stride, _⟩ := (bind_ok _ _ _).mp steps.cut
  have there := Store.is_folder_keeps _ _ keeps _ foldered
  have made : (Job.makePath run.folder).runIn u = (.ok (), u) := by
    rw [Job.makePath, Job.run_change, Store.make_path_again _ _ there]
  obtain ⟨store, opened⟩ := Store.open_update _ _ (run.reachable_open u files).1 (· ++ ([] : Bytes))
  have cut : run.batchesOf (start.words.filter fun word => !done.contains word) =
      .ok (batches size (start.words.filter fun word => !done.contains word)) := by
    rw [batchesOf, stride]
    rfl
  have begun' : run.Begun u u { u with store } ⟨start.definition, start.words, Checkpoint.naming done, done, _⟩ := {
    defined := ⟨path, given, defined path given⟩
    made := made
    pooled := ⟨pool, given', pooled pool given'⟩
    foldered := ⟨folder, given''⟩
    loaded := (run.reachable_reads u files held).2
    named := Checkpoint.words_naming done
    heard := lawful.tame _ (loaded_text_tame _ _)
    opened := opened
    cut := cut }
  obtain ⟨printed, ran⟩ := run.begin_made u u _ _ begun'
  refine ⟨_, _, ran, cut, ⟨?_, ?_, ?_⟩, rfl⟩
  · exact (Store.update_changes _ _ _ _ opened).1
  · exact Store.update_keeps_files _ _ _ _ opened
  · intro place absurdly
    cases absurdly

end Beginning

end PoolRun

end TapeMachine
