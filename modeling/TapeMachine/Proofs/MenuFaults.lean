import TapeMachine.Proofs.PoolFaults
import TapeMachine.Proofs.TraceFaults

set_option autoImplicit false

namespace TapeMachine

open Job

namespace RunLog

variable (settings : Settings)

theorem of_settings_reported (typed : settings.Typed) : (ofSettings settings).Only Fault.Reported := by
  obtain ⟨folder, kept, text⟩ := typed (Settings.outputDirectory, .text) (by decide)
  obtain ⟨path, rfl⟩ := (SettingType.text_accepts folder).mp text
  obtain ⟨tag, marked, _⟩ := typed (Settings.logTag, .text) (by decide)
  have opened : ofSettings settings = openIn (.text path) tag := by
    rw [ofSettings, required, required, kept, marked]
    rfl
  rw [opened]
  refine only_bind _ _ _ (only_pure _ path) fun _ => only_bind _ _ _ (change_reported _) fun _ => ?_
  intro s fault t ran
  cases ran

theorem of_settings_steady (kept : Place → Prop) : (ofSettings settings).Keeps (Session.Steady kept) := by
  refine steady_bind kept _ _ (keeps_steady kept _ (lift_quiet kept _)) fun folder => ?_
  refine steady_bind kept _ _ (keeps_steady kept _ (lift_quiet kept _)) fun tag => ?_
  refine steady_bind kept _ _ (keeps_steady kept _ (keeps_same kept _ (path_text_same _))) fun path => ?_
  exact steady_bind kept _ _ (make_folders_steady kept _) fun _ s => Session.steady_refl kept s

end RunLog

namespace Menu

def Loaded (s : Session) (d : Definition) : Prop :=
  ∃ (path : Path) (u : Session), path.parent = Path.ofText definitionsFolder ∧ s.Untouched u ∧
    (Definition.load path).runIn u = (.ok d, u)

theorem loaded_filed (s : Session) (d : Definition) (loaded : Loaded s d) : d.Filed := by
  obtain ⟨path, u, _, _, found⟩ := loaded
  exact Definition.load_filed path d u u found

def Planned (settings : Settings) (run : PoolRun) : Prop :=
  ∃ (definition pool : Path) (size most workers : Int), definition.parent = Path.ofText definitionsFolder ∧
    pool.parent = Path.ofText poolsFolder ∧
      run = { Command.poolRun (.text definition.toText) (.text pool.toText) settings with
      batchSize := .int size, maxSteps := .int most, workers := .int workers }

inductive Escapes [Screen] (settings : Settings) (choice : Text) (s : Session) (fault : Fault) : Prop where
  | wide (d : Definition) (reading : choice = "1" ∨ choice = "3") (loaded : Loaded s d) (large : ¬ d.Narrow)
      (kind : fault.kind = .outOfField)
  | oversized (tracing : choice = "1") (large : settings.Oversized) (kind : fault.kind = .overflow)
  | muddled (run : PoolRun) (u : Session) (pooling : choice = "2") (planned : Planned settings run)
      (files : s.Untouched u)
      (muddled : run.Muddled u)
  | overlong (run : PoolRun) (u : Session) (pooling : choice = "2") (planned : Planned settings run)
      (files : s.Untouched u)
      (long : run.Overlong u) (kind : fault.kind = .overflow)
  | refused (tagged : fault.Refused)

def Fails [Screen] (settings : Settings) (choice : Text) (s : Session) (fault : Fault) (t : Session) : Prop :=
  fault.Reported ∨ Unanswered fault t ∨ Escapes settings choice s fault

theorem place_whole (size : Nat) (i : Int) : ∃ place, Quantity.place? size (.int i) = .ok place := by
  simp only [Quantity.place?, Quantity.isBelow, Quantity.isAtLeast, Quantity.whole, ok_bind, pure_ok]
  by_cases below : i < 0
  · exact ⟨none, by simp [below]⟩
  · by_cases beyond : i < size
    · exact ⟨some i.toNat, by simp [below, beyond]⟩
    · exact ⟨none, by simp [below, beyond, Json.isNotNumber]⟩

theorem path_at_whole (paths : List Path) (i : Int) : ∃ chosen, pathAt paths (.int i) = .ok chosen := by
  obtain ⟨place, placed⟩ := place_whole paths.length i
  rw [pathAt, placed]
  exact ⟨_, rfl⟩

theorem path_at_mem (paths : List Path) (answer : Json) (path : Path)
    (chosen : pathAt paths answer = .ok (some path)) : path ∈ paths := by
  obtain ⟨place, _, same⟩ := (bind_ok _ _ _).mp chosen
  have at_place : place.bind (fun i => paths[i]?) = some path := Except.ok.inj same
  obtain ⟨i, _, found⟩ := Option.bind_eq_some_iff.mp at_place
  exact List.mem_of_getElem? found

theorem detect_placed (folder : Text) (suffixes : List Text) (s t : Session) (paths : List Path)
    (ran : (detect folder suffixes).runIn s = (.ok paths, t)) : ∀ path ∈ paths, path.parent = Path.ofText folder := by
  obtain ⟨_, u, _, ran⟩ := (bind_run_ok _ _ _ _ _).mp ran
  cases ran
  intro path mem
  obtain ⟨suffix, _, mem⟩ := List.mem_flatMap.mp mem
  obtain ⟨name, _, rfl⟩ := List.mem_map.mp mem
  rw [Path.parent, List.dropLast_concat]

theorem untouched_same (s₀ s t : Session) (files : s₀.Untouched s) (same : t.store = s.store) : s₀.Untouched t :=
  Session.steady_trans _ s₀ s t files (Session.quiet_steady _ s t (Session.quiet_same_store _ s t same))

theorem planned_proper (settings : Settings) (typed : settings.Typed) (run : PoolRun)
    (planned : Planned settings run) : run.Proper := by
  obtain ⟨definition, pool, size, most, workers, _, _, rfl⟩ := planned
  obtain ⟨folder, kept, text⟩ := typed (Settings.resultsDirectory, .text) (by decide)
  obtain ⟨path, rfl⟩ := (SettingType.text_accepts folder).mp text
  exact ⟨⟨_, rfl⟩, ⟨_, rfl⟩, ⟨path, by simp [Command.poolRun, Settings.value, kept]⟩, ⟨_, rfl⟩, ⟨_, rfl⟩, ⟨_, rfl⟩⟩

section Tasks

variable [Screen] (lawful : Screen.Lawful) (settings : Settings) (typed : settings.Typed) (choice : Text) (s₀ : Session)

theorem ordinary_fails (fault : Fault) (t : Session) (ordinary : fault.Ordinary) : Fails settings choice s₀ fault t :=
  ordinary.imp_right fun tagged => .inr (.refused tagged)

theorem ordinary_ends {α : Type} (known : Prop) (job : Job α) (yields : α → Prop) (unasked : job.Keeps Session.Unasked)
    (steady : job.Keeps Session.Untouched) (only : job.Only Fault.Ordinary)
    (ok : ∀ s t a, s₀.Untouched s → known → job.runIn s = (.ok a, t) → yields a) :
    job.Ends (fun s => s₀.Untouched s ∧ known) (fun a t => s₀.Untouched t ∧ yields a) (Fails settings choice s₀) := by
  refine ends_unasked _ _ _ _ unasked ?_ fun s t fault _ ran =>
    ordinary_fails settings choice s₀ fault t (only s fault t ran)
  intro s t a here ran
  have still := steady s
  rw [ran] at still
  exact ⟨Session.steady_trans _ s₀ s t here.1 still, ok s t a here.1 here.2 ran⟩

include lawful

theorem print_ends (known : Prop) (p : Print) (plain : p.isQuestion = false) :
    (print p).Ends (fun s => s₀.Untouched s ∧ known) (fun _ t => s₀.Untouched t ∧ known) (Fails settings choice s₀) :=
  ordinary_ends settings choice s₀ known _ (fun _ => known) (print_unasked p plain) (keeps_steady _ _ (print_quiet _ p))
    (print_ordinary lawful p) fun _ _ _ _ known _ => known

theorem ask_index_ends (known : Prop) (question : Text) (bare : question.bracketless = true) :
    (ask question none none).Ends (fun s => s₀.Untouched s ∧ known)
    (fun answer t => s₀.Untouched t ∧ known ∧ ∃ i, answer = .int i)
      (Fails settings choice s₀) := by
  refine ends_ask _ _ _ _ _ _ (Screen.bracketless_taken lawful _ bare)
    (fun t none => .inr (.inl ⟨rfl, none⟩)) fun s t answer here same suits => ?_
  refine ⟨untouched_same s₀ s t here.1 same, here.2, ?_⟩
  rcases suits with absurdly | ⟨_, suits⟩
  · cases absurdly
  · cases answer <;> first | exact ⟨_, rfl⟩ | contradiction

omit lawful in
theorem pick_ends (known : Prop) (paths : List Path) (answer : Json) (folder : Path) :
    (lift (pathAt paths answer)).Ends
    (fun s => s₀.Untouched s ∧ (known ∧ ∀ path ∈ paths, path.parent = folder) ∧ ∃ i, answer = .int i)
      (fun chosen t => s₀.Untouched t ∧ known ∧ ∀ path, chosen = some path → path.parent = folder)
      (Fails settings choice s₀) := by
  refine ends_unasked _ _ _ _ (lift_unasked _) ?_ ?_
  · intro s t chosen here ran
    rw [run_lift] at ran
    obtain ⟨chose, rfl⟩ := Prod.mk.inj ran
    exact ⟨here.1, here.2.1.1, fun path same => here.2.1.2 path (path_at_mem paths answer path (same ▸ chose))⟩
  · intro s t fault here ran
    obtain ⟨i, rfl⟩ := here.2.2
    obtain ⟨chosen, chose⟩ := path_at_whole paths i
    rw [run_lift, chose] at ran
    cases ran

omit lawful in
theorem detect_ends (known : Prop) (folder : Text) (suffixes : List Text) :
    (detect folder suffixes).Ends (fun s => s₀.Untouched s ∧ known)
      (fun paths t => s₀.Untouched t ∧ known ∧ ∀ path ∈ paths, path.parent = Path.ofText folder)
      (Fails settings choice s₀) := by
  refine ordinary_ends settings choice s₀ known _ _ (detect_unasked folder suffixes) ?_
    (reported_ordinary _ ?_) fun s t paths _ known ran =>
    ⟨known, detect_placed folder suffixes s t paths ran⟩
  · exact steady_bind _ _ _ (make_path_steady _ _) fun _ s => Session.steady_refl _ s
  · refine only_bind _ _ _ (change_reported _) fun _ s fault t ran => ?_
    cases ran

theorem choose_file_ends (known : Prop) (title folder : Text) (suffixes : List Text) :
    (chooseFile title folder suffixes).Ends (fun s => s₀.Untouched s ∧ known)
      (fun chosen t => s₀.Untouched t ∧ known ∧ ∀ path, chosen = some path → path.parent = Path.ofText folder)
      (Fails settings choice s₀) := by
  refine ends_bind _ _ _ _ _ _ (detect_ends settings choice s₀ known folder suffixes) fun paths => ?_
  split
  · refine ends_bind _ _ _ _ _ _ (print_ends lawful settings choice s₀ _ _ rfl) fun _ => ?_
    exact ends_pure _ _ _ _ fun s here => ⟨here.1, here.2.1, fun path => nofun⟩
  · refine ends_bind _ _ _ _ _ _ (print_ends lawful settings choice s₀ _ _ rfl) fun _ => ?_
    refine ends_bind _ _ _ _ _ _ (ask_index_ends lawful settings choice s₀ _ _ rfl) fun answer => ?_
    refine ends_bind _ _ _ _ _ _ (pick_ends settings choice s₀ known paths answer (Path.ofText folder)) fun chosen => ?_
    split
    · exact ends_pure _ _ _ _ fun s here => here
    · refine ends_bind _ _ _ _ _ _ (print_ends lawful settings choice s₀ _ _ rfl) fun _ => ?_
      exact ends_pure _ _ _ _ fun s here => ⟨here.1, here.2.1, fun path => nofun⟩

include typed

theorem ask_setting_ends (known : Prop) (question key : Text) (bare : question.bracketless = true)
    (askable : Askable key) :
    (askSetting question key settings).Ends (fun s => s₀.Untouched s ∧ known)
      (fun answer t => s₀.Untouched t ∧ known ∧ Settings.Fitting key answer) (Fails settings choice s₀) :=
  ends_ask _ _ _ _ _ _ (Screen.bracketless_taken lawful _ bare) (fun _ none => .inr (.inl ⟨rfl, none⟩))
    fun s t answer here same suits =>
    ⟨untouched_same s₀ s t here.1 same, here.2, answer_fitting settings question key askable typed answer suits⟩

theorem ask_number_ends (known : Prop) (question key : Text) (bare : question.bracketless = true)
    (whole : (key, .whole) ∈ Settings.required) :
    (askSetting question key settings).Ends (fun s => s₀.Untouched s ∧ known)
      (fun answer t => s₀.Untouched t ∧ known ∧ ∃ i, answer = .int i) (Fails settings choice s₀) := by
  have asked := ask_setting_ends lawful settings typed choice s₀ known question key bare (.inl whole)
  refine ⟨asked.onward, fun s t answer here valid ran => ?_, asked.fails⟩
  obtain ⟨files, still, expected, listed, accepted⟩ := asked.yields s t answer here valid ran
  have same := Settings.required_type key expected .whole listed whole
  exact ⟨files, still, (SettingType.whole_accepts answer).mp (same ▸ accepted)⟩

omit lawful typed in
theorem excused_fails (d : Definition) (reading : choice = "1" ∨ choice = "3") (loaded : Loaded s₀ d)
    (fault : Fault) (t : Session)
    (excused : d.Excused fault) : Fails settings choice s₀ fault t :=
  excused.imp_right fun wide => .inr (.wide d reading loaded wide.1 wide.2)

omit lawful typed in
theorem load_ends (known : Prop) (path : Path) :
    (Definition.load path).Ends (fun s => s₀.Untouched s ∧ known ∧ path.parent = Path.ofText definitionsFolder)
      (fun d t => s₀.Untouched t ∧ known ∧ Loaded s₀ d) (Fails settings choice s₀) := by
  refine ordinary_ends settings choice s₀ (known ∧ path.parent = Path.ofText definitionsFolder) _
    (fun d => known ∧ Loaded s₀ d)
    (same_unasked _ (Definition.load_same path)) ?_
    (reported_ordinary _ (Definition.load_reported path)) ?_
  · exact keeps_steady _ _ (keeps_same _ _ (Definition.load_same path))
  · intro s t d files here ran
    rw [same_run _ (Definition.load_same path) s t _ ran] at ran
    exact ⟨here.1, path, s, here.2, files, ran⟩

omit typed in
theorem chosen_ends (heading title folder : Text) (suffixes : List Text) (next : Path → Job Unit)
    (rest : ∀ path, (next path).Ends (fun s => s₀.Untouched s ∧ path.parent = Path.ofText folder)
      (fun _ _ => True) (Fails settings choice s₀)) :
    (do
      Job.say heading
      match ← chooseFile title folder suffixes with
      | none => return ()
      | some path => next path : Job Unit).Ends s₀.Untouched (fun _ _ => True) (Fails settings choice s₀) := by
  refine ends_from (fun s => s₀.Untouched s ∧ True) _ _ _ _ ?_ fun s files => ⟨files, trivial⟩
  refine ends_bind _ _ _ _ _ _ (print_ends lawful settings choice s₀ True _ rfl) fun _ => ?_
  refine ends_bind _ _ _ _ _ _ (choose_file_ends lawful settings choice s₀ True _ _ _) fun chosen => ?_
  split
  · exact ends_pure _ _ _ _ fun _ _ => trivial
  · exact ends_from _ _ _ _ _ (rest _) fun s here => ⟨here.1, here.2.2 _ rfl⟩

theorem trace_ends : (trace settings).Ends s₀.Untouched (fun _ _ => True) (Fails settings "1" s₀) := by
  refine chosen_ends lawful settings "1" s₀ _ _ _ _ _ fun path => ?_
  refine ends_bind _ _ _ _ _ _
    (ask_setting_ends lawful settings typed "1" s₀ _ _ _ rfl (by decide)) fun permissive => ?_
  refine ends_bind _ _ _ _ _ _ (ask_number_ends lawful settings typed "1" s₀ _ _ _ rfl (by decide)) fun most => ?_
  refine ends_bind _ _ (fun d t => s₀.Untouched t ∧ (∃ i, most = .int i) ∧ Loaded s₀ d) _ _ _ ?_ fun d => ?_
  · exact ends_from _ _ _ _ _ (load_ends settings "1" s₀ (∃ i, most = .int i) path) fun s here =>
      ⟨here.1, here.2.2, here.2.1.1⟩
  refine ends_bind _ _ (fun _ _ => Loaded s₀ d) _ _ _ ?_ fun trace => ?_
  · refine ends_unasked _ _ _ _ (lift_unasked _) (fun s t trace here _ => here.2.2) fun s t fault here ran => ?_
    obtain ⟨_, ⟨i, rfl⟩, loaded⟩ := here
    rw [Command.runTrace, run_lift] at ran
    obtain ⟨cause, failed, rfl⟩ := (map_error_error _ _ _).mp (Prod.mk.inj ran).1
    exact (Definition.trace_fault d (loaded_filed s₀ d loaded) settings typed _ _ i cause failed).imp_right fun large =>
      .inr (.oversized rfl large.2 large.1)
  · refine ends_unasked _ _ _ _ ?_ (fun s t _ _ _ => trivial) fun s t fault loaded ran => ?_
    · exact unasked_bind _ _ (lift_unasked _) fun report => print_unasked _ rfl
    · have excused := Definition.print_report_excused d (loaded_filed s₀ d loaded) trace s fault t ran
      exact excused_fails settings "1" s₀ d (.inl rfl) loaded fault t excused

omit typed in
theorem inspect_ends : inspect.Ends s₀.Untouched (fun _ _ => True) (Fails settings "3" s₀) := by
  refine chosen_ends lawful settings "3" s₀ _ _ _ _ _ fun path => ?_
  refine ends_bind _ _ (fun d t => s₀.Untouched t ∧ True ∧ Loaded s₀ d) _ _ _ ?_ fun d => ?_
  · exact ends_from _ _ _ _ _ (load_ends settings "3" s₀ True path) fun s here => ⟨here.1, trivial, here.2⟩
  refine ends_bind _ _ (fun _ t => s₀.Untouched t ∧ Loaded s₀ d) _ _ _ ?_ fun _ => ?_
  · refine ordinary_ends settings "3" s₀ _ _ _ (inspection_unasked d) ?_ ?_ fun _ _ _ _ known _ => known.2
    · exact keeps_forM _ (Session.steady_trans _) (Session.steady_refl _) _ _ fun p =>
        keeps_steady _ _ (print_quiet _ p)
    · exact only_forM _ _ _ fun p => print_ordinary lawful p
  refine ends_bind _ _ (fun _ _ => Loaded s₀ d) _ _ _ ?_ fun answer => ?_
  · exact ends_ask _ _ _ _ _ _ (Screen.bracketless_taken lawful _ rfl)
      (fun _ none => .inr (.inl ⟨rfl, none⟩)) fun s t answer here _ _ => here.2
  split
  · refine ends_unasked _ _ _ _ (convert_unasked d path _) (fun s t _ _ _ => trivial) fun s t fault loaded ran => ?_
    rcases Definition.convert_excused d (loaded_filed s₀ d loaded) lawful path _ s fault t ran with excused | tagged
    · exact excused_fails settings "3" s₀ d (.inr rfl) loaded fault t excused
    · exact .inr (.inr (.refused tagged))
  · exact ends_pure _ _ _ _ fun _ _ => trivial

variable [Arrays] (arrays : Arrays.Lawful)

include arrays

theorem simulate_ends (run : PoolRun) :
    (Command.simulateLogged run settings).Ends (fun s => s₀.Untouched s ∧ Planned settings run)
    (fun _ _ => True) (Fails settings "2" s₀) := by
  refine ends_bind _ _ (fun _ t => s₀.Untouched t ∧ Planned settings run) _ _ _ ?_ fun log => ?_
  · exact ordinary_ends settings "2" s₀ _ _ _ (RunLog.of_settings_unasked settings)
      (RunLog.of_settings_steady settings _)
      (reported_ordinary _ (RunLog.of_settings_reported settings typed)) fun _ _ _ _ known _ => known
  · refine ends_unasked _ _ _ _ (run.simulate_unasked _) (fun s t _ _ _ => trivial) fun s t fault here ran => ?_
    obtain ⟨files, planned⟩ := here
    rcases run.simulate_fault (some log) lawful arrays (planned_proper settings typed run planned) s t fault ran with
      ordinary | ⟨u, later, muddled⟩ | ⟨kind, long⟩
    · exact ordinary_fails settings "2" s₀ fault t ordinary
    · exact .inr (.inr (.muddled run u rfl planned (Session.steady_trans _ s₀ s u files later) muddled))
    · exact .inr (.inr (.overlong run s rfl planned files long kind))

theorem pool_ends : (pool settings).Ends s₀.Untouched (fun _ _ => True) (Fails settings "2" s₀) := by
  refine chosen_ends lawful settings "2" s₀ _ _ _ _ _ fun definition => ?_
  refine ends_bind _ _ _ _ _ _ (choose_file_ends lawful settings "2" s₀ _ _ _ _) fun chosen => ?_
  split
  · exact ends_pure _ _ _ _ fun _ _ => trivial
  rename_i pool
  refine ends_bind _ _ _ _ _ _ (ask_number_ends lawful settings typed "2" s₀ _ _ _ rfl (by decide)) fun size => ?_
  refine ends_bind _ _ _ _ _ _ (ask_number_ends lawful settings typed "2" s₀ _ _ _ rfl (by decide)) fun most => ?_
  refine ends_bind _ _ _ _ _ _ (ask_number_ends lawful settings typed "2" s₀ _ _ _ rfl (by decide)) fun workers => ?_
  refine ends_bind _ _ (fun _ _ => True) _ _ _ (ends_from _ _ _ _ _
    (simulate_ends lawful settings typed s₀ arrays _) fun s here => ⟨here.1, ?_⟩) fun summary => ?_
  · obtain ⟨_, ⟨⟨⟨placed, placed'⟩, size, rfl⟩, most, rfl⟩, workers, rfl⟩ := here
    exact ⟨definition, pool, size, most, workers, placed, placed' pool rfl, rfl⟩
  · exact ends_unasked _ _ _ _ (print_unasked _ rfl) (fun _ _ _ _ _ => trivial) fun s t fault _ ran =>
      ordinary_fails settings "2" s₀ fault t (print_ordinary lawful _ s fault t ran)

end Tasks

end Menu

end TapeMachine
