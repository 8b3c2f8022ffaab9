import TapeMachine.Command.Menu
import TapeMachine.Proofs.Answers

set_option autoImplicit false

namespace TapeMachine

open Job

theorem Command.reported_run [Screen] {α : Type} (expected : FaultKind → Bool) (lead : Text)
    (body : Job α) (s : Session) :
    (Command.reported expected lead body).runIn s = match body.runIn s with
      | (.ok a, t) => (.ok (some a), t)
      | (.error fault, t) =>
          if expected fault.kind then (do Job.say (Command.complaint lead fault); return none : Job (Option α)).runIn t
          else (.error fault, t) := by
  rw [Command.reported, Job.recover, Job.run_catch, Job.run_bind]
  cases body.runIn s with
  | mk outcome t =>
      cases outcome with
      | ok a => rfl
      | error fault =>
          dsimp only
          split <;> rfl

/-- How a body ends of which some faults are told. -/
inductive Command.Ended [Screen] {α : Type} (expected : FaultKind → Bool) (lead : Text) (body : Job α) (s : Session) :
    Except Fault (Option α) → Session → Prop where
  | done (a : α) (t : Session) (ran : body.runIn s = (.ok a, t)) : Ended expected lead body s (.ok (some a)) t
  | told (fault : Fault) (t : Session) (failed : body.runIn s = (.error fault, t)) (known : expected fault.kind = true)
      (taken : Screen.refuses (Command.complaint lead fault) = none) :
      Ended expected lead body s (.ok none) (t.told (Command.complaint lead fault))
  | unheard (fault : Fault) (t : Session) (message : Text) (failed : body.runIn s = (.error fault, t))
      (known : expected fault.kind = true)
      (refused : Screen.refuses (Command.complaint lead fault) = some message) :
      Ended expected lead body s (.error (.markup (Command.complaint lead fault) message)) t
  | passed (fault : Fault) (t : Session) (failed : body.runIn s = (.error fault, t))
      (unknown : ¬ expected fault.kind = true) :
      Ended expected lead body s (.error fault) t

theorem Command.reported_ended [Screen] {α : Type} (expected : FaultKind → Bool) (lead : Text)
    (body : Job α) (s t : Session)
    (outcome : Except Fault (Option α)) (ran : (Command.reported expected lead body).runIn s = (outcome, t)) :
    Command.Ended expected lead body s outcome t := by
  rw [Command.reported_run] at ran
  cases ended : body.runIn s with
  | mk result u =>
      rw [ended] at ran
      cases result with
      | ok a =>
          cases ran
          exact .done a t ended
      | error fault =>
          dsimp only at ran
          split at ran
          · rename_i known
            cases taken : Screen.refuses (Command.complaint lead fault) with
            | none =>
                rw [run_bind, run_say u _ taken] at ran
                cases ran
                exact .told fault u ended known taken
            | some message =>
                rw [run_bind, run_say_refused u _ message taken] at ran
                cases ran
                exact .unheard fault t message ended known taken
          · rename_i unknown
            cases ran
            exact .passed fault t ended unknown

theorem Command.reported_onward [Screen] {α : Type} (expected : FaultKind → Bool) (lead : Text) (body : Job α)
    (onward : body.Keeps Session.Onward) : (Command.reported expected lead body).Keeps Session.Onward := by
  intro s
  have kept := onward s
  rw [Command.reported_run]
  cases ran : body.runIn s with
  | mk outcome t =>
      rw [ran] at kept
      cases outcome with
      | ok a => exact kept
      | error fault =>
          dsimp only
          split
          · exact Session.onward_trans s t _ kept (onward_bind _ _ (say_onward _) (fun _ => pure_onward none) t)
          · exact kept

namespace Definition

theorem load_same (path : Path) : (load path).Keeps Eq := by
  rw [load]
  split
  · exact same_bind _ _ (read_bytes_same _) fun _ => keeps_lift Eq Eq.refl _
  · split
    · exact same_bind _ _ (read_text_same _) fun _ => keeps_lift Eq Eq.refl _
    · exact load_lines_same path

theorem store_bytes_unasked [Screen] (d : Definition) (path : Path) : (d.storeBytes path).Keeps Session.Unasked := by
  refine unasked_bind _ _ (change_unasked _) fun _ => ?_
  refine unasked_bind _ _ (lift_unasked _) fun _ => ?_
  exact unasked_bind _ _ (change_unasked _) fun _ => say_unasked _

end Definition

namespace Settings

theorem load_unasked (path : Text) : (load path).Keeps Session.Unasked := by
  refine unasked_bind _ _ (fun _ => ⟨rfl, rfl, rfl⟩) fun found => ?_
  split
  · exact throw_unasked _
  · refine unasked_bind _ _ (same_unasked _ (read_json_same path)) fun value => ?_
    refine unasked_bind _ _ (lift_unasked _) fun added => ?_
    refine unasked_bind _ _ (lift_unasked _) fun _ => ?_
    exact unasked_bind _ _ (change_unasked _) fun _ => pure_unasked _

theorem load_or_default_unasked (path : Text) : (loadOrDefault path).Keeps Session.Unasked := by
  refine unasked_bind _ _ (fun _ => ⟨rfl, rfl, rfl⟩) fun found => ?_
  split
  · exact load_unasked path
  · exact unasked_bind _ _ (lift_unasked _) fun _ => pure_unasked _

theorem save_unasked (settings : Settings) (path : Text) : (save settings path).Keeps Session.Unasked := by
  refine unasked_bind _ _ (lift_unasked _) fun _ => ?_
  exact unasked_bind _ _ (change_unasked _) fun _ => write_text_unasked _ _

end Settings

theorem RunLog.of_settings_unasked (settings : Settings) : (RunLog.ofSettings settings).Keeps Session.Unasked := by
  refine unasked_bind _ _ (lift_unasked _) fun folder => ?_
  refine unasked_bind _ _ (lift_unasked _) fun tag => ?_
  refine unasked_bind _ _ (same_unasked _ (path_text_same _)) fun path => ?_
  refine unasked_bind _ _ (change_unasked _) fun _ => ?_
  exact fun _ => ⟨rfl, rfl, rfl⟩

namespace Menu

theorem detect_unasked (folder : Text) (suffixes : List Text) : (detect folder suffixes).Keeps Session.Unasked :=
  unasked_bind _ _ (change_unasked _) fun _ _ => ⟨rfl, rfl, rfl⟩

variable [Screen]

theorem convert_unasked (d : Definition) (path : Path) (answer : Text) :
    (convert d path answer).Keeps Session.Unasked := by
  rw [convert]
  split
  · exact d.store_bytes_unasked _
  · split
    · refine unasked_bind _ _ (lift_unasked _) fun form => ?_
      exact unasked_bind _ _ (write_text_unasked _ _) fun _ => say_unasked _
    · split
      · refine unasked_bind _ _ (lift_unasked _) fun form => ?_
        exact unasked_bind _ _ (write_text_unasked _ _) fun _ => say_unasked _
      · exact pure_unasked _

theorem inspection_unasked (d : Definition) : (d.inspection.forM print).Keeps Session.Unasked := by
  refine unasked_bind _ _ (print_unasked _ rfl) fun _ => unasked_bind _ _ (print_unasked _ rfl) fun _ => ?_
  refine unasked_bind _ _ (print_unasked _ rfl) fun _ => unasked_bind _ _ (print_unasked _ rfl) fun _ => ?_
  exact unasked_bind _ _ (print_unasked _ rfl) fun _ => pure_unasked ()

theorem choose_file_onward (title folder : Text) (suffixes : List Text) :
    (chooseFile title folder suffixes).Keeps Session.Onward := by
  refine onward_bind _ _ (unasked_onward _ (detect_unasked folder suffixes)) fun paths => ?_
  split
  · exact onward_bind _ _ (say_onward _) fun _ => pure_onward _
  · refine onward_bind _ _ (print_onward _ rfl) fun _ => ?_
    refine onward_bind _ _ (ask_onward _ _ _) fun answer => ?_
    refine onward_bind _ _ (lift_onward _) fun chosen => ?_
    split
    · exact pure_onward _
    · exact onward_bind _ _ (say_onward _) fun _ => pure_onward _

theorem trace_onward (settings : Settings) : (trace settings).Keeps Session.Onward := by
  refine onward_bind _ _ (say_onward _) fun _ => ?_
  refine onward_bind _ _ (choose_file_onward _ _ _) fun chosen => ?_
  split
  · exact pure_onward _
  · refine onward_bind _ _ (ask_onward _ _ _) fun permissive => ?_
    refine onward_bind _ _ (ask_onward _ _ _) fun maxSteps => ?_
    refine onward_bind _ _ (unasked_onward _ (same_unasked _ (Definition.load_same _))) fun d => ?_
    refine onward_bind _ _ (lift_onward _) fun trace => ?_
    exact onward_bind _ _ (lift_onward _) fun report => print_onward _ rfl

theorem inspect_onward : inspect.Keeps Session.Onward := by
  refine onward_bind _ _ (say_onward _) fun _ => ?_
  refine onward_bind _ _ (choose_file_onward _ _ _) fun chosen => ?_
  split
  · exact pure_onward _
  · refine onward_bind _ _ (unasked_onward _ (same_unasked _ (Definition.load_same _))) fun d => ?_
    refine onward_bind _ _ (unasked_onward _ (inspection_unasked d)) fun _ => ?_
    refine onward_bind _ _ (ask_onward _ _ _) fun answer => ?_
    split
    · exact unasked_onward _ (convert_unasked _ _ _)
    · exact pure_onward _

theorem save_and_reload_onward (fresh : Settings) : (saveAndReload fresh).Keeps Session.Onward := by
  refine onward_bind _ _ (unasked_onward _ (Settings.save_unasked _ _)) fun _ => ?_
  exact onward_bind _ _ (say_onward _) fun _ => unasked_onward _ (Settings.load_or_default_unasked _)

theorem edit_onward (settings : Settings) : (edit settings).Keeps Session.Onward := by
  refine onward_bind _ _ ?_ fun fresh =>
    onward_bind _ _ (Command.reported_onward _ _ _ (save_and_reload_onward fresh)) fun _ => pure_onward _
  refine onward_bind _ _ (say_onward _) fun _ => onward_bind _ _ ?_ fun answers => pure_onward _
  refine keeps_mapM _ Session.onward_trans Session.onward_refl _ _ fun question => ?_
  exact onward_bind _ _ (ask_onward _ _ _) fun answer => pure_onward _

def prompt : Job Json := do
  heading.forM Job.say
  Job.ask "\nChoose an option" (some (.text "5")) (some options)

theorem prompt_onward : prompt.Keeps Session.Onward :=
  onward_bind _ _ (keeps_forM _ Session.onward_trans Session.onward_refl _ _ say_onward) fun _ => ask_onward _ _ _

theorem prompt_takes (s t : Session) (answer : Json) (ran : prompt.runIn s = (.ok answer, t)) :
    t.answers.length < s.answers.length := by
  obtain ⟨_, u, headed, asked⟩ := (bind_run_ok _ _ _ _ _).mp ran
  have shown := onward_ran _ (keeps_forM _ Session.onward_trans Session.onward_refl _ _ say_onward) s u _ headed
  have fewer := Session.onward_fewer s u shown
  have took := ask_takes _ _ _ u t answer asked
  omega

variable [Arrays]

def errand (settings : Settings) (choice : Text) : Job Unit :=
  if choice = "1" then attempt (trace settings)
  else if choice = "2" then attempt (pool settings)
  else if choice = "3" then attempt inspect
  else return ()

def act (settings : Settings) (choice : Text) : Job Settings :=
  if choice = "4" then edit settings
  else do
    errand settings choice
    return settings

def turn (settings : Settings) : Job (Option Settings) := do
  heading.forM Job.say
  match ← Job.ask "\nChoose an option" (some (.text "5")) (some options) with
  | .text choice =>
      if choice = "5" then
        Job.say goodbye
        return none
      else return some (← act settings choice)
  | _ => return some settings

def respond (settings : Settings) : Json → Job (Option Settings)
  | .text choice =>
      if choice = "5" then do
        Job.say goodbye
        return none
      else return some (← act settings choice)
  | _ => return some settings

theorem turn_prompt (settings : Settings) : turn settings = (prompt >>= respond settings) := by
  rw [turn, prompt, bind_assoc]
  refine congrArg _ (funext fun _ => congrArg _ (funext fun answer => ?_))
  cases answer <;> rfl

theorem loop_turn (fuel : Nat) (settings : Settings) : loop (fuel + 1) settings = (do
    match ← turn settings with
    | none => return ()
    | some later => loop fuel later) := by
  rw [loop, turn, bind_assoc]
  refine congrArg _ (funext fun _ => ?_)
  rw [bind_assoc]
  refine congrArg _ (funext fun answer => ?_)
  cases answer with
  | text choice =>
      by_cases left : choice = "5"
      · simp only [if_pos left, bind_assoc, pure_bind]
        exact (bind_pure (say goodbye)).symm
      · simp only [if_neg left, act, bind_assoc]
        by_cases editing : choice = "4"
        · simp only [if_pos editing]
          rfl
        · simp only [if_neg editing, errand, bind_assoc]
          split
          · rfl
          · split
            · rfl
            · split <;> rfl
  | _ => rfl

/-- The rounds of the menu that a start in a session comes to, each with the rounds that may follow,
the settings and the session. -/
inductive Visits (s₀ : Session) : Nat → Settings → Session → Prop where
  | opened (settings : Settings) (s : Session)
      (loaded : (Settings.loadOrDefault Settings.defaultPath).runIn s₀ = (.ok settings, s)) :
      Visits s₀ (s.answers.length + 1) settings s
  | turned (fuel : Nat) (settings later : Settings) (s s' : Session) (before : Visits s₀ (fuel + 1) settings s)
      (chosen : (turn settings).runIn s = (.ok (some later), s')) : Visits s₀ fuel later s'

theorem start_visits (s₀ s : Session) (fuel : Nat) (settings : Settings) (visited : Visits s₀ fuel settings s) :
    start.runIn s₀ = (loop fuel settings).runIn s := by
  induction visited with
  | opened settings s loaded =>
      rw [start, Job.run_bind, loaded]
      rfl
  | turned fuel settings later s s' before chosen ih => rw [ih, loop_turn, Job.run_bind, chosen]

theorem pool_onward (settings : Settings) : (pool settings).Keeps Session.Onward := by
  refine onward_bind _ _ (say_onward _) fun _ => ?_
  refine onward_bind _ _ (choose_file_onward _ _ _) fun definition => ?_
  split
  · exact pure_onward _
  · refine onward_bind _ _ (choose_file_onward _ _ _) fun listing => ?_
    split
    · exact pure_onward _
    · refine onward_bind _ _ (ask_onward _ _ _) fun batchSize => ?_
      refine onward_bind _ _ (ask_onward _ _ _) fun maxSteps => ?_
      refine onward_bind _ _ (ask_onward _ _ _) fun workers => ?_
      refine onward_bind _ _ (unasked_onward _ ?_) fun summary => print_onward _ rfl
      exact unasked_bind _ _ (RunLog.of_settings_unasked settings) fun log => PoolRun.simulate_unasked _ _

theorem act_onward (settings : Settings) (choice : Text) : (act settings choice).Keeps Session.Onward := by
  have attempted (body : Job Unit) (onward : body.Keeps Session.Onward) : (attempt body).Keeps Session.Onward :=
    onward_bind _ _ (Command.reported_onward _ _ body onward) fun _ => pure_onward ()
  rw [act]
  split
  · exact edit_onward settings
  · refine onward_bind _ _ ?_ fun _ => pure_onward settings
    rw [errand]
    split
    · exact attempted _ (trace_onward settings)
    · split
      · exact attempted _ (pool_onward settings)
      · split
        · exact attempted _ inspect_onward
        · exact pure_onward ()

theorem respond_onward (settings : Settings) (answer : Json) : (respond settings answer).Keeps Session.Onward := by
  cases answer with
  | text choice =>
      rw [respond]
      split
      · exact onward_bind _ _ (say_onward _) fun _ => pure_onward none
      · exact onward_bind _ _ (act_onward settings choice) fun later => pure_onward (some later)
  | _ => exact pure_onward (some settings)

theorem turn_onward (settings : Settings) : (turn settings).Keeps Session.Onward := by
  rw [turn_prompt]
  exact onward_bind _ _ prompt_onward fun answer => respond_onward settings answer

theorem loop_onward (fuel : Nat) (settings : Settings) : (loop fuel settings).Keeps Session.Onward := by
  induction fuel generalizing settings with
  | zero => exact keeps_throw _ Session.onward_refl _
  | succ fuel ih =>
      rw [loop_turn]
      refine onward_bind _ _ (turn_onward settings) fun later => ?_
      split
      · exact pure_onward ()
      · exact ih _

theorem visited_onward (s₀ s : Session) (fuel : Nat) (settings : Settings)
    (visited : Visits s₀ fuel settings s) : s₀.Onward s := by
  induction visited with
  | opened settings s loaded =>
      exact onward_ran _ (unasked_onward _ (Settings.load_or_default_unasked _)) s₀ s _ loaded
  | turned fuel settings later s s' before chosen ih =>
      exact Session.onward_trans s₀ s s' ih (onward_ran _ (turn_onward settings) s s' _ chosen)

theorem turn_takes (settings : Settings) (s s' : Session) (next : Option Settings)
    (ran : (turn settings).runIn s = (.ok next, s')) :
    s'.answers.length < s.answers.length := by
  rw [turn_prompt] at ran
  obtain ⟨answer, t, prompted, rest⟩ := (bind_run_ok _ _ _ _ _).mp ran
  have took := prompt_takes s t answer prompted
  have fewer := Session.onward_fewer t s' (onward_ran _ (respond_onward settings answer) t s' _ rest)
  omega

theorem visited_rounds (s₀ s : Session) (fuel : Nat) (settings : Settings) (visited : Visits s₀ fuel settings s) :
    s.answers.length < fuel := by
  induction visited with
  | opened settings s loaded => exact Nat.lt_succ_self _
  | turned fuel settings later s s' before chosen ih =>
      have took := turn_takes settings s s' (some later) chosen
      omega

theorem visited_left (s₀ s : Session) (fuel : Nat) (settings : Settings) (visited : Visits s₀ fuel settings s) :
    ∃ left, fuel = left + 1 :=
  Nat.exists_eq_succ_of_ne_zero (Nat.ne_zero_of_lt (visited_rounds s₀ s fuel settings visited))

end Menu

end TapeMachine
