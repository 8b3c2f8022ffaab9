import TapeMachine.StandIn
import TapeMachine.Proofs.MenuRounds

set_option autoImplicit false

namespace TapeMachine

namespace Settings

variable (settings : Settings) (s s' : Session)

theorem check_run : (check settings).runIn s = ((validate settings).mapError .settings, s) := by
  rw [check, Job.run_lift]

theorem check_passed (ran : (check settings).runIn s = (.ok (), s')) : validate settings = .ok () := by
  rw [check_run] at ran
  exact (map_error_ok _ _ ()).mp (Prod.mk.inj ran).1

theorem load_checked (path : Text) (ran : (load path).runIn s = (.ok settings, s')) : validate settings = .ok () := by
  rw [load] at ran
  obtain ⟨found, t, _, ran⟩ := (Job.bind_run_ok _ _ _ _ _).mp ran
  split at ran
  · cases ran
  · obtain ⟨value, u, _, ran⟩ := (Job.bind_run_ok _ _ _ _ _).mp ran
    obtain ⟨fresh, v, _, ran⟩ := (Job.bind_run_ok _ _ _ _ _).mp ran
    obtain ⟨_, w, checked, ran⟩ := (Job.bind_run_ok _ _ _ _ _).mp ran
    obtain ⟨_, x, _, ran⟩ := (Job.bind_run_ok _ _ _ _ _).mp ran
    cases ran
    exact check_passed _ v w checked

theorem load_or_default_checked (path : Text) (ran : (loadOrDefault path).runIn s = (.ok settings, s')) :
    validate settings = .ok () := by
  rw [loadOrDefault] at ran
  obtain ⟨found, t, _, ran⟩ := (Job.bind_run_ok _ _ _ _ _).mp ran
  split at ran
  · exact load_checked settings t s' path ran
  · obtain ⟨_, u, checked, ran⟩ := (Job.bind_run_ok _ _ _ _ _).mp ran
    cases ran
    exact check_passed _ _ _ checked

theorem save_refused (path : Text) (fault : SettingsFault) (refused : validate settings = .error fault) :
    (save settings path).runIn s = (.error (.settings fault), s) := by
  rw [save, Job.run_bind, check_run, refused]
  rfl

end Settings

namespace Menu

section Edits

variable [Screen]

theorem asked_keys (settings : Settings) (questions : List (Text × Text)) (answers : Entries) (s s' : Session)
    (ran : (questions.mapM fun (question, key) => do
      return (Json.text key, ← askSetting question key settings) : Job (List (Json × Json))).runIn s =
        (.ok answers, s')) :
    answers.map Prod.fst = questions.map fun q => Json.text q.2 := by
  induction questions generalizing answers s with
  | nil =>
      cases ran
      rfl
  | cons q rest ih =>
      rw [List.mapM_cons] at ran
      obtain ⟨first, t, asked, ran⟩ := (Job.bind_run_ok _ _ _ _ _).mp ran
      obtain ⟨others, u, after, ran⟩ := (Job.bind_run_ok _ _ _ _ _).mp ran
      obtain ⟨answer, v, _, asked⟩ := (Job.bind_run_ok _ _ _ _ _).mp asked
      cases asked
      cases ran
      rw [List.map_cons, List.map_cons, ih others _ after]

/-- Settings into which answers to the questions of an edit were put. -/
def Answered (before fresh : Settings) : Prop :=
  ∃ answers : Entries, answers.map Prod.fst = editQuestions.map (fun q => Json.text q.2) ∧
    fresh = Entries.insertAll answers before

theorem edited_answered (settings fresh : Settings) (s s' : Session)
    (ran : (edited settings).runIn s = (.ok fresh, s')) :
    Answered settings fresh := by
  rw [edited] at ran
  obtain ⟨_, t, _, ran⟩ := (Job.bind_run_ok _ _ _ _ _).mp ran
  obtain ⟨answers, u, asked, ran⟩ := (Job.bind_run_ok _ _ _ _ _).mp ran
  cases ran
  exact ⟨answers, asked_keys settings editQuestions answers t _ asked, rfl⟩

theorem reload_checked (fresh later : Settings) (s s' : Session)
    (ran : (saveAndReload fresh).runIn s = (.ok later, s')) :
    Settings.validate later = .ok () := by
  rw [saveAndReload] at ran
  obtain ⟨_, t, _, ran⟩ := (Job.bind_run_ok _ _ _ _ _).mp ran
  obtain ⟨_, u, _, ran⟩ := (Job.bind_run_ok _ _ _ _ _).mp ran
  exact Settings.load_or_default_checked later u s' _ ran

theorem save_and_reload_refused (fresh : Settings) (s : Session) (fault : SettingsFault)
    (refused : Settings.validate fresh = .error fault) :
    (saveAndReload fresh).runIn s = (.error (.settings fault), s) := by
  rw [saveAndReload, Job.run_bind, Settings.save_refused fresh s _ fault refused]

theorem edit_ends (settings later : Settings) (s s' : Session) (ran : (edit settings).runIn s = (.ok later, s')) :
    ∃ fresh t, (edited settings).runIn s = (.ok fresh, t) ∧
      ((saveAndReload fresh).runIn t = (.ok later, s') ∨
        ∃ fault u, (saveAndReload fresh).runIn t = (.error fault, u) ∧
          Command.isReported fault.kind = true ∧ later = fresh) := by
  rw [edit] at ran
  obtain ⟨fresh, t, asked, ran⟩ := (Job.bind_run_ok _ _ _ _ _).mp ran
  refine ⟨fresh, t, asked, ?_⟩
  obtain ⟨result, u, saved, ran⟩ := (Job.bind_run_ok _ _ _ _ _).mp ran
  cases ran
  cases Command.reported_ended _ _ _ t _ _ saved with
  | done reloaded _ ended => exact .inl ended
  | told fault v failed reported _ => exact .inr ⟨fault, v, failed, reported, rfl⟩

/-- The settings of an edit that the check refused. -/
def Refused (before settings : Settings) : Prop :=
  Answered before settings ∧ ∃ fault, Settings.validate settings = .error fault ∧ Command.isReported
    (Fault.settings fault).kind = true

theorem edit_checked (settings later : Settings) (s s' : Session) (ran : (edit settings).runIn s = (.ok later, s')) :
    Settings.validate later = .ok () ∨ Refused settings later := by
  obtain ⟨fresh, t, asked, ended⟩ := edit_ends settings later s s' ran
  rcases ended with saved | ⟨fault, u, failed, reported, rfl⟩
  · exact .inl (reload_checked fresh later t s' saved)
  · cases checked : Settings.validate later with
    | ok passed => exact .inl rfl
    | error refusal =>
        rw [save_and_reload_refused later t refusal checked] at failed
        cases failed
        exact .inr ⟨edited_answered settings later s t asked, refusal, checked, reported⟩

variable [Arrays]

theorem turn_settings (settings later : Settings) (s s' : Session)
    (ran : (turn settings).runIn s = (.ok (some later), s')) :
    later = settings ∨ ∃ t, (edit settings).runIn t = (.ok later, s') := by
  rw [turn] at ran
  obtain ⟨_, t, _, ran⟩ := (Job.bind_run_ok _ _ _ _ _).mp ran
  obtain ⟨answer, u, _, ran⟩ := (Job.bind_run_ok _ _ _ _ _).mp ran
  cases answer with
  | text choice =>
      dsimp only at ran
      split at ran
      · obtain ⟨_, v, _, ran⟩ := (Job.bind_run_ok _ _ _ _ _).mp ran
        cases ran
      · obtain ⟨acted, v, did, ran⟩ := (Job.bind_run_ok _ _ _ _ _).mp ran
        cases ran
        rw [act] at did
        split at did
        · exact .inr ⟨u, did⟩
        · obtain ⟨_, w, _, did⟩ := (Job.bind_run_ok _ _ _ _ _).mp did
          cases did
          exact .inl rfl
  | _ =>
      cases ran
      exact .inl rfl

theorem visited_settings (s₀ s : Session) (fuel : Nat) (settings : Settings) (visited : Visits s₀ fuel settings s) :
    Settings.validate settings = .ok () ∨ ∃ fuel' before t, Visits s₀ fuel' before t ∧ Refused before settings := by
  induction visited with
  | opened settings s loaded => exact .inl (Settings.load_or_default_checked settings s₀ s _ loaded)
  | turned fuel settings later s s' before chosen ih =>
      rcases turn_settings settings later s s' chosen with rfl | ⟨t, changed⟩
      · exact ih
      · rcases edit_checked settings later t s' changed with passed | refused
        · exact .inl passed
        · exact .inr ⟨fuel + 1, settings, s, before, refused⟩

/-- In every state of the menu there are rounds for all answers, and the settings passed the check,
unless they are the ones of an edit that it refused; an edit goes on either with settings that were
saved, read back and checked, or, after a fault that was reported, with its answers as they are. -/
theorem menu_settings_are_checked_or_refused (s₀ s : Session) (fuel : Nat) (settings : Settings)
    (visited : Visits s₀ fuel settings s) :
    start.runIn s₀ = (loop fuel settings).runIn s ∧ s.answers.length < fuel ∧
    (Settings.validate settings = .ok () ∨ ∃ fuel' before t, Visits s₀ fuel' before t ∧ Refused before settings) ∧
    ∀ (later : Settings) (t s' : Session), (edit settings).runIn t = (.ok later, s') →
      ∃ fresh u, (edited settings).runIn t = (.ok fresh, u) ∧ Answered settings fresh ∧
        (((saveAndReload fresh).runIn u = (.ok later, s') ∧ Settings.validate later = .ok ()) ∨
          ∃ fault v, (saveAndReload fresh).runIn u = (.error fault, v) ∧
            Command.isReported fault.kind = true ∧ later = fresh) := by
  refine ⟨start_visits s₀ s fuel settings visited, visited_rounds s₀ s fuel settings visited,
    visited_settings s₀ s fuel settings visited, ?_⟩
  intro later t s' ran
  obtain ⟨fresh, u, asked, ended⟩ := edit_ends settings later t s' ran
  refine ⟨fresh, u, asked, edited_answered settings fresh t u asked, ?_⟩
  rcases ended with saved | failed
  · exact .inl ⟨saved, reload_checked fresh later u s' saved⟩
  · exact .inr failed

end Edits

open scoped StandIn

def noSteps : Session where
  answers := [.text "4", .int 0, .null, .null, .null, .null]

def noStepsSettings : Settings := Entries.insertAll [(.text Settings.maxSteps, .int 0)] Settings.defaults

theorem no_steps_refused : Settings.validate noStepsSettings ≠ .ok () := by
  intro passed
  have found := (to_option_ok _ ()).mpr passed
  revert found
  decide +kernel

theorem no_steps_edited : ∃ s t, (turn Settings.defaults).runIn noSteps = (.ok (some noStepsSettings), t) ∧
    (edit Settings.defaults).runIn s = (.ok noStepsSettings, t) := by
  have ends : ((turn Settings.defaults).runIn noSteps).1.toOption = some (some noStepsSettings) := by decide +kernel
  have turned := Job.run_result _ _ ends
  rcases turn_settings Settings.defaults noStepsSettings noSteps _ turned with same | ⟨s, changed⟩
  · exact absurd same (by decide +kernel)
  · exact ⟨s, _, turned, changed⟩

theorem no_steps_visited : ∃ t, Visits noSteps 6 noStepsSettings t := by
  obtain ⟨_, t, turned, _⟩ := no_steps_edited
  exact ⟨t, .turned 6 Settings.defaults noStepsSettings noSteps t (.opened Settings.defaults noSteps rfl) turned⟩

theorem refused_edit_stays :
    ∃ s t, Visits noSteps 7 Settings.defaults noSteps ∧ Visits noSteps 6 noStepsSettings t ∧
      (edit Settings.defaults).runIn s = (.ok noStepsSettings, t) ∧
      (∃ fresh u fault v, (edited Settings.defaults).runIn s = (.ok fresh, u) ∧
        (saveAndReload fresh).runIn u = (.error fault, v) ∧
        Command.isReported fault.kind = true) ∧
      noStepsSettings ≠ Settings.defaults ∧ Settings.validate noStepsSettings ≠ .ok () := by
  obtain ⟨s, t, turned, changed⟩ := no_steps_edited
  have opened : Visits noSteps 7 Settings.defaults noSteps := .opened Settings.defaults noSteps rfl
  refine ⟨s, t, opened, .turned 6 _ _ _ t opened turned, changed, ?_, by decide +kernel, no_steps_refused⟩
  obtain ⟨fresh, u, asked, saved | ⟨fault, v, failed, reported, _⟩⟩ :=
    edit_ends Settings.defaults noStepsSettings s t changed
  · exact absurd (reload_checked fresh noStepsSettings u t saved) no_steps_refused
  · exact ⟨fresh, u, fault, v, asked, failed, reported⟩

theorem settings_without_steps_were_refused : ∃ t, start.runIn noSteps = (loop 6 noStepsSettings).runIn t ∧
    ∃ fuel before u, Visits noSteps fuel before u ∧ Refused before noStepsSettings := by
  obtain ⟨t, visited⟩ := no_steps_visited
  obtain ⟨here, _, passed | refused, _⟩ := menu_settings_are_checked_or_refused noSteps t 6 noStepsSettings visited
  · exact absurd passed no_steps_refused
  · exact ⟨t, here, refused⟩

end Menu

end TapeMachine
