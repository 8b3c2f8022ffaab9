import TapeMachine.StandIn
import TapeMachine.Proofs.MenuFaults

set_option autoImplicit false

namespace TapeMachine

open Job

namespace Menu

section Rounds

variable [Screen] [Arrays]

/-- The choices that something is done about with the settings as they are, and what that is. -/
def tasks (settings : Settings) : List (Text × Job Unit) :=
  [("1", trace settings), ("2", pool settings), ("3", inspect)]

omit [Arrays] in
/-- Where a choice was made in a session. -/
def Chosen (s : Session) (choice : Text) (t : Session) : Prop := prompt.runIn s = (.ok (.text choice), t)

section Prompts

omit [Arrays]

theorem prompt_ends (lawful : Screen.Lawful) :
    prompt.Ends (fun _ => True) (fun answer _ => ∃ choice ∈ options, answer = .text choice) Unanswered := by
  refine ends_bind _ _ (fun _ _ => True) _ _ _ (ends_said _ _ (heading_taken lawful)) fun _ => ?_
  refine ends_ask _ _ _ _ _ _ (Screen.bracketless_taken lawful _ rfl) (fun t none => ⟨rfl, none⟩)
    fun s t answer _ _ suits => ?_
  rcases suits with same | ⟨given, suits⟩
  · cases same
    exact ⟨"5", by decide, rfl⟩
  · cases answer with
    | text choice => exact ⟨choice, List.contains_iff_mem.mp suits, rfl⟩
    | null => exact absurd rfl given
    | _ => exact absurd suits Bool.false_ne_true

theorem attempt_reported (body : Job Unit) (s t : Session) (fault : Fault) (ran : body.runIn s = (.error fault, t))
    (reported : fault.Reported) : (attempt body).runIn s = match (say (Command.complaint "Error" fault)).runIn t with
      | (.ok _, u) => (.ok (), u)
      | (.error refusal, u) => (.error refusal, u) := by
  have expected : Command.isReported fault.kind = true := reported
  rw [attempt, run_bind, Command.reported_run, ran]
  simp only [expected, if_true, run_bind]
  cases (say (Command.complaint "Error" fault)).runIn t with
  | mk outcome u => cases outcome <;> rfl

theorem attempt_told (body : Job Unit) (s t : Session) (fault : Fault)
    (ran : body.runIn s = (.error fault, t)) (reported : fault.Reported)
    (taken : Screen.refuses (Command.complaint "Error" fault) = none) :
    (attempt body).runIn s = (.ok (), t.told (Command.complaint "Error" fault)) := by
  rw [attempt_reported body s t fault ran reported, run_say t _ taken]

theorem attempt_unheard (body : Job Unit) (s t : Session) (fault : Fault) (ran : body.runIn s = (.error fault, t))
    (reported : fault.Reported) (message : Text)
    (refused : Screen.refuses (Command.complaint "Error" fault) = some message) :
    (attempt body).runIn s = (.error (.markup (Command.complaint "Error" fault) message), t) := by
  rw [attempt_reported body s t fault ran reported, run_say_refused t _ message refused]

theorem attempt_escaped (body : Job Unit) (s t : Session) (fault : Fault)
    (ran : body.runIn s = (.error fault, t)) (silent : ¬ fault.Reported) :
    (attempt body).runIn s = (.error fault, t) := by
  have unexpected : ¬ Command.isReported fault.kind = true := silent
  rw [attempt, run_bind, Command.reported_run, ran]
  simp only [if_neg unexpected]

theorem attempt_fault (lawful : Screen.Lawful) (body : Job Unit) (s t : Session) (fault : Fault)
    (ran : (attempt body).runIn s = (.error fault, t)) :
    (body.runIn s = (.error fault, t) ∧ ¬ fault.Reported) ∨ ∃ cause, body.runIn s = (.error cause, t) ∧
      Unheard cause fault := by
  rcases bind_run_cases _ _ _ _ _ ran with ⟨_, failed, same⟩ | ⟨_, u, _, absurdly⟩
  · cases same
    cases Command.reported_ended _ _ body s t _ failed with
    | unheard cause _ message ended reported refused =>
        exact .inr ⟨cause, ended, refused_unheard lawful cause message reported refused⟩
    | passed _ _ ended silent => exact .inl ⟨ended, silent⟩
  · cases absurdly

end Prompts

section Tasks

variable (settings : Settings) (choice : Text) (body : Job Unit) (task : (choice, body) ∈ tasks settings)

theorem choice_task (listed : choice ∈ options) :
    choice = "5" ∨ choice = "4" ∨ ∃ body, (choice, body) ∈ tasks settings := by
  simp only [options, List.mem_cons, List.not_mem_nil, or_false] at listed
  rcases listed with rfl | rfl | rfl | rfl | rfl
  · exact .inr (.inr ⟨trace settings, by simp [tasks]⟩)
  · exact .inr (.inr ⟨pool settings, by simp [tasks]⟩)
  · exact .inr (.inr ⟨inspect, by simp [tasks]⟩)
  · exact .inr (.inl rfl)
  · exact .inl rfl

include task

theorem task_cases (P : Text → Job Unit → Prop) (tracing : P "1" (trace settings)) (pooling : P "2" (pool settings))
    (inspecting : P "3" inspect) : P choice body := by
  simp only [tasks, List.mem_cons, List.not_mem_nil, or_false, Prod.mk.injEq] at task
  rcases task with ⟨rfl, rfl⟩ | ⟨rfl, rfl⟩ | ⟨rfl, rfl⟩
  · exact tracing
  · exact pooling
  · exact inspecting

theorem respond_task : respond settings (.text choice) = (do
    attempt body
    return some settings) := by
  obtain ⟨left, editing, errands⟩ : choice ≠ "5" ∧ choice ≠ "4" ∧ errand settings choice = attempt body :=
    task_cases settings choice body task
      (fun choice body => choice ≠ "5" ∧ choice ≠ "4" ∧ errand settings choice = attempt body)
      ⟨by decide, by decide, rfl⟩ ⟨by decide, by decide, rfl⟩ ⟨by decide, by decide, rfl⟩
  rw [respond, if_neg left, act, if_neg editing, errands, bind_assoc]
  rfl

theorem task_ends (lawful : Screen.Lawful) (arrays : Arrays.Lawful) (typed : settings.Typed) (s : Session) :
    body.Ends s.Untouched (fun _ _ => True) (Fails settings choice s) :=
  task_cases settings choice body task
    (fun choice body => body.Ends s.Untouched (fun _ _ => True) (Fails settings choice s))
    (trace_ends lawful settings typed s) (pool_ends lawful settings typed s arrays) (inspect_ends lawful settings s)

end Tasks

section Closing

variable (lawful : Screen.Lawful)

include lawful

theorem turn_cases (settings : Settings) (s u : Session) (outcome : Except Fault (Option Settings))
    (ran : (turn settings).runIn s = (outcome, u)) (valid : s.WellAnswered u) :
    (outcome = .error .noAnswer ∧ u.answers = []) ∨
      ∃ choice t, Chosen s choice t ∧ t.WellAnswered u ∧
        ((choice = "5" ∧ outcome = .ok none ∧ u = t.told goodbye) ∨
          (choice = "4" ∧ ∃ result, (edit settings).runIn t = (result, u) ∧ outcome = result.map some) ∨
          ∃ body result, (choice, body) ∈ tasks settings ∧ (attempt body).runIn t = (result, u) ∧
            outcome = result.map fun _ => some settings) := by
  rw [turn_prompt] at ran
  rcases bind_run_cases _ _ _ _ _ ran with ⟨fault, failed, rfl⟩ | ⟨answer, t, asked, rest⟩
  · obtain ⟨rfl, none⟩ := (prompt_ends lawful).fails s u fault trivial valid failed
    exact .inl ⟨rfl, none⟩
  · obtain ⟨here, after⟩ := Session.well_answered_parts s t u (onward_ran _ prompt_onward s t _ asked)
      (onward_ran _ (respond_onward settings answer) t u _ rest) valid
    obtain ⟨choice, listed, rfl⟩ := (prompt_ends lawful).yields s t answer trivial here asked
    refine .inr ⟨choice, t, asked, after, ?_⟩
    rcases choice_task settings choice listed with rfl | rfl | ⟨body, task⟩
    · have leaves : (respond settings (.text "5")).runIn t = (.ok none, t.told goodbye) := by
        rw [respond, if_pos rfl, run_bind, run_say t _ (goodbye_taken lawful)]
        rfl
      rw [leaves] at rest
      cases rest
      exact .inl ⟨rfl, rfl, rfl⟩
    · have edits : respond settings (.text "4") = (do return some (← edit settings)) := rfl
      rw [edits, run_return] at rest
      cases rest
      exact .inr (.inl ⟨rfl, _, rfl, rfl⟩)
    · rw [respond_task settings choice body task, run_return _ _ fun _ => some settings] at rest
      cases rest
      exact .inr (.inr ⟨body, _, task, rfl, rfl⟩)

theorem visited_typed (s₀ s : Session) (fuel : Nat) (settings : Settings)
    (visited : Visits s₀ fuel settings s) (valid : s₀.WellAnswered s) :
    settings.Typed := by
  induction visited with
  | opened settings s loaded =>
      exact Settings.typed_of_checked settings (Settings.load_or_default_checked settings s₀ s _ loaded)
  | turned fuel settings later s s' before chosen ih =>
      obtain ⟨sooner, here⟩ := Session.well_answered_parts s₀ s s' (visited_onward s₀ s _ settings before)
        (onward_ran _ (turn_onward settings) s s' _ chosen) valid
      have typed := ih sooner
      rcases turn_cases lawful settings s s' _ chosen here with
        ⟨absurdly, _⟩ | ⟨choice, t, _, after, left | edited | task⟩
      · cases absurdly
      · cases left.2.1
      · obtain ⟨_, result, ran, same⟩ := edited
        cases result with
        | error fault => cases same
        | ok fresh =>
            cases same
            exact (edit_typed lawful settings).yields t s' later typed after ran
      · obtain ⟨body, result, _, _, same⟩ := task
        cases result with
        | error fault => cases same
        | ok _ =>
            cases same
            exact typed

omit lawful in
/-- How a start of the menu ends, in whatever session it began. -/
inductive Closes (s₀ : Session) : Except Fault Unit → Session → Prop where
  | unread (fault : Fault) (t : Session)
      (failed : (Settings.loadOrDefault Settings.defaultPath).runIn s₀ = (.error fault, t)) :
      Closes s₀ (.error fault) t
  | left (rounds : Nat) (settings : Settings) (s t : Session) (visited : Visits s₀ rounds settings s)
      (chosen : Chosen s "5" t) :
      Closes s₀ (.ok ()) (t.told goodbye)
  | unanswered (rounds : Nat) (settings : Settings) (s t : Session) (visited : Visits s₀ rounds settings s)
      (none : t.answers = []) :
      Closes s₀ (.error .noAnswer) t
  | edited (rounds : Nat) (settings : Settings) (s t u : Session) (fault : Fault)
      (visited : Visits s₀ rounds settings s)
      (chosen : Chosen s "4" t) (unreadable : Unreadable fault u) : Closes s₀ (.error fault) u
  | unheardEdit (rounds : Nat) (settings fresh : Settings) (s t u v : Session) (cause fault : Fault)
      (visited : Visits s₀ rounds settings s)
      (chosen : Chosen s "4" t) (failed : (saveAndReload fresh).runIn u = (.error cause, v))
      (unheard : Unheard cause fault) :
      Closes s₀ (.error fault) v
  | unheard (rounds : Nat) (settings : Settings) (s t u : Session) (choice : Text) (body : Job Unit)
      (cause fault : Fault)
      (visited : Visits s₀ rounds settings s) (chosen : Chosen s choice t) (task : (choice, body) ∈ tasks settings)
      (failed : body.runIn t = (.error cause, u)) (unheard : Unheard cause fault) : Closes s₀ (.error fault) u
  | escaped (rounds : Nat) (settings : Settings) (s t u : Session) (choice : Text) (body : Job Unit) (fault : Fault)
      (visited : Visits s₀ rounds settings s) (chosen : Chosen s choice t) (task : (choice, body) ∈ tasks settings)
      (failed : body.runIn t = (.error fault, u)) (silent : ¬ fault.Reported)
      (cause : Escapes settings choice t fault) :
      Closes s₀ (.error fault) u

variable (arrays : Arrays.Lawful)

include arrays

theorem failed_turn_closes (s₀ s u : Session) (rounds : Nat) (settings : Settings) (typed : settings.Typed)
    (visited : Visits s₀ rounds settings s) (fault : Fault)
    (ran : (turn settings).runIn s = (.error fault, u)) (valid : s.WellAnswered u) :
    Closes s₀ (.error fault) u := by
  rcases turn_cases lawful settings s u _ ran valid with ⟨same, none⟩ | ⟨choice, t, chosen, after, left | edited | task⟩
  · cases same
    exact .unanswered rounds settings s u visited none
  · cases left.2.1
  · obtain ⟨rfl, result, ran, same⟩ := edited
    cases result with
    | ok fresh => cases same
    | error fault =>
        cases same
        rcases (edit_typed lawful settings).fails t u fault typed after ran with
          ⟨rfl, none⟩ | unreadable | ⟨fresh, v, cause, failed, unheard⟩
        · exact .unanswered rounds settings s u visited none
        · exact .edited rounds settings s t u fault visited chosen unreadable
        · exact .unheardEdit rounds settings fresh s t v u cause fault visited chosen failed unheard
  · obtain ⟨body, result, task, ran, same⟩ := task
    cases result with
    | ok _ => cases same
    | error fault =>
        cases same
        rcases attempt_fault lawful body t u fault ran with ⟨failed, silent⟩ | ⟨cause, failed, unheard⟩
        · rcases (task_ends settings choice body task lawful arrays typed t).fails t u fault
              (Session.steady_refl _ t) after failed with reported | ⟨rfl, none⟩ | cause
          · exact absurd reported silent
          · exact .unanswered rounds settings s u visited none
          · exact .escaped rounds settings s t u choice body fault visited chosen task failed silent cause
        · exact .unheard rounds settings s t u choice body cause fault visited chosen task failed unheard

theorem loop_closes (s₀ s u : Session) (rounds : Nat) (settings : Settings) (visited : Visits s₀ rounds settings s)
    (outcome : Except Fault Unit) (ran : (loop rounds settings).runIn s = (outcome, u))
    (valid : s₀.WellAnswered u) : Closes s₀ outcome u := by
  -- On the rounds that are left. Every turn takes an answer, so there are always more rounds than answers.
  induction rounds generalizing s settings with
  | zero => exact absurd (visited_rounds s₀ s 0 settings visited) (Nat.not_lt_zero _)
  | succ rounds ih =>
      obtain ⟨sooner, here⟩ := Session.well_answered_parts s₀ s u (visited_onward s₀ s _ settings visited)
        (onward_ran _ (loop_onward (rounds + 1) settings) s u _ ran) valid
      rw [loop_turn] at ran
      rcases bind_run_cases _ _ _ _ _ ran with ⟨fault, failed, rfl⟩ | ⟨next, t, turned, rest⟩
      · exact failed_turn_closes lawful arrays s₀ s u _ settings
          (visited_typed lawful s₀ s _ settings visited sooner) visited fault failed here
      · cases next with
        | some later => exact ih t later (.turned rounds settings later s t visited turned) rest
        | none =>
            cases rest
            rcases turn_cases lawful settings s u _ turned here with
              ⟨absurdly, _⟩ | ⟨choice, t, chosen, _, left | edited | task⟩
            · cases absurdly
            · obtain ⟨rfl, _, rfl⟩ := left
              exact .left _ settings s t visited chosen
            · obtain ⟨_, result, _, same⟩ := edited
              cases result <;> cases same
            · obtain ⟨_, result, _, _, same⟩ := task
              cases result <;> cases same

theorem start_closes (s₀ u : Session) (outcome : Except Fault Unit) (ran : start.runIn s₀ = (outcome, u))
    (valid : s₀.WellAnswered u) :
    Closes s₀ outcome u := by
  rcases bind_run_cases _ _ _ _ _ ran with ⟨fault, failed, rfl⟩ | ⟨settings, s, loaded, rest⟩
  · exact .unread fault u failed
  · exact loop_closes lawful arrays s₀ s u _ settings (.opened settings s loaded) outcome rest valid

end Closing

section Failures

variable (s₀ s t u : Session) (rounds : Nat) (settings : Settings) (visited : Visits s₀ rounds settings s)
  (choice : Text) (body : Job Unit) (task : (choice, body) ∈ tasks settings) (chosen : Chosen s choice t)
  (fault : Fault) (failed : body.runIn t = (.error fault, u))

include task chosen

theorem run_chosen_task : (turn settings).runIn s =
    (((attempt body).runIn t).1.map fun _ => some settings, ((attempt body).runIn t).2) := by
  rw [turn_prompt, run_bind, chosen]
  dsimp only
  rw [respond_task settings choice body task, run_return _ _ fun _ => some settings]

include visited failed

theorem told_task_goes_on (reported : fault.Reported)
    (taken : Screen.refuses (Command.complaint "Error" fault) = none) :
    ∃ left, Visits s₀ (left + 1) settings (u.told (Command.complaint "Error" fault)) := by
  have turned : (turn settings).runIn s = (.ok (some settings), u.told (Command.complaint "Error" fault)) := by
    rw [run_chosen_task s t settings choice body task chosen, attempt_told body t u fault failed reported taken]
    rfl
  obtain ⟨n, rfl⟩ := visited_left s₀ s rounds settings visited
  have next : Visits s₀ n settings _ := .turned n settings settings s _ visited turned
  obtain ⟨left, rfl⟩ := visited_left s₀ _ n settings next
  exact ⟨left, next⟩

omit failed in
theorem failed_task_ends (escaped : Fault) (ran : (attempt body).runIn t = (.error escaped, u)) :
    start.runIn s₀ = (.error escaped, u) := by
  obtain ⟨n, rfl⟩ := visited_left s₀ s rounds settings visited
  rw [start_visits s₀ s _ settings visited, loop_turn, run_bind,
    run_chosen_task s t settings choice body task chosen, ran]
  rfl

end Failures

/-- If all answers suit, the menu ends where it is left or no answer is left, or else with a fault
of one of the few kinds that escape. After every fault of a task that is reported it says so and
goes on, unless the screen refuses the message for a tag in it, which ends it. -/
theorem menu_goes_on_unless_a_fault_escapes (lawful : Screen.Lawful) (arrays : Arrays.Lawful) (s₀ : Session)
    (valid : s₀.WellAnswered (start.runIn s₀).2) :
    Closes s₀ (start.runIn s₀).1 (start.runIn s₀).2 ∧
      ∀ (s t u : Session) (rounds : Nat) (settings : Settings) (choice : Text) (body : Job Unit) (fault : Fault),
        Visits s₀ rounds settings s → (choice, body) ∈ tasks settings → Chosen s choice t →
          body.runIn t = (.error fault, u) → fault.Reported →
            (Screen.refuses (Command.complaint "Error" fault) = none →
              ∃ left, Visits s₀ (left + 1) settings (u.told (Command.complaint "Error" fault)) ∧
                start.runIn s₀ = (loop (left + 1) settings).runIn (u.told (Command.complaint "Error" fault))) ∧
            ∀ message, Screen.refuses (Command.complaint "Error" fault) = some message →
              fault.message.untagged = false ∧
                start.runIn s₀ = (.error (.markup (Command.complaint "Error" fault) message), u) := by
  refine ⟨start_closes lawful arrays s₀ _ _ rfl valid, ?_⟩
  intro s t u rounds settings choice body fault visited task chosen failed reported
  refine ⟨fun taken => ?_,
    fun message refused => ⟨Command.complaint_tagged lawful "Error" rfl fault message refused, ?_⟩⟩
  · obtain ⟨left, next⟩ :=
      told_task_goes_on s₀ s t u rounds settings visited choice body task chosen fault failed reported taken
    exact ⟨left, next, start_visits s₀ _ _ settings next⟩
  · exact failed_task_ends s₀ s t u rounds settings visited choice body task chosen _
      (attempt_unheard body t u fault failed reported message refused)

end Rounds

section Runs

open scoped StandIn

def misspelt : Session where
  store := { files := [(["machines", "a.tm"], [63])], folders := [["machines"]] }
  answers := [.text "3", .int 0, .text "5"]

theorem misspelt_definition_is_reported :
    ∃ t u fault left, Chosen misspelt "3" t ∧ inspect.runIn t = (.error fault, u) ∧
      Visits misspelt (left + 1) Settings.defaults (u.told (Command.complaint "Error" fault)) ∧
      (start.runIn misspelt).1 = .ok () ∧
      Closes misspelt (start.runIn misspelt).1 (start.runIn misspelt).2 := by
  have valid : misspelt.WellAnswered (start.runIn misspelt).2 := by decide +kernel
  obtain ⟨closes, goes_on⟩ :=
    menu_goes_on_unless_a_fault_escapes StandIn.screen_lawful StandIn.arrays_lawful misspelt valid
  have opened : Visits misspelt 4 Settings.defaults misspelt := .opened Settings.defaults misspelt rfl
  have chosen : Chosen misspelt "3" (prompt.runIn misspelt).2 := run_result _ _ (by decide +kernel)
  have refused : (inspect.runIn (prompt.runIn misspelt).2).1.mapError Fault.kind = .error .refusedLine := by
    decide +kernel
  obtain ⟨fault, failed, kind⟩ := (map_error_error _ _ _).mp refused
  have ran : inspect.runIn (prompt.runIn misspelt).2 =
      (.error fault, (inspect.runIn (prompt.runIn misspelt).2).2) := by rw [← failed]
  have reported : fault.Reported := by
    rw [Fault.Reported, kind]
    rfl
  obtain ⟨left, next, _⟩ :=
    (goes_on _ _ _ 4 Settings.defaults "3" inspect fault opened (by simp [tasks]) chosen ran reported).1 rfl
  exact ⟨_, _, fault, left, chosen, ran, next, (to_option_ok _ ()).mp (by decide +kernel), closes⟩

def tooWide : Session where
  store := {
    files := [(["machines", "a.tm"], (Utf8.encode "%charset 1 _\n%blank _\n> 18446744073709551616 A\n").getD [])]
    folders := [["machines"]] }
  answers := [.text "3", .int 0, .text "binary", .text "5"]

theorem wide_definition_ends_the_menu :
    tooWide.WellAnswered (start.runIn tooWide).2 ∧ (start.runIn tooWide).2.answers ≠ [] ∧
    ∃ t u fault, Visits tooWide 5 Settings.defaults tooWide ∧ Chosen tooWide "3" t ∧
      inspect.runIn t = (.error fault, u) ∧ fault.kind = .outOfField ∧
      start.runIn tooWide = (.error fault, u) := by
  have opened : Visits tooWide 5 Settings.defaults tooWide := .opened Settings.defaults tooWide rfl
  have chosen : Chosen tooWide "3" (prompt.runIn tooWide).2 := run_result _ _ (by decide +kernel)
  have refused : (inspect.runIn (prompt.runIn tooWide).2).1.mapError Fault.kind = .error .outOfField := by
    decide +kernel
  obtain ⟨fault, failed, kind⟩ := (map_error_error _ _ _).mp refused
  have ran : inspect.runIn (prompt.runIn tooWide).2 =
      (.error fault, (inspect.runIn (prompt.runIn tooWide).2).2) := by rw [← failed]
  have silent : ¬ fault.Reported := by
    rw [Fault.Reported, kind]
    decide
  have ends := failed_task_ends tooWide tooWide _ _ 5 Settings.defaults opened "3" inspect (by simp [tasks])
    chosen fault (attempt_escaped inspect _ _ fault ran silent)
  exact ⟨by decide +kernel, by decide +kernel, _, _, fault, opened, chosen, ran, kind, ends⟩

end Runs

end Menu

end TapeMachine
