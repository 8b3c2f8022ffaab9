import TapeMachine.Proofs.Unasked

set_option autoImplicit false

namespace TapeMachine

def Print.takes : Print → Json → Bool
  | .ask _ default _, .null => default.isSome
  | .ask _ _ (some choices), .text t => choices.contains t
  | .ask _ (some (.bool _)) none, .bool _ => true
  | .ask _ (some (.bool _)) none, _ => false
  | .ask _ _ none, .int _ => true
  | _, _ => false

theorem zip_append_left {α β : Type} (xs ys : List α) (zs : List β) :
    (xs ++ ys).zip zs = xs.zip zs ++ ys.zip (zs.drop xs.length) := by
  induction xs generalizing zs with
  | nil => rfl
  | cons x xs ih =>
      cases zs with
      | nil => simp
      | cons z zs => simp [ih zs]

namespace Session

def Onward (s s' : Session) : Prop :=
  ∃ asked given, s'.questions = s.questions ++ asked ∧ s.answers = given ++ s'.answers ∧ given.length ≤ asked.length ∧
    (s'.answers ≠ [] → given.length = asked.length)

/-- Every answer that was taken between two sessions suits its question. -/
def WellAnswered (s s' : Session) : Prop :=
  ∀ pair ∈ (s'.questions.drop s.questions.length).zip s.answers, pair.1.takes pair.2 = true

instance (s s' : Session) : Decidable (s.WellAnswered s') := inferInstanceAs (Decidable (∀ pair ∈ _, _))

theorem onward_refl (s : Session) : s.Onward s := ⟨[], [], by simp, rfl, Nat.le_refl _, fun _ => rfl⟩

theorem onward_trans (a b c : Session) (before : a.Onward b) (after : b.Onward c) : a.Onward c := by
  obtain ⟨asked, given, questions, answers, fewer, each⟩ := before
  obtain ⟨asked', given', questions', answers', fewer', each'⟩ := after
  refine ⟨asked ++ asked', given ++ given', ?_, ?_, ?_, ?_⟩
  · rw [questions', questions, List.append_assoc]
  · rw [answers, answers', List.append_assoc]
  · rw [List.length_append, List.length_append]
    exact Nat.add_le_add fewer fewer'
  · intro more
    have left : b.answers ≠ [] := by
      rw [answers']
      exact List.append_ne_nil_of_right_ne_nil given' more
    rw [List.length_append, List.length_append, each left, each' more]

theorem onward_fewer (s s' : Session) (onward : s.Onward s') : s'.answers.length ≤ s.answers.length := by
  obtain ⟨_, given, _, answers, _⟩ := onward
  rw [answers, List.length_append]
  exact Nat.le_add_left _ _

theorem unasked_onward (s s' : Session) (unasked : s.Unasked s') : s.Onward s' :=
  ⟨[], [], by simp [unasked.questions], by simp [unasked.answers], Nat.le_refl _, fun _ => rfl⟩

theorem well_answered_parts (a b c : Session) (before : a.Onward b) (after : b.Onward c) (valid : a.WellAnswered c) :
    a.WellAnswered b ∧ b.WellAnswered c := by
  obtain ⟨asked, given, questions, answers, fewer, each⟩ := before
  obtain ⟨asked', given', questions', _, _, _⟩ := after
  have whole : c.questions.drop a.questions.length = asked ++ asked' := by
    rw [questions', questions, List.append_assoc, List.drop_left]
  have first : b.questions.drop a.questions.length = asked := by rw [questions, List.drop_left]
  have second : c.questions.drop b.questions.length = asked' := by rw [questions', List.drop_left]
  rw [WellAnswered, whole, zip_append_left, List.forall_mem_append] at valid
  refine ⟨by rw [WellAnswered, first]; exact valid.1, ?_⟩
  rw [WellAnswered, second]
  by_cases more : b.answers = []
  · simp [more]
  · have rest : a.answers.drop asked.length = b.answers := by rw [answers, ← each more, List.drop_left]
    rw [← rest]
    exact valid.2

end Session

namespace Job

variable {α β : Type}

theorem onward_bind (job : Job α) (next : α → Job β) (first : job.Keeps Session.Onward)
    (second : ∀ a, (next a).Keeps Session.Onward) : (job >>= next).Keeps Session.Onward :=
  keeps_bind _ Session.onward_trans job next first second

theorem onward_ran (job : Job α) (onward : job.Keeps Session.Onward) (s s' : Session) (outcome : Except Fault α)
    (ran : job.runIn s = (outcome, s')) : s.Onward s' := by
  have kept := onward s
  rwa [ran] at kept

theorem unasked_onward (job : Job α) (unasked : job.Keeps Session.Unasked) : job.Keeps Session.Onward := fun s =>
  Session.unasked_onward s _ (unasked s)

theorem pure_onward (a : α) : (pure a : Job α).Keeps Session.Onward := keeps_pure _ Session.onward_refl a

theorem lift_onward (result : Except Fault α) : (lift result).Keeps Session.Onward :=
  keeps_lift _ Session.onward_refl result

theorem print_onward [Screen] (p : Print) (plain : p.isQuestion = false) : (print p).Keeps Session.Onward :=
  unasked_onward _ (print_unasked p plain)

theorem say_onward [Screen] (t : Text) : (say t).Keeps Session.Onward := unasked_onward _ (say_unasked t)

section Asking

variable [Screen] (question : Text) (default : Option Json) (choices : Option (List Text))

theorem run_ask (s : Session) (taken : Screen.refuses question = none) : (ask question default choices).runIn s =
    match s.answers with
    | [] => (.error .noAnswer, s.shown (.ask question default choices))
    | .null :: rest => (.ok (default.getD .null), { s.shown (.ask question default choices) with answers := rest })
    | answer :: rest => (.ok answer, { s.shown (.ask question default choices) with answers := rest }) := by
  have printed : (print (.ask question default choices)).runIn s = (.ok (), s.shown (.ask question default choices)) :=
    run_print_taken s _ (by simpa [Print.markup] using taken)
  have unfolded : (ask question default choices).runIn s =
      Job.runIn (s.shown (.ask question default choices)) (match s.answers with
        | [] => throw .noAnswer
        | .null :: rest => do
            modify fun s => { s with answers := rest }
            return default.getD .null
        | answer :: rest => do
            modify fun s => { s with answers := rest }
            return answer : Job Json) := by
    rw [ask, run_bind, printed]
    rfl
  rw [unfolded]
  split <;> rfl

theorem run_ask_refused (s : Session) (message : Text) (refused : Screen.refuses question = some message) :
    (ask question default choices).runIn s = (.error (.markup question message), s) := by
  have printed : (print (.ask question default choices)).runIn s = (.error (.markup question message), s) := by
    rw [run_print, Print.markup, Screen.takes_single, refused]
  rw [ask, run_bind, printed]

theorem ask_cases (taken : Screen.refuses question = none) (s s' : Session) (outcome : Except Fault Json)
    (ran : (ask question default choices).runIn s = (outcome, s')) :
    s'.questions = s.questions ++ [.ask question default choices] ∧ s'.store = s.store ∧
      ((s.answers = [] ∧ s'.answers = [] ∧ outcome = .error .noAnswer) ∨
        ∃ given, s.answers = given :: s'.answers ∧
          outcome = .ok (if given = .null then default.getD .null else given)) := by
  have added : (s.printed ++ [Print.ask question default choices]).filter Print.isQuestion =
      s.questions ++ [Print.ask question default choices] := by simp [Session.questions, Print.isQuestion]
  rw [run_ask question default choices s taken] at ran
  split at ran
  · rename_i none
    cases ran
    exact ⟨added, rfl, .inl ⟨none, none, rfl⟩⟩
  · rename_i rest given
    cases ran
    exact ⟨added, rfl, .inr ⟨.null, given, rfl⟩⟩
  · rename_i answer rest some given
    cases ran
    exact ⟨added, rfl, .inr ⟨answer, given, by rw [if_neg some]⟩⟩

theorem ask_taken (s s' : Session) (answer : Json) (ran : (ask question default choices).runIn s = (.ok answer, s')) :
    Screen.refuses question = none := by
  cases taken : Screen.refuses question with
  | none => rfl
  | some message =>
      rw [run_ask_refused question default choices s message taken] at ran
      cases ran

theorem ask_takes (s s' : Session) (answer : Json) (ran : (ask question default choices).runIn s = (.ok answer, s')) :
    s'.answers.length < s.answers.length := by
  have taken := ask_taken question default choices s s' answer ran
  obtain ⟨_, _, ⟨_, _, failed⟩ | ⟨given, took, _⟩⟩ := ask_cases question default choices taken s s' _ ran
  · cases failed
  · rw [took]
    exact Nat.lt_succ_self _

theorem ask_onward : (ask question default choices).Keeps Session.Onward := by
  intro s
  cases taken : Screen.refuses question with
  | some message =>
      rw [run_ask_refused question default choices s message taken]
      exact Session.onward_refl s
  | none =>
      cases ran : (ask question default choices).runIn s with
      | mk outcome t =>
          obtain ⟨asked, _, ⟨none, none', _⟩ | ⟨given, took, _⟩⟩ :=
            ask_cases question default choices taken s t outcome ran
          · exact ⟨_, [], asked, by rw [none, none']; rfl, by simp, fun some => absurd none' some⟩
          · exact ⟨_, [given], asked, took, Nat.le_refl _, fun _ => rfl⟩

theorem ask_suited (s s' : Session) (answer : Json) (ran : (ask question default choices).runIn s = (.ok answer, s'))
    (valid : s.WellAnswered s') :
    default = some answer ∨ answer ≠ .null ∧ (Print.ask question default choices).takes answer = true := by
  have taken := ask_taken question default choices s s' answer ran
  obtain ⟨asked, _, ⟨_, _, failed⟩ | ⟨given, took, same⟩⟩ := ask_cases question default choices taken s s' _ ran
  · cases failed
  · rw [Session.WellAnswered, asked, List.drop_left, took] at valid
    have suits : (Print.ask question default choices).takes given = true := valid (_, given) (by simp)
    cases same
    by_cases nothing : given = .null
    · rw [if_pos nothing]
      rw [nothing, Print.takes] at suits
      obtain ⟨value, rfl⟩ := Option.isSome_iff_exists.mp suits
      exact .inl rfl
    · rw [if_neg nothing]
      exact .inr ⟨nothing, suits⟩

end Asking

structure Ends (before : Session → Prop) (job : Job α) (yields : α → Session → Prop)
    (fails : Fault → Session → Prop) : Prop where
  onward : job.Keeps Session.Onward
  yields : ∀ s t a, before s → s.WellAnswered t → job.runIn s = (.ok a, t) → yields a t
  fails : ∀ s t fault, before s → s.WellAnswered t → job.runIn s = (.error fault, t) → fails fault t

section Ending

variable (before : Session → Prop) (yields : α → Session → Prop) (replies : Json → Session → Prop)
  (fails : Fault → Session → Prop)

theorem ends_bind (between : α → Session → Prop) (later : β → Session → Prop) (job : Job α) (next : α → Job β)
    (first : job.Ends before between fails) (second : ∀ a, (next a).Ends (between a) later fails) :
    (job >>= next).Ends before later fails := by
  have split (s t u : Session) (a : α) (outcome : Except Fault β) (valid : s.WellAnswered u)
    (ran : job.runIn s = (.ok a, t))
    (rest : (next a).runIn t = (outcome, u)) : s.WellAnswered t ∧ t.WellAnswered u :=
    Session.well_answered_parts s t u (onward_ran job first.onward s t _ ran)
      (onward_ran (next a) (second a).onward t u _ rest) valid
  refine ⟨onward_bind job next first.onward fun a => (second a).onward, ?_, ?_⟩
  · intro s u b holds valid ran
    obtain ⟨a, t, front, rest⟩ := (bind_run_ok _ _ _ _ _).mp ran
    obtain ⟨here, after⟩ := split s t u a _ valid front rest
    exact (second a).yields t u b (first.yields s t a holds here front) after rest
  · intro s u fault holds valid ran
    rcases bind_run_cases _ _ _ _ _ ran with ⟨_, failed, same⟩ | ⟨a, t, front, rest⟩
    · cases same
      exact first.fails s u fault holds valid failed
    · obtain ⟨here, after⟩ := split s t u a _ valid front rest
      exact (second a).fails t u fault (first.yields s t a holds here front) after rest

theorem ends_from (sooner : Session → Prop) (job : Job α) (ends : job.Ends before yields fails)
    (within : ∀ s, sooner s → before s) :
    job.Ends sooner yields fails :=
  ⟨ends.onward, fun s t a here => ends.yields s t a (within s here),
    fun s t fault here => ends.fails s t fault (within s here)⟩

theorem ends_pure (a : α) (holds : ∀ s, before s → yields a s) : (pure a : Job α).Ends before yields fails := by
  refine ⟨pure_onward a, ?_, ?_⟩
  · intro s t b here _ ran
    cases ran
    exact holds s here
  · intro s t fault _ _ ran
    cases ran

theorem ends_unasked (job : Job α) (unasked : job.Keeps Session.Unasked)
    (ok : ∀ s t a, before s → job.runIn s = (.ok a, t) → yields a t)
    (error : ∀ s t fault, before s → job.runIn s = (.error fault, t) → fails fault t) : job.Ends before yields fails :=
  ⟨unasked_onward job unasked, fun s t a holds _ ran => ok s t a holds ran,
    fun s t fault holds _ ran => error s t fault holds ran⟩

theorem ends_say [Screen] (after : Unit → Session → Prop) (t : Text) (taken : Screen.refuses t = none)
    (holds : ∀ s, before s → after () (s.told t)) : (say t).Ends before after fails := by
  refine ends_unasked _ _ _ _ (say_unasked t) (fun s u _ here ran => ?_) fun s u fault _ ran => ?_
  · rw [run_say s t taken] at ran
    cases ran
    exact holds s here
  · rw [run_say s t taken] at ran
    cases ran

theorem ends_said [Screen] (ts : List Text) (taken : ∀ t ∈ ts, Screen.refuses t = none) :
    (ts.forM say).Ends (fun _ => True) (fun _ _ => True) fails := by
  induction ts with
  | nil => exact ends_pure _ _ _ _ fun _ _ => trivial
  | cons t rest ih =>
      obtain ⟨first, others⟩ := List.forall_mem_cons.mp taken
      exact ends_bind _ _ (fun _ _ => True) _ (say t) (fun _ => rest.forM say)
        (ends_say _ _ _ t first fun _ _ => trivial) fun _ => ih others

theorem ends_ask [Screen] (question : Text) (default : Option Json) (choices : Option (List Text))
    (taken : Screen.refuses question = none) (unanswered : ∀ t, t.answers = [] → fails .noAnswer t)
    (answered : ∀ s t answer, before s → t.store = s.store →
      (default = some answer ∨ answer ≠ .null ∧ (Print.ask question default choices).takes answer = true) →
        replies answer t) :
    (ask question default choices).Ends before replies fails := by
  refine ⟨ask_onward question default choices, ?_, ?_⟩
  · intro s t answer holds valid ran
    exact answered s t answer holds (ask_cases _ _ _ taken s t _ ran).2.1 (ask_suited _ _ _ s t answer ran valid)
  · intro s t fault _ _ ran
    obtain ⟨_, _, ⟨_, none, same⟩ | ⟨_, _, same⟩⟩ := ask_cases _ _ _ taken s t _ ran
    · cases same
      exact unanswered t none
    · cases same

end Ending

end Job

end TapeMachine
