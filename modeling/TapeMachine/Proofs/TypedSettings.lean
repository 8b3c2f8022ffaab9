import Mathlib.Data.List.Nodup
import TapeMachine.Proofs.MenuSettings
import TapeMachine.Proofs.ReportedFaults
import TapeMachine.Proofs.TameTexts

set_option autoImplicit false

namespace TapeMachine

namespace Entries

@[simp] theorem same_key_text (key : Json) (t : Text) : key.sameKey (.text t) = true ↔ key = .text t := by
  cases key with
  | float d => cases whole : d.toInt? <;> simp [Json.sameKey, Json.asInt?, whole]
  | _ => simp [Json.sameKey, Json.asInt?, Json.isNotNumber]

theorem find_insert_text (key t : Text) (value : Json) (entries : Entries) :
    (entries.insert (.text t) value).find? (.text key) = if t = key then some value else entries.find? (.text key) := by
  induction entries with
  | nil => simp [insert, insertBy, find?]
  | cons entry rest ih =>
      obtain ⟨k, v⟩ := entry
      rw [insert] at ih ⊢
      by_cases hit : k = .text t
      · subst hit
        by_cases same : t = key
        · simp [insertBy, find?, same]
        · simp [insertBy, find?, same]
      · by_cases found : k = .text key
        · subst found
          have apart : ¬ t = key := fun same => hit (same ▸ rfl)
          simp [insertBy, find?, hit, apart]
        · simp [insertBy, find?, hit, found, ih]

end Entries

namespace SettingType

theorem whole_accepts (value : Json) : whole.accepts value = true ↔ ∃ i, value = .int i := by
  cases value <;> simp [accepts]

theorem truth_accepts (value : Json) : truth.accepts value = true ↔ ∃ b, value = .bool b := by
  cases value <;> simp [accepts]

theorem text_accepts (value : Json) : text.accepts value = true ↔ ∃ t, value = .text t := by
  cases value <;> simp [accepts]

end SettingType

namespace Settings

def Typed (settings : Settings) : Prop := ∀ pair ∈ required, ∃ value, settings.find? pair.1 = some value ∧
    pair.2.accepts value = true

/-- A value of the type of a required key. -/
def Fitting (key : Text) (value : Json) : Prop := ∃ expected, (key, expected) ∈ required ∧ expected.accepts value = true

theorem check_types_ok (settings : Settings) (pairs : List (Text × SettingType)) : checkTypes settings pairs = .ok () ↔
    ∀ pair ∈ pairs, ∃ value, settings.find? pair.1 = some value ∧ pair.2.accepts value = true := by
  induction pairs with
  | nil => simp [checkTypes]
  | cons pair rest ih =>
      obtain ⟨key, expected⟩ := pair
      rw [checkTypes, List.forall_mem_cons]
      cases found : settings.find? key with
      | none => simp
      | some value =>
          by_cases accepted : expected.accepts value = true
          · simp [accepted, ih]
          · simp [accepted]

theorem typed_of_checked (settings : Settings) (checked : validate settings = .ok ()) : settings.Typed := by
  obtain ⟨_, types, _⟩ := (bind_ok _ _ _).mp checked
  exact (check_types_ok settings required).mp types

theorem check_positive_reported (settings : Settings) (keys : List Text) (fault : SettingsFault)
    (failed : checkPositive settings keys = .error fault) : (Fault.settings fault).Reported := by
  induction keys with
  | nil => cases failed
  | cons key rest ih =>
      simp only [checkPositive] at failed
      split at failed
      · exact ih failed
      · cases failed
        rfl

theorem check_unsigned_reported (settings : Settings) (keys : List Text) (fault : SettingsFault)
    (failed : checkUnsigned settings keys = .error fault) : (Fault.settings fault).Reported := by
  induction keys with
  | nil => cases failed
  | cons key rest ih =>
      simp only [checkUnsigned] at failed
      split at failed
      · cases failed
        rfl
      · exact ih failed

theorem validate_reported (settings : Settings) (typed : settings.Typed) (fault : SettingsFault)
    (failed : validate settings = .error fault) :
    (Fault.settings fault).Reported := by
  rcases (bind_error _ _ _).mp failed with untyped | ⟨_, _, failed⟩
  · rw [(check_types_ok settings required).mpr typed] at untyped
    cases untyped
  · rcases (bind_error _ _ _).mp failed with below | ⟨_, _, below⟩
    · exact check_positive_reported settings positiveKeys fault below
    · exact check_unsigned_reported settings unsignedKeys fault below

theorem save_reported (settings : Settings) (typed : settings.Typed) (path : Text) :
    (save settings path).Only Fault.Reported := by
  refine Job.only_bind _ _ _ (Job.only_mapped _ _ _ (validate_reported settings typed)) fun _ => ?_
  exact Job.only_bind _ _ _ (Job.change_reported _) fun _ => Job.write_text_reported _ _

theorem required_type (key : Text) (left right : SettingType) (first : (key, left) ∈ required)
    (second : (key, right) ∈ required) :
    left = right := by
  have distinct : (required.map Prod.fst).Nodup := by decide
  have same := List.inj_on_of_nodup_map distinct first second rfl
  exact (Prod.mk.inj same).2

theorem typed_insert (settings : Settings) (key : Text) (value : Json) (typed : settings.Typed)
    (fitting : Fitting key value) :
    Typed (Entries.insert (.text key) value settings) := by
  obtain ⟨expected, known, accepted⟩ := fitting
  rintro ⟨other, type⟩ mem
  rw [find?, Entries.find_insert_text]
  by_cases same : key = other
  · subst same
    rw [if_pos rfl]
    exact ⟨value, rfl, required_type key expected type known mem ▸ accepted⟩
  · rw [if_neg same]
    exact typed (other, type) mem

theorem typed_insert_all (settings : Settings) (answers : Entries) (typed : settings.Typed)
    (each : ∀ entry ∈ answers, ∃ key, entry.1 = .text key ∧ Fitting key entry.2) :
    Typed (Entries.insertAll answers settings) := by
  induction answers generalizing settings with
  | nil => exact typed
  | cons entry rest ih =>
      obtain ⟨⟨key, named, fitting⟩, others⟩ := List.forall_mem_cons.mp each
      obtain ⟨_, value⟩ := entry
      cases named
      exact ih (Entries.insert (.text key) value settings) (typed_insert settings key value typed fitting) others

end Settings

namespace Menu

open Job Settings

theorem suited_type (question : Text) (expected : SettingType)
    (plain : expected = .whole ∨ expected = .truth) (value answer : Json)
    (accepted : expected.accepts value = true) (given : answer ≠ .null)
    (suits : (Print.ask question (some value) none).takes answer = true) : expected.accepts answer = true := by
  rcases plain with rfl | rfl
  · obtain ⟨i, rfl⟩ := (SettingType.whole_accepts value).mp accepted
    cases answer <;> first | rfl | contradiction
  · obtain ⟨b, rfl⟩ := (SettingType.truth_accepts value).mp accepted
    cases answer <;> first | rfl | contradiction

def Askable (key : Text) : Prop := (key, .whole) ∈ required ∨ (key, .truth) ∈ required

instance (key : Text) : Decidable (Askable key) := inferInstanceAs (Decidable (_ ∨ _))

theorem answer_fitting (settings : Settings) (question key : Text) (askable : Askable key)
    (typed : settings.Typed) (answer : Json)
    (suits : settings.find? key = some answer ∨ answer ≠ .null ∧
      (Print.ask question (settings.find? key) none).takes answer = true) :
    Fitting key answer := by
  obtain ⟨expected, known, plain⟩ : ∃ expected, (key, expected) ∈ required ∧ (expected = .whole ∨ expected = .truth) :=
    askable.elim (fun known => ⟨.whole, known, .inl rfl⟩) (fun known => ⟨.truth, known, .inr rfl⟩)
  obtain ⟨value, found, accepted⟩ := typed _ known
  refine ⟨expected, known, ?_⟩
  rw [found] at suits
  rcases suits with same | ⟨given, suits⟩
  · cases same
    exact accepted
  · exact suited_type question expected plain value answer accepted given suits

def Unanswered (fault : Fault) (t : Session) : Prop := fault = .noAnswer ∧ t.answers = []

section Edits

variable [Screen] (lawful : Screen.Lawful) (settings : Settings)

include lawful

theorem asked_fitting (questions : List (Text × Text))
    (askable : ∀ q ∈ questions, q.1.bracketless = true ∧ Askable q.2) :
    (questions.mapM fun (question, key) => do return (Json.text key, ← askSetting question key settings) :
      Job (List (Json × Json))).Ends
      (fun _ => settings.Typed)
      (fun answers _ => ∀ entry ∈ answers, ∃ key, entry.1 = .text key ∧ Fitting key entry.2) Unanswered := by
  induction questions with
  | nil => exact ends_pure _ _ _ _ fun _ _ => by simp
  | cons q rest ih =>
      obtain ⟨question, key⟩ := q
      obtain ⟨⟨bare, known⟩, others⟩ := List.forall_mem_cons.mp askable
      rw [List.mapM_cons]
      refine ends_bind _ _ (fun entry _ => settings.Typed ∧ entry.1 = .text key ∧ Fitting key entry.2)
        _ _ _ ?_ fun entry => ?_
      · refine ends_bind _ _ (fun answer _ => settings.Typed ∧ Fitting key answer) _ _ _ ?_ fun answer => ?_
        · exact ends_ask _ _ _ _ _ _ (Screen.bracketless_taken lawful _ bare) (fun t none => ⟨rfl, none⟩)
            fun _ _ answer typed _ suits =>
            ⟨typed, answer_fitting settings question key known typed answer suits⟩
        · exact ends_pure _ _ _ _ fun _ here => ⟨here.1, rfl, here.2⟩
      · refine ends_bind _ _ (fun answers _ => (entry.1 = .text key ∧ Fitting key entry.2) ∧
          ∀ entry ∈ answers, ∃ key, entry.1 = .text key ∧ Fitting key entry.2) _ _ _ ?_ fun answers => ?_
        · have later := ih others
          exact ⟨later.onward, fun s t answers here valid ran => ⟨here.2, later.yields s t answers here.1 valid ran⟩,
            fun s t fault here => later.fails s t fault here.1⟩
        · exact ends_pure _ _ _ _ fun _ here => List.forall_mem_cons.mpr ⟨⟨key, here.1⟩, here.2⟩

theorem edited_typed :
    (edited settings).Ends (fun _ => settings.Typed) (fun fresh _ => Settings.Typed fresh) Unanswered := by
  refine ends_bind _ _ (fun _ _ => settings.Typed) _ _ _ ?_ fun _ => ?_
  · exact ends_say _ _ _ _ (title_taken lawful _ rfl) fun _ typed => typed
  · refine ends_bind _ _ (fun answers _ => settings.Typed ∧
      ∀ entry ∈ answers, ∃ key, entry.1 = .text key ∧ Fitting key entry.2) _ _ _ ?_ fun answers => ?_
    · have asked := asked_fitting lawful settings editQuestions (by decide)
      exact ⟨asked.onward,
        fun s t answers typed valid ran => ⟨typed, asked.yields s t answers typed valid ran⟩, asked.fails⟩
    · exact ends_pure _ _ _ _ fun _ here => typed_insert_all settings answers here.1 here.2

def Unreadable (fault : Fault) (t : Session) : Prop :=
  ¬ fault.Reported ∧ ∃ fresh s u, (save fresh defaultPath).runIn s = (.ok (), u) ∧
    (loadOrDefault defaultPath).runIn (u.told updated) = (.error fault, t)

theorem reload_fault (fresh : Settings) (typed : fresh.Typed) (s t : Session) (fault : Fault)
    (ran : (saveAndReload fresh).runIn s = (.error fault, t)) (silent : ¬ fault.Reported) : Unreadable fault t := by
  refine ⟨silent, ?_⟩
  rcases only_or _ _ _ (save_reported fresh typed _) _ _ _ ran with reported | ⟨_, u, saved, ran⟩
  · exact absurd reported silent
  · rw [run_bind, run_say u _ (updated_taken lawful)] at ran
    exact ⟨fresh, s, u, saved, ran⟩

/-- A fault that is told in a text which the screen refuses. -/
def Unheard (cause fault : Fault) : Prop :=
  cause.Reported ∧ cause.message.untagged = false ∧
    ∃ message, Screen.refuses (Command.complaint "Error" cause) = some message ∧
    fault = .markup (Command.complaint "Error" cause) message

theorem refused_unheard (cause : Fault) (message : Text) (reported : cause.Reported)
    (refused : Screen.refuses (Command.complaint "Error" cause) = some message) :
    Unheard cause (.markup (Command.complaint "Error" cause) message) :=
  ⟨reported, Command.complaint_tagged lawful "Error" rfl cause message refused, message, refused, rfl⟩

theorem edit_typed :
    (edit settings).Ends (fun _ => settings.Typed) (fun later _ => Settings.Typed later)
      (fun fault t => Unanswered fault t ∨ Unreadable fault t ∨
        ∃ fresh s cause, (saveAndReload fresh).runIn s = (.error cause, t) ∧ Unheard cause fault) := by
  have asked := edited_typed lawful settings
  refine ends_bind _ _ (fun fresh _ => Settings.Typed fresh) _ _ _
    ⟨asked.onward, asked.yields,
      fun s t fault here valid ran => .inl (asked.fails s t fault here valid ran)⟩ fun fresh => ?_
  refine ends_bind _ _ (fun result _ => Settings.Typed fresh ∧ ∀ later, result = some later → Settings.Typed later)
    _ _ _ ?_ fun result => ?_
  · refine ⟨Command.reported_onward _ _ _ (save_and_reload_onward fresh), ?_, ?_⟩
    · intro s t result typed _ ran
      refine ⟨typed, ?_⟩
      rintro later rfl
      cases Command.reported_ended _ _ _ s t _ ran with
      | done _ _ saved => exact typed_of_checked later (reload_checked fresh later s t saved)
    · intro s t fault typed _ ran
      cases Command.reported_ended _ _ _ s t _ ran with
      | unheard cause _ message failed reported refused =>
          exact .inr (.inr ⟨fresh, s, cause, failed, refused_unheard lawful cause message reported refused⟩)
      | passed _ _ failed silent => exact .inr (.inl (reload_fault lawful fresh typed s t fault failed silent))
  · refine ends_pure _ _ _ _ fun _ here => ?_
    cases result with
    | none => exact here.1
    | some later => exact here.2 later rfl

end Edits

end Menu

end TapeMachine
