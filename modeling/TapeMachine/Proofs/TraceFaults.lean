import TapeMachine.Proofs.LoadedDefinitions
import TapeMachine.Proofs.ReportedFaults
import TapeMachine.Proofs.Tracing
import TapeMachine.Proofs.TypedSettings

set_option autoImplicit false

namespace TapeMachine

inductive Settings.Oversized (settings : Settings) : Prop where
  | history (i : Int) (held : settings.value historyLimit = .int i) (large : Quantity.isSized i = false)
  | window (i : Int) (held : settings.value tapeWindow = .int i)
      (large : Quantity.isSized (tapeStart.length + i * 4) = false)
  | delay (long : Delay.check (settings.value stepDelay) = .error .tooLong)

theorem Settings.typed_value (settings : Settings) (typed : settings.Typed) (key : Text)
    (known : (key, .whole) ∈ required) :
    ∃ i, settings.value key = .int i := by
  obtain ⟨value, found, accepted⟩ := typed _ known
  obtain ⟨i, rfl⟩ := (SettingType.whole_accepts value).mp accepted
  exact ⟨i, by rw [Settings.value, found]; rfl⟩

namespace Quantity

theorem count_fault (i : Int) (fault : QuantityFault) (failed : count? (.int i) = .error fault) :
    fault = .negativeCount ∨ fault = .hugeCount ∧ isSized i = false := by
  simp only [count?, whole] at failed
  split at failed
  · rename_i large
    cases failed
    exact .inr ⟨rfl, by simpa using large⟩
  · split at failed
    · cases failed
      exact .inl rfl
    · cases failed

theorem indent_fault (i : Int) (fault : QuantityFault) (failed : indent i = .error fault) :
    fault = .hugeIndent ∧ isSized i = false := by
  rw [indent] at failed
  split at failed
  · cases failed
  · rename_i large
    cases failed
    exact ⟨rfl, by simpa using large⟩

end Quantity

theorem picture_fault (radius shown : Int) (fault : QuantityFault)
    (failed : PictureSize.ofGiven (.int radius) (.int shown) = .error fault) :
    fault = .hugeIndent ∧ Quantity.isSized (tapeStart.length + radius * 4) = false := by
  rcases (bind_error _ _ _).mp failed with absurdly | ⟨r, same, failed⟩
  · cases absurdly
  · cases same
    rcases (bind_error _ _ _).mp failed with large | ⟨column, _, absurdly⟩
    · exact Quantity.indent_fault _ fault large
    · cases absurdly

theorem delay_fault (fault : DelayFault) : (Fault.trace (.delay fault)).Reported ∨ fault = .tooLong := by
  cases fault with
  | tooLong => exact .inr rfl
  | _ => exact .inl rfl

theorem TracePlan.numbers_fault (plan : TracePlan) (history radius shown most : Int)
    (kept : plan.historyLimit = .int history)
    (around : plan.radius = .int radius) (listed : plan.shown = .int shown)
    (bounded : plan.maxSteps = .int most) (fault : TraceFault)
    (failed : plan.numbers = .error fault) :
    (Fault.trace fault).Reported ∨ (Fault.trace fault).kind = .overflow ∧ (Quantity.isSized history = false ∨
      Quantity.isSized (tapeStart.length + radius * 4) = false ∨ Delay.check plan.delay = .error .tooLong) := by
  rcases (bind_error _ _ _).mp failed with failed | ⟨limit, _, failed⟩
  · obtain ⟨cause, counted, rfl⟩ := (map_error_error _ _ _).mp failed
    rw [kept] at counted
    rcases Quantity.count_fault history cause counted with rfl | ⟨rfl, large⟩
    · exact .inl rfl
    · exact .inr ⟨rfl, .inl large⟩
  rcases (bind_error _ _ _).mp failed with failed | ⟨_, _, failed⟩
  · rw [drawable] at failed
    split at failed
    · rcases (bind_error _ _ _).mp failed with failed | ⟨_, _, absurdly⟩
      · obtain ⟨cause, drawn, rfl⟩ := (map_error_error _ _ _).mp failed
        rw [around, listed] at drawn
        obtain ⟨rfl, large⟩ := picture_fault radius shown cause drawn
        exact .inr ⟨rfl, .inr (.inl large)⟩
      · cases absurdly
    · cases failed
  rw [bounded, around] at failed
  rcases (bind_error _ _ _).mp failed with absurdly | ⟨bound, _, failed⟩
  · cases absurdly
  rcases (bind_error _ _ _).mp failed with absurdly | ⟨_, _, failed⟩
  · cases absurdly
  rcases (bind_error _ _ _).mp failed with failed | ⟨_, _, absurdly⟩
  · rw [patient] at failed
    split at failed
    · obtain ⟨cause, waited, rfl⟩ := (map_error_error _ _ _).mp failed
      rcases delay_fault cause with reported | rfl
      · exact .inl reported
      · exact .inr ⟨rfl, .inr (.inr waited)⟩
    · cases failed
  · cases absurdly

open Job

namespace Definition

variable (d : Definition) (filed : d.Filed)

include filed

theorem assemble_fault (permissive : Bool) (fault : RunFault) (failed : d.assembleStarted permissive = .error fault) :
    (Fault.ofRun fault).Reported := by
  cases marked : d.blank with
  | none =>
      simp only [assembleStarted, assemble, create, marked, error_bind] at failed
      cases failed
      rfl
  | some blank =>
      rcases start_state_cases d filed.sound with ⟨s, begins, _⟩ | ⟨lost, _⟩
      · have started := assemble_started d permissive blank s marked begins
        dsimp only at started
        rw [started] at failed
        cases failed
      · simp only [assembleStarted, assemble, create, marked, Machine.create, lost, error_bind] at failed
        cases failed
        rfl

theorem trace_fault (settings : Settings) (typed : settings.Typed) (permissive live : Bool)
    (most : Int) (fault : TraceFault)
    (failed : d.trace { Command.tracePlan settings with
      permissive, maxSteps := .int most, delay := settings.value Settings.stepDelay, live } = .error fault) :
    (Fault.trace fault).Reported ∨ (Fault.trace fault).kind = .overflow ∧ settings.Oversized := by
  obtain ⟨history, kept⟩ := settings.typed_value typed Settings.historyLimit (by decide)
  obtain ⟨radius, around⟩ := settings.typed_value typed Settings.tapeWindow (by decide)
  obtain ⟨shown, listed⟩ := settings.typed_value typed Settings.displayLimit (by decide)
  rcases (bind_error _ _ _).mp failed with failed | ⟨⟨m, seen⟩, _, failed⟩
  · obtain ⟨cause, assembled, rfl⟩ := (map_error_error _ _ _).mp failed
    exact .inl (assemble_fault d filed permissive cause assembled)
  · rcases (bind_error _ _ _).mp failed with failed | ⟨_, _, absurdly⟩
    · rcases TracePlan.numbers_fault _ history radius shown most kept around listed rfl fault failed with
        reported | ⟨kind, large | large | long⟩
      · exact .inl reported
      · exact .inr ⟨kind, .history history kept large⟩
      · exact .inr ⟨kind, .window radius around large⟩
      · exact .inr ⟨kind, .delay long⟩
    · cases absurdly

omit filed in
theorem rows_fault (frames : List Frame) (index : Nat) (radius : Int) (fault : ReportFault)
    (failed : Frame.rowsFrom index radius frames = .error fault) : fault = .noHeadCell := by
  induction frames generalizing index with
  | nil => cases failed
  | cons f rest ih =>
      rcases (bind_error _ _ _).mp failed with failed | ⟨row, _, failed⟩
      · rw [Frame.row] at failed
        split at failed
        · cases failed
          rfl
        · split at failed
          · cases failed
            rfl
          · cases failed
      · rcases (bind_error _ _ _).mp failed with failed | ⟨_, _, absurdly⟩
        · exact ih (index + 1) failed
        · cases absurdly

def Excused (fault : Fault) : Prop := fault.Reported ∨ ¬ d.Narrow ∧ fault.kind = .outOfField

theorem encode_excused (fault : EncodeFault) (failed : Binary.encodeDefinition d = .error fault) :
    d.Excused (.encode fault) := by
  have wide : ¬ d.Narrow := by
    intro narrow
    obtain ⟨bytes, encoded⟩ := narrow_encoded d filed narrow
    rw [encoded] at failed
    cases failed
  cases fault <;> first | exact .inl rfl | exact .inr ⟨wide, rfl⟩

theorem report_excused (trace : Trace) (fault : ReportFault) (failed : trace.report d = .error fault) :
    d.Excused (.report fault) := by
  obtain ⟨t, told⟩ := filed_text d filed
  rcases (bind_error _ _ _).mp failed with failed | ⟨bytes, _, failed⟩
  · obtain ⟨cause, unwritten, rfl⟩ := (map_error_error _ _ _).mp failed
    exact encode_excused d filed cause unwritten
  rcases (bind_error _ _ _).mp failed with failed | ⟨_, _, failed⟩
  · rw [told] at failed
    cases failed
  rcases (bind_error _ _ _).mp failed with failed | ⟨_, _, absurdly⟩
  · rw [rows_fault trace.history 0 trace.radius fault failed]
    exact .inl rfl
  · cases absurdly

theorem print_report_excused [Screen] (trace : Trace) : (Command.printReport trace d).Only d.Excused :=
  only_bind _ _ _ (only_mapped _ _ _ fun fault failed => report_excused d filed trace fault failed) fun _ =>
    print_only _ _ nofun

theorem base64_excused : d.base64.Only d.Excused :=
  only_mapped _ _ _ fun fault failed => encode_excused d filed fault ((map_failed _ _ _).mp failed)

theorem convert_excused [Screen] (lawful : Screen.Lawful) (path : Path) (answer : Text) :
    (Menu.convert d path answer).Only fun fault => d.Excused fault ∨ fault.Refused := by
  obtain ⟨t, told⟩ := filed_text d filed
  have reported {α : Type} (job : Job α) (only : job.Only Fault.Reported) : job.Only fun fault =>
    d.Excused fault ∨ fault.Refused :=
    only_more _ _ job only fun _ known => .inl (.inl known)
  have said (t : Text) : (say t).Only fun fault => d.Excused fault ∨ fault.Refused :=
    only_more _ _ (say t) (say_ordinary lawful t) fun _ => Or.imp_left .inl
  rw [Menu.convert]
  split
  · refine only_bind _ _ _ (reported _ (change_reported _)) fun _ => ?_
    refine only_bind _ _ _
      (only_mapped _ _ _ fun fault failed => .inl (encode_excused d filed fault failed)) fun bytes => ?_
    exact only_bind _ _ _ (reported _ (change_reported _)) fun _ => said _
  · split
    · refine only_bind _ _ _ (only_more _ _ _ (base64_excused d filed) fun _ => .inl) fun form => ?_
      exact only_bind _ _ _ (reported _ (write_text_reported _ _)) fun _ => said _
    · split
      · refine only_bind _ _ _ (only_mapped _ _ _ fun fault failed => ?_) fun form => ?_
        · rw [told] at failed
          cases failed
        · exact only_bind _ _ _ (reported _ (write_text_reported _ _)) fun _ => said _
      · exact only_pure _ _

end Definition

end TapeMachine
