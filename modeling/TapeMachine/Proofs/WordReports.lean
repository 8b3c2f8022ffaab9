import TapeMachine.Proofs.Alphabet
import TapeMachine.Proofs.WordResults

set_option autoImplicit false

namespace TapeMachine

namespace Machine

variable (c : Configuration)

structure Extent (m : Machine) (taken : Nat) : Prop where
  steps : m.steps ≤ taken
  head : m.head.natAbs ≤ taken
  known : m.state ∈ c.states

theorem enabled_target (m : Machine) (t : Transition) (target : State)
    (enabled : m.enabled? c = some (t, target)) : target ∈ c.states := by
  simp only [enabled?, Option.bind_eq_bind, Option.bind_eq_some_iff, Option.pure_def, Option.some.injEq,
    Prod.mk.injEq] at enabled
  obtain ⟨_, _, _, _, u, found, _, rfl⟩ := enabled
  exact List.mem_of_find?_eq_some found

theorem next_extent (m : Machine) (taken : Nat) (extent : m.Extent c taken) : (m.next c).Extent c (taken + 1) := by
  obtain ⟨counted, reached, known⟩ := extent
  rw [next]
  split
  · split
    · rename_i t target enabled
      refine ⟨by simpa using counted, ?_, enabled_target c m t target enabled⟩
      have moved : t.action.offset.natAbs ≤ 1 := by cases t.action <;> decide
      have apart := Int.natAbs_add_le m.head t.action.offset
      dsimp only
      omega
    · exact ⟨by simpa using counted, Nat.le_succ_of_le reached, known⟩
  · exact ⟨Nat.le_succ_of_le counted, Nat.le_succ_of_le reached, known⟩

theorem run_extent (bound : Nat) (m : Machine) (taken : Nat) (extent : m.Extent c taken) :
    (m.run c bound).Extent c (taken + bound) := by
  induction bound generalizing m taken with
  | zero => exact extent
  | succ bound ih =>
      rw [run]
      split
      · have later := ih (m.next c) (taken + 1) (next_extent c m taken extent)
        rwa [Nat.add_right_comm] at later
      · obtain ⟨counted, reached, known⟩ := extent
        exact ⟨by omega, by omega, known⟩

end Machine

namespace Definition

variable (d : Definition) (clean : d.Clean)

include clean

theorem clean_sound : d.Sound := by
  obtain ⟨id, start, _⟩ := clean.written.start
  exact ⟨clean.written.closed, id, start⟩

theorem start_known (s : State) (begins : d.configuration.startState = .ok s) : s ∈ d.configuration.states := by
  obtain ⟨id, start⟩ := (d.clean_sound clean).start
  rw [Configuration.startState, start, Configuration.get_id] at begins
  split at begins
  · rename_i u found
    cases begins
    exact (d.configuration.find_mem id s found).1
  · cases begins

theorem entry_extent (word : Text) (bound : Json) (permissive : Bool) (limit : Nat)
    (bounded : Quantity.stepBound bound = .ok limit)
    (entry : Entry) (ran : d.runInput word bound permissive = .ok entry) :
    entry.steps ≤ limit ∧ entry.head.natAbs ≤ limit ∧ Short entry.state := by
  rcases d.run_input_cases word bound permissive _ ran with
    ⟨_, failed⟩ | failed | ⟨_, _, failed⟩ | ⟨_, _, failed⟩ | ⟨blank, s, steps, _, _, begins, counted, told⟩
  · cases failed
  · cases failed
  · cases failed
  · cases failed
  · rw [bounded] at counted
    cases counted
    obtain ⟨tape, _, rfl⟩ := (map_ok _ _ _).mp told.symm
    have first : (inscribedMachine blank s permissive word).Extent d.configuration 0 :=
      ⟨Nat.le_refl 0, Nat.le_refl 0, d.start_known clean s begins⟩
    obtain ⟨counted, reached, known⟩ := Machine.run_extent d.configuration limit _ 0 first
    rw [Nat.zero_add] at counted reached
    exact ⟨counted, reached, clean.written.ids _ known⟩

end Definition

namespace PoolRun

variable (run : PoolRun) (d : Definition) (clean : d.Clean) (limit : Nat)
  (bounded : Quantity.stepBound run.maxSteps = .ok limit)

include clean bounded

theorem report_exists (word : Text) : ∃ result, run.report d word = .ok result := by
  cases ran : d.runInput word run.maxSteps run.permissive with
  | ok entry => exact ⟨.decided entry, report_decided run d word entry ran⟩
  | error fault =>
      have expected : isExpected (Fault.ofRun fault).kind = true := by
        rcases d.failure_cases word run.maxSteps run.permissive (d.clean_sound clean) with
          ⟨_, failed⟩ | ⟨_, _, failed⟩ | ⟨_, _, unbounded, _⟩ | ⟨_, _, _, failed⟩
        · rw [ran, Definition.failure?, Option.some.injEq] at failed
          rw [failed]
          decide
        · rw [ran, Definition.failure?, Option.some.injEq] at failed
          rw [failed]
          decide
        · exact absurd ⟨limit, bounded⟩ unbounded
        · rw [ran] at failed
          cases failed
      exact ⟨.failed word fault, by rw [report, ran]; exact if_pos expected⟩

theorem reports_exist (words : List Text) : ∃ results, words.mapM (run.report d) = .ok results := by
  induction words with
  | nil => exact ⟨[], rfl⟩
  | cons word rest ih =>
      obtain ⟨result, told⟩ := run.report_exists d clean limit bounded word
      obtain ⟨others, later⟩ := ih
      exact ⟨result :: others, by rw [List.mapM_cons, told, later]; rfl⟩

theorem report_writable (short : limit < tenTo digitLimit) (word : Text) (result : WordResult)
    (reported : run.report d word = .ok result) :
    result.toJson.isWritable = true := by
  cases result with
  | failed input fault => rfl
  | decided entry =>
      obtain ⟨steps, head, state⟩ := d.entry_extent clean word run.maxSteps run.permissive limit bounded entry
        (report_entry run d word entry reported)
      have counted : entry.steps < tenTo digitLimit := Nat.lt_of_le_of_lt steps short
      have reached : entry.head.natAbs < tenTo digitLimit := Nat.lt_of_le_of_lt head short
      simp only [WordResult.toJson, Entry.toJson, Json.isWritable, Json.areWritableFields, Bool.true_and,
        Bool.and_true, Bool.and_eq_true,
        decide_eq_true_eq, Int.natAbs_natCast]
      exact ⟨counted, reached, state⟩

end PoolRun

end TapeMachine
