import TapeMachine.Proofs.Policies

set_option autoImplicit false

namespace TapeMachine.Machine

variable (c : Configuration)

def Moves (m : Machine) : Prop := m.status = some .active ∧ ¬ m.Stuck c

structure Judged (m : Machine) : Prop where
  accepted : m.status = some .accepted → m.state.isAccepting = true
  rejected : m.status = some .rejected → m.state.isAccepting = false
  active : m.status = some .active → m.state.isAccepting = false ∧ m.state.isRejecting = false

theorem verdict_judged (m : Machine) (entered : m.status = some (verdict m.state)) : m.Judged := by
  by_cases accepting : m.state.isAccepting = true
  · have rejecting : m.state.isRejecting = false := by
      simp only [State.isAccepting, decide_eq_true_eq] at accepting
      simp [State.isRejecting, accepting]
    constructor <;> simp [entered, verdict, accepting]
  · by_cases rejecting : m.state.isRejecting = true
    · constructor <;> simp [entered, verdict, accepting, rejecting]
    · constructor <;> simp [entered, verdict, accepting, rejecting]

theorem next_cases (m : Machine) : m.Moves c ∨ m.Stuck c ∨ m.next c = m := by
  by_cases active : m.status = some .active
  · by_cases stuck : m.Stuck c
    · exact .inr (.inl stuck)
    · exact .inl ⟨active, stuck⟩
  · exact .inr (.inr (next_of_not_active c m (by simp [isActive, active])))

theorem next_moved (m : Machine) (moves : m.Moves c) : (m.next c).Judged := by
  have active : m.isActive = true := by simp [isActive, moves.1]
  cases enabled : m.enabled? c with
  | none => exact absurd ((stuck_iff c m).mpr ⟨active, enabled⟩) moves.2
  | some taken =>
      apply verdict_judged
      rw [next, if_pos active, enabled]

theorem next_judged (m : Machine) (judged : m.Judged) : (m.next c).Judged := by
  rcases next_cases c m with moves | stuck | idle
  · exact next_moved c m moves
  · rw [next_stuck c m stuck]
    have untagged := judged.active stuck.1
    cases m.permissive with
    | false => exact ⟨by simp, fun _ => untagged.1, by simp⟩
    | true => exact ⟨by simp, by simp, fun _ => untagged⟩
  · rwa [idle]

theorem next_unmoved (m : Machine) (still : ¬ m.Moves c) (pending : m.status ≠ some .accepted) :
    (m.next c).state = m.state ∧ (m.next c).status ≠ some .accepted := by
  rcases (next_cases c m).resolve_left still with stuck | idle
  · rw [next_stuck c m stuck]
    cases m.permissive <;> simp
  · rw [idle]
    exact ⟨rfl, pending⟩

theorem iterate_judged (m : Machine) (n : Nat) (judged : m.Judged) : ((next c)^[n] m).Judged := by
  induction n with
  | zero => exact judged
  | succ n ih =>
      rw [Function.iterate_succ_apply']
      exact next_judged c _ ih

theorem iterate_moved (m : Machine) (n : Nat) (pending : m.status ≠ some .accepted) :
    ((next c)^[n] m).Judged ∨
      ((next c)^[n] m).state = m.state ∧ ((next c)^[n] m).status ≠ some .accepted ∧
      ∀ i < n, ¬ ((next c)^[i] m).Moves c := by
  induction n with
  | zero => exact .inr ⟨rfl, pending, fun i less => absurd less (Nat.not_lt_zero i)⟩
  | succ n ih =>
      rw [Function.iterate_succ_apply']
      rcases ih with judged | ⟨state, status, still⟩
      · exact .inl (next_judged c _ judged)
      · by_cases moves : ((next c)^[n] m).Moves c
        · exact .inl (next_moved c _ moves)
        · obtain ⟨stays, later⟩ := next_unmoved c _ moves status
          refine .inr ⟨stays.trans state, later, fun i less => ?_⟩
          rcases Nat.lt_succ_iff_lt_or_eq.mp less with before | rfl
          · exact still i before
          · exact moves

/-- In every state that a machine reaches on a word the status agrees with the tag of the current
state, but for one case: the start state has a tag, no step was defined so far, and the machine is
still in that state and has not accepted. -/
theorem verdict_agrees_from_first_defined_step (m : Machine) (word : List Symbol) (s : State)
    (begins : c.startState = .ok s)
    (n : Nat) :
    let reached (n : Nat) := (stepped c)^[n] (m.perform c (.start word)).machine
    (reached n).Judged ∨
      s.acceptance ≠ .none ∧ (reached n).state = s ∧ (reached n).status ≠ some .accepted ∧
        ∀ i < n, ¬ (reached i).Moves c := by
  intro reached
  have walk : stepped c = next c := funext (stepped_next c)
  have begun := started c m word s begins
  have pending : (m.perform c (.start word)).machine.status ≠ some .accepted := by simp [begun]
  have initial : (m.perform c (.start word)).machine.state = s := by rw [begun]
  simp only [reached, walk]
  by_cases untagged : s.acceptance = .none
  · refine .inl (iterate_judged c _ n ⟨?_, ?_, ?_⟩) <;> simp [begun, State.isAccepting, State.isRejecting, untagged]
  · rw [← initial]
    exact (iterate_moved c _ n pending).imp_right fun rest => ⟨initial ▸ untagged, rest⟩

theorem verdict_agrees_after_return_to_start :
    let origin : State := { id := 0, acceptance := .accept, transitions := [⟨0, .right, .text "b", [.text "a"]⟩] }
    let c : Configuration := { states := [origin] }
    let m : Machine := { tape := ⟨.text "_", ∅⟩, permissive := false, state := origin }
    let reached (n : Nat) := (stepped c)^[n] (m.perform c (.start [.text "a"])).machine
    c.startState = .ok origin ∧ (reached 0).Moves c ∧ (reached 1).Judged ∧ (reached 1).status = some .accepted := by
  intro origin c m reached
  have begins : c.startState = .ok origin := rfl
  have moves : (reached 0).Moves c := ⟨rfl, fun stuck => by cases ((stuck_iff c _).mp stuck).2⟩
  have judged : (reached 1).Judged := by
    rcases verdict_agrees_from_first_defined_step c m [.text "a"] origin begins 1 with judged | ⟨_, _, _, still⟩
    · exact judged
    · exact absurd moves (still 0 (by decide))
  exact ⟨begins, moves, judged, rfl⟩

theorem accepting_start_is_active_and_rejects :
    let origin : State := { id := 0, acceptance := .accept }
    let c : Configuration := { states := [origin] }
    ∃ m, create c (.text "_") false = .ok m ∧
      let ready := (m.perform c (.start [])).machine
      ready.status = some .active ∧ ready.state.isAccepting = true ∧ ¬ ready.Judged ∧
        (ready.stepped c).status = some .rejected ∧ (ready.stepped c).state.isAccepting = true ∧
          ¬ (ready.stepped c).Judged := by
  intro origin c
  refine ⟨{ tape := ⟨.text "_", ∅⟩, permissive := false, state := origin }, rfl, rfl, rfl, ?_, rfl, rfl, ?_⟩
  · intro judged
    cases (judged.active rfl).1
  · intro judged
    cases judged.rejected rfl

end TapeMachine.Machine
