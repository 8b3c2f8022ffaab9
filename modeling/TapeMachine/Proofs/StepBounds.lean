import TapeMachine.Proofs.Hooks

set_option autoImplicit false

namespace TapeMachine

namespace Machine

variable (c : Configuration)

theorem run_steps (bound : Nat) (m : Machine) : (m.run c bound).steps = m.steps + m.taken c bound := by
  have grown := steps_le_run c bound m
  rw [taken]
  omega

theorem taken_within (bound : Nat) (m : Machine) : m.taken c bound ≤ bound := by
  induction bound generalizing m with
  | zero => exact Nat.le_of_eq (Nat.sub_self m.steps)
  | succ bound ih =>
      by_cases active : m.isActive = true
      · rw [taken_active c bound m active]
        exact Nat.succ_le_succ (ih (m.next c))
      · rw [taken_idle c _ m (by simpa using active)]
        exact Nat.zero_le (bound + 1)

theorem taken_short (bound : Nat) (m : Machine) (short : m.taken c bound < bound) :
    (m.run c bound).isActive = false := by
  induction bound generalizing m with
  | zero => exact absurd short (Nat.not_lt_zero _)
  | succ bound ih =>
      by_cases active : m.isActive = true
      · rw [taken_active c bound m active] at short
        rw [run, if_pos active]
        exact ih (m.next c) (Nat.lt_of_succ_lt_succ short)
      · have idle : m.isActive = false := by simpa using active
        rwa [run_of_not_active c _ m idle]

theorem passed_add (a b : Nat) (m : Machine) : m.passed c (a + b) = m.passed c a ++ (m.run c a).passed c b := by
  induction a generalizing m with
  | zero => rw [Nat.zero_add, passed_zero, List.nil_append, run]
  | succ a ih =>
      rw [Nat.succ_add]
      by_cases active : m.isActive = true
      · rw [passed_active c _ m active, passed_active c _ m active, run, if_pos active, ih, List.cons_append]
      · have idle : m.isActive = false := by simpa using active
        rw [run_of_not_active c _ m idle, passed_idle c _ m idle, passed_idle c _ m idle,
          passed_idle c _ m idle, List.nil_append]

theorem taken_add (a b : Nat) (m : Machine) : m.taken c (a + b) = m.taken c a + (m.run c a).taken c b := by
  have lengths := congrArg List.length (passed_add c a b m)
  simpa [passed] using lengths

theorem run_begun (bound : Nat) (m : Machine) (begun : m.status ≠ none) : (m.run c bound).status ≠ none := by
  obtain ⟨status, now⟩ := Option.ne_none_iff_exists'.mp begun
  have walk : stepped c = next c := funext (stepped_next c)
  have shown := shown_iterate c m ⟨m.state.id, m.head, status, m.tape.read⟩ bound (by rw [shown, now, Option.map_some])
  rw [walk, ← run_iterate] at shown
  simp [(shown_active _ _ shown).1]

end Machine

namespace Watched

variable (c : Configuration) (s : Station)

theorem run_done (bound : Nat) : run c bound s =
    (s.machine.taken c bound, s.after (s.machine.run c bound) ((s.machine.passed c bound).flatMap (Machine.seen c))) :=
  run_does c bound s.machine s rfl

theorem run_twice (m n : Nat) :
    run c (m + n) s = ((run c m s).1 + (run c n (run c m s).2).1, (run c n (run c m s).2).2) := by
  have later : run c n (run c m s).2 = _ := run_done c (run c m s).2 n
  rw [run_done c s m] at later ⊢
  rw [later, run_done, Machine.run_add, Machine.taken_add, Machine.passed_add, List.flatMap_append]
  exact congrArg (Prod.mk _) (Station.after_after s _ _ _ _).symm

theorem run_requested (bound : Nat) :
    s.perform c (.run (.int bound)) = ((run c bound s).2, .ok (.taken (run c bound s).1)) := by
  have called := Station.perform_calls c s (.run (.int bound))
  exact Prod.ext (congrArg Prod.snd called).symm (congrArg Prod.fst called).symm

end Watched

namespace Definition

variable (d : Definition) (word : Text) (permissive : Bool)

theorem run_input_started : ∃ start : Except RunFault (Text × State), ∀ bound : Int,
    d.runInput word (.int bound) permissive = start.bind fun (blank, s) =>
      concluded word ((inscribedMachine blank s permissive word).run d.configuration bound.toNat) := by
  refine ⟨(d.prepared word (.int 0)).map fun ready => (ready.1, ready.2.1), ?_⟩
  intro bound
  rw [run_input_prepared, prepared, prepared]
  cases d.blank with
  | none => rfl
  | some blank =>
      cases d.foreignInputs word with
      | cons symbol others => rfl
      | nil => cases d.configuration.startState <;> rfl

theorem concluded_told (m : Machine) (entry : Entry) (told : concluded word m = .ok entry) :
    entry.status = m.status.getD .active ∧ entry.steps = m.steps := by
  obtain ⟨tape, _, rfl⟩ := (map_ok _ _ _).mp told
  exact ⟨rfl, rfl⟩

theorem run_input_bounds (m n : Int) (entry : Entry) (raised : m ≤ n)
    (ran : d.runInput word (.int m) permissive = .ok entry) :
    (entry.status ≠ .active → d.runInput word (.int n) permissive = .ok entry) ∧
      (entry.status = .active → 0 ≤ m → (entry.steps : Int) = m) := by
  obtain ⟨start, started⟩ := d.run_input_started word permissive
  rw [started] at ran ⊢
  obtain ⟨⟨blank, s⟩, ready, told⟩ := (bind_ok start _ entry).mp ran
  let first := inscribedMachine blank s permissive word
  have begun : (first.run d.configuration m.toNat).status ≠ none :=
    Machine.run_begun d.configuration m.toNat first (Option.some_ne_none Status.active)
  obtain ⟨status, steps⟩ := concluded_told word (first.run d.configuration m.toNat) entry told
  constructor
  · intro ended
    have idle : (first.run d.configuration m.toNat).isActive = false := by
      apply decide_eq_false
      intro active
      exact ended (by rw [status, active, Option.getD_some])
    obtain ⟨more, raisedTo⟩ := Nat.exists_eq_add_of_le (Int.toNat_le_toNat raised)
    have same : first.run d.configuration n.toNat = first.run d.configuration m.toNat := by
      rw [raisedTo, Machine.run_add, Machine.run_of_not_active d.configuration more _ idle]
    rw [ready]
    exact (congrArg (concluded word) same).trans told
  · intro active nonneg
    obtain ⟨now, known⟩ := Option.ne_none_iff_exists'.mp begun
    have working : (first.run d.configuration m.toNat).isActive = true := by
      rw [known, Option.getD_some, active] at status
      rw [Machine.isActive, known, ← status, decide_eq_true rfl]
    have counted := Machine.run_steps d.configuration m.toNat first
    have all : first.taken d.configuration m.toNat = m.toNat := by
      apply Nat.le_antisymm (Machine.taken_within d.configuration m.toNat first)
      apply Nat.le_of_not_lt
      intro short
      have idle := Machine.taken_short d.configuration m.toNat first short
      rw [working] at idle
      cases idle
    have fresh : first.steps = 0 := rfl
    omega

end Definition

/-- A run under one bound and then under another is a run under their sum: the same machine and log,
and a count that is the sum of both. A run adds its count to the steps of the machine, and if it did
not use up its bound the machine is not active. So an entry that tells of a run to its end is the
same under every greater bound. -/
theorem step_bounds_compose :
    (∀ (c : Configuration) (s : Station) (m n : Nat),
      let ran (s : Station) (bound : Nat) : Nat × Station := Watched.run c bound s
      let first := ran s m
      let second := ran first.2 n
      ran s (m + n) = (first.1 + second.1, second.2) ∧
      s.perform c (.run (.int m)) = (first.2, .ok (.taken first.1)) ∧
      first.2.machine.steps = s.machine.steps + first.1 ∧
      first.1 ≤ m ∧
      (first.1 < m → first.2.machine.status ≠ some .active)) ∧
    ∀ (d : Definition) (word : Text) (permissive : Bool) (m n : Int) (entry : Entry),
      m ≤ n → d.runInput word (.int m) permissive = .ok entry →
      (entry.status ≠ .active → d.runInput word (.int n) permissive = .ok entry) ∧
      (entry.status = .active → 0 ≤ m → (entry.steps : Int) = m) := by
  constructor
  · intro c s m n ran first second
    have done : first = _ := Watched.run_done c s m
    have reached : first.2.machine = s.machine.run c m := by
      rw [done]
      rfl
    have counted : first.1 = s.machine.taken c m := by rw [done]
    refine ⟨Watched.run_twice c s m n, Watched.run_requested c s m, ?_, ?_, ?_⟩
    · rw [reached, counted, Machine.run_steps]
    · rw [counted]
      exact Machine.taken_within c m s.machine
    · intro short active
      rw [counted] at short
      have idle := Machine.taken_short c m s.machine short
      simp [Machine.isActive, ← reached, active] at idle
  · intro d word permissive m n entry raised ran
    exact d.run_input_bounds word permissive m n entry raised ran

def walking : State :=
  { id := 0, transitions := [⟨0, .right, .text "a", [.text "a"]⟩, ⟨1, .stay, .text "_", [.text "_"]⟩] }

def walker : Definition where
  configuration := { states := [walking, { id := 1, acceptance := .accept }] }
  charset := ["a", "_"]
  blank := some "_"

theorem walk_bounds_compose :
    (walker.runInput "aa" (.int 3) false = .ok ⟨"aa", .accepted, 3, 2, 1, "aa"⟩ ∧
      walker.runInput "aa" (.int 100000) false = .ok ⟨"aa", .accepted, 3, 2, 1, "aa"⟩) ∧
    (walker.runInput "aa" (.int 2) false = .ok ⟨"aa", .active, 2, 2, 0, "aa"⟩ ∧ ((2 : Nat) : Int) = 2) ∧
    let run (bound : Nat) (s : Station) : Nat × Station := Watched.run walker.configuration bound s
    let s : Station := { machine := Definition.inscribedMachine "_" walking false "aa" }
    (run 1 s).1 = 1 ∧ (run 7 (run 1 s).2).1 = 2 ∧ (run 8 s).1 = 3 ∧
      (run 7 (run 1 s).2).2.machine.status ≠ some .active := by
  have through : walker.runInput "aa" (.int 3) false = .ok ⟨"aa", .accepted, 3, 2, 1, "aa"⟩ := by decide +kernel
  have halfway : walker.runInput "aa" (.int 2) false = .ok ⟨"aa", .active, 2, 2, 0, "aa"⟩ := by decide +kernel
  obtain ⟨composes, bounds⟩ := step_bounds_compose
  have raised := (bounds walker "aa" false 3 100000 _ (by decide) through).1 (by decide)
  have used := (bounds walker "aa" false 2 2 _ (by decide) halfway).2 rfl (by decide)
  refine ⟨⟨through, raised⟩, ⟨halfway, used⟩, ?_⟩
  intro run s
  have one : (run 1 s).1 = 1 := by decide +kernel
  have two : (run 7 (run 1 s).2).1 = 2 := by decide +kernel
  have whole : run 8 s = ((run 1 s).1 + (run 7 (run 1 s).2).1, (run 7 (run 1 s).2).2) :=
    (composes walker.configuration s 1 7).1
  have ended := (composes walker.configuration (run 1 s).2 7 0).2.2.2.2
  refine ⟨one, two, ?_, ?_⟩
  · rw [whole, one, two]
  · apply ended
    exact Nat.lt_of_le_of_lt (Nat.le_of_eq two) (by decide)

end TapeMachine
