import TapeMachine.Proofs.WordResults

set_option autoImplicit false

namespace TapeMachine

namespace Machine

variable (c : Configuration)

def Stuck (m : Machine) : Prop :=
  m.status = some .active ∧ ∀ s t, c.find? m.state.id = some s →
    TotalMachine.firstReading (m.tape.read m.head) s.transitions = some t → c.find? t.target = none

theorem stuck_iff (m : Machine) : m.Stuck c ↔ m.isActive = true ∧ m.enabled? c = none := by
  rw [Stuck, isActive, decide_eq_true_eq, enabled_first]
  refine and_congr_right fun _ => ?_
  simp only [Option.bind_eq_none_iff, Option.bind_eq_some_iff, Option.map_eq_none_iff, forall_exists_index, and_imp]
  exact forall_comm

theorem next_stuck (m : Machine) (stuck : m.Stuck c) :
    m.next c = { m with status := some (if m.permissive then .active else .rejected), steps := m.steps + 1 } := by
  obtain ⟨active, undefined⟩ := (stuck_iff c m).mp stuck
  rw [next, if_pos active, undefined]

theorem next_under (m : Machine) (policy : Bool) (free : ¬ m.Stuck c) :
    ({ m with permissive := policy }).next c = { m.next c with permissive := policy } := by
  have unread : ({ m with permissive := policy }).enabled? c = m.enabled? c := rfl
  have unchanged : ({ m with permissive := policy }).isActive = m.isActive := rfl
  by_cases active : m.isActive = true
  · cases enabled : m.enabled? c with
    | none => exact absurd ((stuck_iff c m).mpr ⟨active, enabled⟩) free
    | some taken => simp only [next, unchanged, unread, active, enabled, if_true]
  · simp only [next, unchanged, active, if_false, Bool.false_eq_true]

theorem iterate_under (m : Machine) (policy : Bool) (n : Nat) (free : ∀ i < n, ¬ ((next c)^[i] m).Stuck c) :
    (next c)^[n] { m with permissive := policy } = { (next c)^[n] m with permissive := policy } := by
  induction n with
  | zero => rfl
  | succ n ih =>
      rw [Function.iterate_succ_apply', Function.iterate_succ_apply', ih fun i less => free i (Nat.lt_succ_of_lt less)]
      exact next_under c _ policy (free n (Nat.lt_succ_self n))

theorem iterate_waiting (m : Machine) (n : Nat) (permissive : m.permissive = true) (stuck : m.Stuck c) :
    (next c)^[n] m = { m with steps := m.steps + n } := by
  induction n with
  | zero => rfl
  | succ n ih =>
      have again : ({ m with steps := m.steps + n }).Stuck c := stuck
      rw [Function.iterate_succ_apply', ih, next_stuck c _ again]
      simp only [permissive, if_true, ← stuck.1, Nat.add_assoc]

theorem iterate_rejecting (m : Machine) (n : Nat) (strict : m.permissive = false) (stuck : m.Stuck c) :
    (next c)^[n + 1] m = { m with status := some .rejected, steps := m.steps + 1 } := by
  have rejected : m.next c = { m with status := some .rejected, steps := m.steps + 1 } := by
    rw [next_stuck c m stuck]
    simp only [strict, Bool.false_eq_true, if_false]
  rw [Function.iterate_succ_apply, rejected]
  exact Function.iterate_fixed (next_of_not_active c _ rfl) n

@[simp] theorem iterate_permissive (m : Machine) (n : Nat) : ((next c)^[n] m).permissive = m.permissive := by
  induction n with
  | zero => rfl
  | succ n ih => rw [Function.iterate_succ_apply', next_permissive, ih]

theorem iterate_steps (m : Machine) (n : Nat) (active : ((next c)^[n] m).isActive = true) :
    ((next c)^[n] m).steps = m.steps + n := by
  induction n with
  | zero => rfl
  | succ n ih =>
      rw [Function.iterate_succ_apply'] at active ⊢
      by_cases before : ((next c)^[n] m).isActive = true
      · rw [next_steps c _ before, ih before, Nat.add_assoc]
      · have idle : ((next c)^[n] m).isActive = false := by simpa using before
        rw [next_of_not_active c _ idle] at active
        exact absurd active before

theorem run_iterate (m : Machine) (n : Nat) : m.run c n = (next c)^[n] m := by
  induction n generalizing m with
  | zero => rfl
  | succ n ih =>
      rw [run, Function.iterate_succ_apply]
      by_cases active : m.isActive = true
      · rw [if_pos active, ih]
      · have idle : m.isActive = false := by simpa using active
        rw [if_neg active, next_of_not_active c m idle, ← ih, run_of_not_active c n m idle]

theorem iterate_parted (m : Machine) (k n : Nat) (strict : m.permissive = false) (later : k < n)
    (stuck : ((next c)^[k] m).Stuck c) (free : ∀ i < k, ¬ ((next c)^[i] m).Stuck c) :
    (next c)^[n] m = { (next c)^[k] m with status := some .rejected, steps := m.steps + (k + 1) } ∧
      (next c)^[n] { m with permissive := true } = { (next c)^[k] m with permissive := true, steps := m.steps + n } := by
  have counted := iterate_steps c m k ((stuck_iff c _).mp stuck).1
  obtain ⟨more, rfl⟩ := Nat.exists_eq_add_of_lt later
  refine ⟨?_, ?_⟩
  · have policy : ((next c)^[k] m).permissive = false := by rw [iterate_permissive, strict]
    rw [Nat.add_assoc, Nat.add_comm, Function.iterate_add_apply, iterate_rejecting c _ more policy stuck,
      counted, Nat.add_assoc]
  · have waiting := iterate_waiting c { (next c)^[k] m with permissive := true } (more + 1) rfl stuck
    rw [Nat.add_assoc, Nat.add_comm, Function.iterate_add_apply, iterate_under c m true k free, waiting]
    simp only [counted, Nat.add_assoc, Nat.add_comm k]

theorem first_stuck (m : Machine) (n : Nat) :
    (∀ i < n, ¬ ((next c)^[i] m).Stuck c) ∨ ∃ k < n, ((next c)^[k] m).Stuck c ∧
    ∀ i < k, ¬ ((next c)^[i] m).Stuck c := by
  induction n with
  | zero => exact .inl fun i less => absurd less (Nat.not_lt_zero i)
  | succ n ih =>
      rcases ih with free | ⟨k, less, stuck, free⟩
      · by_cases stuck : ((next c)^[n] m).Stuck c
        · exact .inr ⟨n, Nat.lt_succ_self n, stuck, free⟩
        · refine .inl fun i less => ?_
          rcases Nat.lt_succ_iff_lt_or_eq.mp less with before | rfl
          · exact free i before
          · exact stuck
      · exact .inr ⟨k, Nat.lt_succ_of_lt less, stuck, free⟩

theorem run_ends_alike (m : Machine) (n : Nat) (strict : m.permissive = false) :
    ∃ status steps, ({ m with permissive := true }).run c n =
      { m.run c n with permissive := true, status := status, steps := steps } ∧
      (status = some .accepted ↔ (m.run c n).status = some .accepted) := by
  rw [run_iterate, run_iterate]
  rcases first_stuck c m n with free | ⟨k, less, stuck, free⟩
  · exact ⟨((next c)^[n] m).status, ((next c)^[n] m).steps, iterate_under c m true n free, Iff.rfl⟩
  · obtain ⟨rejecting, waiting⟩ := iterate_parted c m k n strict less stuck free
    refine ⟨((next c)^[k] m).status, m.steps + n, ?_, ?_⟩
    · rw [waiting, rejecting]
    · rw [rejecting, stuck.1]
      simp

end Machine

def Entry.ending (e : Entry) : Bool × Int × Nat × Text := (e.status = .accepted, e.head, e.state, e.tape)

namespace Definition

theorem concluded_alike (word : Text) (m : Machine) (status : Option Status) (steps : Nat)
    (alike : status = some .accepted ↔ m.status = some .accepted) :
    (concluded word { m with permissive := true, status := status, steps := steps }).map Entry.ending =
      (concluded word m).map Entry.ending := by
  have accepts (status : Option Status) : status.getD .active = .accepted ↔ status = some .accepted := by
    cases status <;> simp
  cases joined : joinSymbols m.tape.dense with
  | error fault => simp only [concluded, joined, error_map_error, error_map]
  | ok tape => simp only [concluded, joined, ok_map_error, ok_map, Entry.ending, accepts, alike]

theorem run_input_alike (d : Definition) (word : Text) (bound : Json) :
    (d.runInput word bound false).map Entry.ending = (d.runInput word bound true).map Entry.ending := by
  rw [run_input_prepared, run_input_prepared]
  cases d.prepared word bound with
  | error fault => rfl
  | ok start =>
      obtain ⟨blank, s, steps⟩ := start
      obtain ⟨status, taken, ended, alike⟩ :=
        Machine.run_ends_alike d.configuration (inscribedMachine blank s false word) steps rfl
      have patient : (inscribedMachine blank s true word).run d.configuration steps = _ := ended
      simp only [ok_bound, patient, concluded_alike word _ status taken alike]

end Definition

namespace Machine

/-- A strict and a permissive machine on one word are equal but for the policy up to the first
undefined step. From there on the strict one is what it was, rejecting, and the permissive one is
what it was, active and counting. So what is told of a word is the same under both policies, but for
how a run ended that did not accept and for its length. -/
theorem policies_agree_up_to_first_undefined_step :
    (∀ (c : Configuration) (start : State) (strict patient : Machine) (word : List Symbol), c.startState = .ok start →
      strict.permissive = false → patient.permissive = true → strict.tape.blank = patient.tape.blank → ∀ n,
        let strictAt (n : Nat) := (stepped c)^[n] (strict.perform c (.start word)).machine
        let patientAt (n : Nat) := (stepped c)^[n] (patient.perform c (.start word)).machine
        ((∀ i < n, ¬ (strictAt i).Stuck c) → patientAt n = { strictAt n with permissive := true }) ∧
        ∀ k < n, (strictAt k).Stuck c → (∀ i < k, ¬ (strictAt i).Stuck c) →
          strictAt n = { strictAt k with status := some .rejected, steps := k + 1 } ∧
          patientAt n = { strictAt n with permissive := true, status := some .active, steps := n }) ∧
    ∀ (d : Definition) (word : Text) (bound : Json),
      (d.runInput word bound false).map Entry.ending = (d.runInput word bound true).map Entry.ending := by
  refine ⟨?_, Definition.run_input_alike⟩
  intro c start strict patient word begins policy otherPolicy blank n strictAt patientAt
  have walk : stepped c = next c := funext (stepped_next c)
  have alike : (patient.perform c (.start word)).machine =
      { (strict.perform c (.start word)).machine with permissive := true } := by
    rw [started c patient word start begins, started c strict word start begins]
    simp only [otherPolicy, Tape.clear, blank]
  have strictStart : (strict.perform c (.start word)).machine.permissive = false := by
    rw [started c strict word start begins, policy]
  have counted : (strict.perform c (.start word)).machine.steps = 0 := by rw [started c strict word start begins]
  simp only [strictAt, patientAt, walk, alike]
  refine ⟨iterate_under c _ true n, ?_⟩
  intro k less stuck free
  obtain ⟨rejecting, waiting⟩ := iterate_parted c _ k n strictStart less stuck free
  refine ⟨?_, ?_⟩
  · rw [rejecting, counted, Nat.zero_add]
  · rw [waiting, rejecting, ← stuck.1, counted, Nat.zero_add]

theorem policies_agree_up_to_missing_target :
    let origin : State := { id := 4, transitions := [⟨7, .right, .text "b", [.text "a"]⟩] }
    let beside : State :=
      { id := 7, transitions := [⟨9, .stay, .text "a", [.text "_"]⟩, ⟨4, .left, .text "a", [.text "_"]⟩] }
    let c : Configuration := { states := [origin, beside], start := Label.ofId 4 }
    let strict : Machine := {
      tape := (Tape.mk (.text "_") ∅).load 3 [.text "b"],
      permissive := false, state := beside, head := 3, status := some .accepted, steps := 2 }
    let patient : Machine := { tape := ⟨.text "_", ∅⟩, permissive := true, state := origin }
    let strictAt (n : Nat) := (stepped c)^[n] (strict.perform c (.start [.text "a"])).machine
    let patientAt (n : Nat) := (stepped c)^[n] (patient.perform c (.start [.text "a"])).machine
    c.startState = .ok origin ∧ strict.permissive = false ∧ patient.permissive = true ∧
      strict.tape.blank = patient.tape.blank ∧
      (∀ i < 1, ¬ (strictAt i).Stuck c) ∧ (strictAt 1).Stuck c ∧
      patientAt 1 = { strictAt 1 with permissive := true } ∧
      strictAt 5 = { strictAt 1 with status := some .rejected, steps := 2 } ∧
      patientAt 5 = { strictAt 5 with permissive := true, status := some .active, steps := 5 } := by
  intro origin beside c strict patient strictAt patientAt
  have begins : c.startState = .ok origin := rfl
  have free : ∀ i < 1, ¬ (strictAt i).Stuck c := by
    intro i less stuck
    obtain rfl := Nat.lt_one_iff.mp less
    have missing : (strictAt 0).enabled? c = none := ((stuck_iff c _).mp stuck).2
    cases missing
  have stuck : (strictAt 1).Stuck c := (stuck_iff c _).mpr ⟨rfl, rfl⟩
  have agree := policies_agree_up_to_first_undefined_step.1 c origin strict patient [.text "a"] begins rfl rfl rfl
  exact ⟨begins, rfl, rfl, rfl, free, stuck, (agree 1).1 free, (agree 5).2 1 (by decide) stuck free⟩

end Machine

end TapeMachine
