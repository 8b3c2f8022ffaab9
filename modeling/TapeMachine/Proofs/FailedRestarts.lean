import TapeMachine.Machine.Bench

set_option autoImplicit false

namespace TapeMachine

namespace Request

/-- The requests that put a machine back to its start state. -/
def isRestart : Request → Bool
  | .start _ => true
  | .reset => true
  | _ => false

theorem restart_cases (request : Request) (restart : request.isRestart = true) :
    (∃ word, request = .start word) ∨ request = .reset := by
  cases request with
  | start word => exact .inl ⟨word, rfl⟩
  | reset => exact .inr rfl
  | step => cases restart
  | run bound => cases restart
  | window radius => cases restart

end Request

namespace Machine

structure Attempt where
  configuration : Configuration
  request : Request

def Attempt.Fails (a : Attempt) : Prop :=
  a.request.isRestart = true ∧ ∃ fault, a.configuration.startState = .error fault

def attempt (m : Machine) (attempts : List Attempt) : Machine :=
  attempts.foldl (fun m a => (m.perform a.configuration a.request).machine) m

variable (c : Configuration) (m : Machine) (request : Request)

theorem restart_failed (restart : request.isRestart = true) (fault : LookupFault)
    (missing : c.startState = .error fault) :
    m.perform c request = { machine := { m with tape := m.tape.clear }, reply := .error (.lookup fault) } := by
  have halfway : m.reset c = ({ m with tape := m.tape.clear }, .error fault) := by simp only [reset, missing]
  rcases request.restart_cases restart with ⟨word, rfl⟩ | rfl
  · simp only [perform, start, halfway]
  · simp only [perform, halfway]

theorem restart_done (restart : request.isRestart = true) (s : State) (begins : c.startState = .ok s) :
    (m.perform c request).reply = .ok .done := by
  have again : m.reset c =
      ({ m with tape := m.tape.clear, state := s, head := 0, status := none, steps := 0 }, .ok ()) := by
    simp only [reset, begins]
  rcases request.restart_cases restart with ⟨word, rfl⟩ | rfl
  · simp only [perform, start, again]
  · simp only [perform, again]

theorem restart_cleared (restart : request.isRestart = true) :
    ({ m with tape := m.tape.clear } : Machine).perform c request = m.perform c request := by
  have again : ({ m with tape := m.tape.clear } : Machine).reset c = m.reset c := rfl
  rcases request.restart_cases restart with ⟨word, rfl⟩ | rfl
  · simp only [perform, start, again]
    rfl
  · simp only [perform, again]

theorem attempts_failed (attempts : List Attempt) (fails : ∀ a ∈ attempts, a.Fails) :
    m.attempt attempts = if attempts = [] then m else { m with tape := m.tape.clear } := by
  induction attempts generalizing m with
  | nil => rfl
  | cons a rest ih =>
      obtain ⟨restart, fault, missing⟩ := fails a List.mem_cons_self
      have first := restart_failed a.configuration m a.request restart fault missing
      have later := ih { m with tape := m.tape.clear } fun b listed => fails b (List.mem_cons_of_mem a listed)
      rw [attempt, List.foldl_cons, first, if_neg (List.cons_ne_nil a rest)]
      apply later.trans
      by_cases last : rest = []
      · rw [if_pos last]
      · rw [if_neg last]
        rfl

/-- A restart fails exactly where there is no start state. Then head, state, status and steps are
what they were and nothing is told of it, but the tape is blank; it is what it was only if it was
blank before. The loss has no part in what a later restart does: it ends as it would have ended
without the failures before it. -/
theorem failed_restart_clears_tape_only (restart : request.isRestart = true) :
    ((∃ fault, (m.perform c request).reply = .error fault) ↔ ∃ fault, c.startState = .error fault) ∧
    (∀ fault, c.startState = .error fault →
      let left := m.perform c request
      left.reply = .error (.lookup fault) ∧ left.seen = [] ∧ left.machine = { m with tape := m.tape.clear } ∧
      ((∀ address, left.machine.tape.read address = m.tape.read address) ↔
        ∀ address, m.tape.read address = m.tape.blank)) ∧
    ∀ attempts : List Attempt, (∀ a ∈ attempts, a.Fails) → (m.attempt attempts).perform c request =
      m.perform c request := by
  refine ⟨?_, ?_, ?_⟩
  · cases begins : c.startState with
    | ok s => simp [restart_done c m request restart s begins]
    | error fault => simp [restart_failed c m request restart fault begins]
  · intro fault missing left
    have failed : left = _ := restart_failed c m request restart fault missing
    have blank (address : Int) : left.machine.tape.read address = m.tape.blank := by
      rw [failed]
      exact m.tape.read_clear address
    refine ⟨by rw [failed], by rw [failed], by rw [failed], ?_⟩
    simp only [blank, eq_comm]
  · intro attempts fails
    rw [attempts_failed m attempts fails]
    by_cases none : attempts = []
    · rw [if_pos none]
    · rw [if_neg none]
      exact restart_cleared c m request restart

def midway : Machine where
  tape := (Tape.mk (.text "_") ∅).load 0 [.text "1", .text "1"]
  permissive := false
  state := { id := 0, transitions := [⟨0, .right, .text "1", [.text "1"]⟩] }
  head := 1
  status := some .active
  steps := 1

/-- Its configuration, and what is left of that without the state that it starts from. -/
def whole : Configuration := { states := [midway.state, { id := 1, acceptance := .accept }] }

def headless : Configuration := { states := [{ id := 1, acceptance := .accept }] }

theorem midway_restarts_clear_tape :
    (midway.perform headless .reset).machine = { midway with tape := midway.tape.clear } ∧
      (midway.perform headless (.start [.text "1"])).machine = { midway with tape := midway.tape.clear } ∧
      (midway.attempt [⟨headless, .reset⟩, ⟨headless, .start []⟩]).perform whole .reset =
        midway.perform whole .reset := by
  have missing : headless.startState = .error (.noState (Label.ofId 0)) := rfl
  have after := failed_restart_clears_tape_only headless midway .reset rfl
  have afterStart := failed_restart_clears_tape_only headless midway (.start [.text "1"]) rfl
  have again := failed_restart_clears_tape_only whole midway .reset rfl
  refine ⟨(after.2.1 _ missing).2.2.1, (afterStart.2.1 _ missing).2.2.1, ?_⟩
  apply again.2.2
  intro a listed
  have either : a = ⟨headless, .reset⟩ ∨ a = ⟨headless, .start []⟩ := by simpa using listed
  rcases either with rfl | rfl <;> exact ⟨rfl, _, missing⟩

theorem failed_restart_loses_word :
    (Machine.create whole (.text "_") false).map (fun m =>
      ((m.perform whole (.start [.text "1", .text "1"])).machine.perform whole .step).machine) = .ok midway ∧
    (whole.remove (Label.ofId 0)).map Prod.fst = .ok headless ∧
    ∀ request ∈ [Request.reset, .start [.text "1"]],
      let left := midway.perform headless request
      left.reply = .error (.lookup (.noState (Label.ofId 0))) ∧
      midway.tape.cells.toList = [(0, .text "1"), (1, .text "1")] ∧ left.machine.tape.cells.toList = [] ∧
      (left.machine.state, left.machine.head, left.machine.status, left.machine.steps) =
        (midway.state, 1, some .active, 1) := by
  refine ⟨rfl, rfl, ?_⟩
  intro request listed left
  have either : request = .reset ∨ request = .start [.text "1"] := by simpa using listed
  rcases either with rfl | rfl <;> exact ⟨rfl, rfl, rfl, rfl⟩

end Machine

end TapeMachine
