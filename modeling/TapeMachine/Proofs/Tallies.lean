import Mathlib.Data.List.Zip
import TapeMachine.Pool.Simulation
import TapeMachine.Proofs.Outcome

set_option autoImplicit false

namespace TapeMachine

namespace WordResult

def statusName : WordResult → Text
  | .decided entry => entry.status.name
  | .failed _ _ => failedStatus

theorem statuses_known (results : List WordResult) :
    (results.map tally).mapM Tally.status = .ok (results.map fun result => .text result.statusName) := by
  rw [List.mapM_map]
  apply map_all_ok
  intro result _
  cases result <;> rfl

def counted (results : List WordResult) (name : Text) : Nat :=
  ((results.map fun result => Json.text result.statusName).filter fun s => s = .text name).length

theorem counted_cons (result : WordResult) (rest : List WordResult) (name : Text) :
    counted (result :: rest) name = counted rest name + if result.statusName = name then 1 else 0 := by
  by_cases same : result.statusName = name
  · simp [counted, same]
  · simp [counted, same]

theorem one_name (result : WordResult) :
    (if result.statusName = Status.accepted.name then 1 else 0) +
    (if result.statusName = Status.rejected.name then 1 else 0) +
      (if result.statusName = Status.active.name then 1 else 0) +
      (if result.statusName = failedStatus then 1 else 0) = 1 := by
  cases result with
  | failed input fault =>
      rw [statusName]
      decide
  | decided entry =>
      rw [statusName]
      cases entry.status <;> decide

theorem counted_all (results : List WordResult) :
    counted results Status.accepted.name + counted results Status.rejected.name + counted results Status.active.name +
      counted results failedStatus = results.length := by
  induction results with
  | nil => rfl
  | cons result rest ih =>
      have one := one_name result
      rw [counted_cons, counted_cons, counted_cons, counted_cons, List.length_cons]
      omega

end WordResult

open WordResult

namespace Summary

theorem finished_steps (results : List WordResult) :
    (((results.map tally).zip (results.map fun result => Json.text result.statusName)).filter fun r =>
      r.2 ≠ .text failedStatus).mapM
      (fun r => r.1.steps) = .ok ((PoolRun.decided results).map fun entry => .int entry.steps) := by
  induction results with
  | nil => rfl
  | cons result rest ih =>
      cases result with
      | failed input fault =>
          rw [List.map_cons, List.map_cons, List.zip_cons_cons, List.filter_cons_of_neg (by simp [statusName])]
          exact ih
      | decided entry =>
          have named : entry.status.name ≠ failedStatus := by cases entry.status <;> decide
          rw [List.map_cons, List.map_cons, List.zip_cons_cons,
            List.filter_cons_of_pos (by simp [statusName, named]), List.mapM_cons, ih]
          rfl

def stepsOf (results : List WordResult) : List Int := (PoolRun.decided results).map fun entry => (entry.steps : Int)

variable [Arrays]

def ofResults (results : List WordResult) : Summary where
  runs := results.length
  accepted := counted results Status.accepted.name
  rejected := counted results Status.rejected.name
  unhalted := counted results Status.active.name
  failed := counted results failedStatus
  mean := if stepsOf results = [] then Binary64.zero false else Arrays.mean (stepsOf results)
  median := if stepsOf results = [] then Binary64.zero false else Arrays.median (stepsOf results)
  largest := (stepsOf results).foldl max ((stepsOf results).headD 0)

theorem of_results (results : List WordResult) : ofTallies (results.map tally) =
    match Arrays.whole ((stepsOf results).map .int) with
    | .ok counts => .ok { ofResults results with
        mean := if counts = [] then Binary64.zero false else Arrays.mean counts
        median := if counts = [] then Binary64.zero false else Arrays.median counts
        largest := counts.foldl max (counts.headD 0) }
    | .error fault => .error (.array fault) := by
  have numbers : (PoolRun.decided results).map (fun entry => Json.int entry.steps) = (stepsOf results).map .int := by
    rw [stepsOf, List.map_map]
    rfl
  rw [ofTallies, statuses_known, ok_bind]
  dsimp only
  rw [finished_steps, ok_bind, numbers]
  cases Arrays.whole ((stepsOf results).map .int) with
  | error fault => rfl
  | ok counts => simp [ofResults, counted]

omit [Arrays] in
theorem stepsOf_sized (results : List WordResult) :
    (∀ i ∈ stepsOf results, Quantity.isSized i = true) ↔
      ∀ entry ∈ PoolRun.decided results, Quantity.isSized entry.steps = true := by
  simp [stepsOf]

variable (lawful : Arrays.Lawful)

include lawful

theorem of_results_ok (results : List WordResult)
    (sized : ∀ entry ∈ PoolRun.decided results, Quantity.isSized entry.steps = true) :
    ofTallies (results.map tally) = .ok (ofResults results) := by
  rw [of_results, lawful.sized _ ((stepsOf_sized results).mpr sized)]
  rfl

theorem of_results_cases (results : List WordResult) :
    (ofTallies (results.map tally) = .ok (ofResults results) ∧
        ∀ entry ∈ PoolRun.decided results, Quantity.isSized entry.steps = true) ∨
      ∃ fault, fault.flaw = .overflow ∧ ofTallies (results.map tally) = .error (.array fault) ∧
        ∃ entry ∈ PoolRun.decided results, Quantity.isSized entry.steps = false := by
  by_cases sized : ∀ entry ∈ PoolRun.decided results, Quantity.isSized entry.steps = true
  · exact .inl ⟨of_results_ok lawful results sized, sized⟩
  · obtain ⟨entry, listed, large⟩ :
      ∃ entry ∈ PoolRun.decided results, Quantity.isSized entry.steps = false := by simpa using sized
    obtain ⟨fault, refused, flaw⟩ := lawful.large (stepsOf results) ⟨entry.steps, List.mem_map_of_mem listed, large⟩
    refine .inr ⟨fault, flaw, ?_, entry, listed, large⟩
    rw [of_results, refused]

theorem of_results_fault (results : List WordResult) (fault : SummaryFault)
    (failed : ofTallies (results.map tally) = .error fault) :
    (∃ cause, fault = .array cause ∧ cause.flaw = .overflow) ∧
      ∃ entry ∈ PoolRun.decided results, Quantity.isSized entry.steps = false := by
  rcases of_results_cases lawful results with ⟨summed, _⟩ | ⟨cause, flaw, refused, large⟩
  · rw [summed] at failed
    cases failed
  · rw [refused] at failed
    cases failed
    exact ⟨⟨cause, rfl, flaw⟩, large⟩

theorem of_results_sized (results : List WordResult) (summary : Summary)
    (summed : ofTallies (results.map tally) = .ok summary) :
    summary = ofResults results ∧ ∀ entry ∈ PoolRun.decided results, Quantity.isSized entry.steps = true := by
  rcases of_results_cases lawful results with ⟨same, sized⟩ | ⟨cause, _, refused, _⟩
  · rw [same] at summed
    exact ⟨(Except.ok.inj summed).symm, sized⟩
  · rw [refused] at summed
    cases summed

omit lawful in
theorem of_results_counts (results : List WordResult) : (ofResults results).runs = results.length ∧
    (ofResults results).runs = (ofResults results).accepted + (ofResults results).rejected +
    (ofResults results).unhalted +
      (ofResults results).failed := ⟨rfl, (counted_all results).symm⟩

end Summary

end TapeMachine
