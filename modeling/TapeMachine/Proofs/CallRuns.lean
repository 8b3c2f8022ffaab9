import TapeMachine.Proofs.BatchRuns
import TapeMachine.Proofs.PoolCalls
import TapeMachine.Proofs.Tallies

set_option autoImplicit false

namespace TapeMachine

open WordResult

namespace Ledger

variable {file checkpoint : Place} {written : List WordResult} {done done' : List Text} {s s' : Store}

theorem results_same (ledger : Ledger file checkpoint written done s)
    (ledger' : Ledger file checkpoint written done' s')
    (there : s.content? file ≠ none) (there' : s'.content? file ≠ none) : s.content? file = s'.content? file := by
  obtain ⟨bytes, held⟩ := Option.ne_none_iff_exists'.mp there
  obtain ⟨bytes', held'⟩ := Option.ne_none_iff_exists'.mp there'
  have same := ledger.results.symm.trans ledger'.results
  rw [held, held', Option.getD_some, Option.getD_some] at same
  rw [held, held', same]

theorem completed_same (ledger : Ledger file checkpoint written done s)
    (ledger' : Ledger file checkpoint written done s')
    (there : s.content? checkpoint ≠ none) (there' : s'.content? checkpoint ≠ none) :
    s.content? checkpoint = s'.content? checkpoint := by
  rcases ledger.completed with ⟨nothing, _⟩ | ⟨bytes, held, encoded⟩
  · exact absurd nothing there
  · rcases ledger'.completed with ⟨nothing, _⟩ | ⟨bytes', held', encoded'⟩
    · exact absurd nothing there'
    · rw [held, held', encoded.symm.trans encoded']

end Ledger

namespace PoolRun

variable [Screen] [Arrays] (run : PoolRun) (log : Option RunLog) {written : List WordResult} {done : List Text}

theorem simulate_begun (s t : Session) (start : Start) (begun : run.begin.runIn s = (.ok start, t))
    (ran : Except Fault (List WordResult) × Session)
    (batched : (run.runBatches start.definition log 1 start.completed start.due).runIn t = ran) :
    ((run.simulate log).runIn s).1 = ran.1.bind run.concluded ∧ ((run.simulate log).runIn s).2.store = ran.2.store := by
  rw [simulate, Job.run_bind, begun]
  dsimp only
  rw [Job.run_bind, batched]
  cases ran with
  | mk outcome u =>
      cases outcome with
      | error fault => exact ⟨rfl, rfl⟩
      | ok results => exact run.run_conclude results u

structure Finishes (written : List WordResult) (done : List Text) (t : Session) (due : List (List Text))
    (results : List WordResult)
    (called : Except Fault Summary × Session) : Prop where
  outcome : called.1 = if allTold results then run.concluded results else .error .longNumber
  holds : ∃ named, run.Holds (written ++ told results) named called.2 ∧
    (allTold results = true → named = done ++ inputs results)
  files : run.Reachable called.2
  quiet : t.Quiet (fun _ => False) called.2
  kept : due = [] → called.2.store.content? run.checkpointPlace = t.store.content? run.checkpointPlace
  saved : allTold results = true → due ≠ [] → called.2.store.content? run.checkpointPlace ≠ none

section Finishing

variable (lawful : Screen.Lawful)

include lawful

theorem simulate_finishes (workers : Quantity.checkWorkers run.workers = .ok ()) (s t : Session) (start : Start)
    (begun : run.begin.runIn s = (.ok start, t)) (held : run.Holds written done t) (started : run.Started start done t)
    (serves : ∀ l ∈ log, l.Serves run.Own t) (results : List WordResult)
    (heard : start.due.flatten.mapM (run.heard start.definition) = .ok results) :
    run.Finishes written done t start.due results ((run.simulate log).runIn s) := by
  have complete := run.run_batches_complete start.definition log lawful started.clean workers 1 start.due
    (run.started_scalar start t started) t ⟨started.files, serves⟩ held results heard
  have quiet := run.run_batches_stay start.definition log 1 start.completed start.due t
  rw [← started.completed] at complete
  cases batched : (run.runBatches start.definition log 1 start.completed start.due).runIn t with
  | mk ended u =>
      rw [batched] at complete quiet
      obtain ⟨outcome, same⟩ := run.simulate_begun log s t start begun _ batched
      obtain ⟨rfl, ⟨named, ledger, names⟩, saved⟩ := complete
      have still := Session.quiet_trans _ t u _ quiet (Session.quiet_same_store _ _ _ same)
      refine ⟨?_, ⟨named, by rwa [Holds, same], names⟩, run.reachable_stays _ t _ started.files still, still, ?_, ?_⟩
      · rw [outcome]
        cases allTold results <;> rfl
      · intro idle
        rw [idle] at batched
        have still : t = u := congrArg Prod.snd batched
        rw [same, still]
      · intro all some
        rw [same]
        exact saved all some

theorem begun_finishes (workers : Quantity.checkWorkers run.workers = .ok ()) (s t : Session) (start : Start)
    (begun : run.begin.runIn s = (.ok start, t)) (held : run.Holds written done s)
    (serves : ∀ l ∈ log, l.Serves run.Own t)
    (results : List WordResult) (heard : start.due.flatten.mapM (run.heard start.definition) = .ok results) :
    run.Started start done t ∧ run.Holds written done t ∧ run.Finishes written done t start.due results
    ((run.simulate log).runIn s) := by
  have started := run.begin_started s t start held begun
  have holds := run.begin_holds s held
  rw [begun] at holds
  exact ⟨started, holds, run.simulate_finishes log lawful workers s t start begun holds started serves results heard⟩

end Finishing

theorem finishes_reads (t : Session) (due : List (List Text)) (results : List WordResult)
    (called : Except Fault Summary × Session)
    (finishes : run.Finishes written done t due results called) :
    (Job.readLines run.resultsFile.toText).runIn called.2 =
        (.ok ((written ++ told results).map fun result => result.toJson.compact), called.2) ∧
      (allTold results = true → (Checkpoint.load run.checkpointFile).runIn called.2 =
        (.ok (Checkpoint.naming (done ++ inputs results)), called.2)) := by
  obtain ⟨named, held, names⟩ := finishes.holds
  obtain ⟨read, load⟩ := run.reachable_reads called.2 finishes.files held
  refine ⟨read, fun all => ?_⟩
  rwa [names all] at load

/-- A run returns if its results can be counted and its last text is taken. -/
theorem concluded_ok (arrays : Arrays.Lawful) (results : List WordResult) (summary : Summary) :
    run.concluded results = .ok summary ↔
    summary = Summary.ofResults results ∧ (∀ entry ∈ decided results, Quantity.isSized entry.steps = true) ∧
      Screen.refuses (run.success results.length) = none := by
  constructor
  · intro ended
    obtain ⟨sum, summed, ended⟩ := (bind_ok _ _ _).mp ended
    obtain ⟨_, said, same⟩ := (bind_ok _ _ _).mp ended
    obtain ⟨rfl, sized⟩ := Summary.of_results_sized arrays results sum ((map_error_ok _ _ _).mp summed)
    exact ⟨(Except.ok.inj same).symm, sized, (Screen.takes_single_ok _).mp said⟩
  · rintro ⟨rfl, sized, taken⟩
    have said : Screen.takes [run.success (Summary.ofResults results).runs] = .ok () :=
      (Screen.takes_single_ok _).mpr taken
    rw [concluded, Summary.of_results_ok arrays results sized, ok_map_error, ok_bind, said]
    rfl

theorem finishes_summary (arrays : Arrays.Lawful) (t : Session) (due : List (List Text))
    (results : List WordResult) (called : Except Fault Summary × Session)
    (finishes : run.Finishes written done t due results called) (summary : Summary) (ended : called.1 = .ok summary) :
    allTold results = true ∧ run.concluded results = .ok summary ∧ summary = Summary.ofResults results := by
  rw [finishes.outcome] at ended
  cases all : allTold results with
  | false =>
      rw [all] at ended
      cases ended
  | true =>
      rw [all, if_pos rfl] at ended
      exact ⟨rfl, ended, ((run.concluded_ok arrays results summary).mp ended).1⟩

omit [Screen] [Arrays] in
theorem all_told (d : Definition) (clean : d.Clean) (limit : Nat)
    (bounded : Quantity.stepBound run.maxSteps = .ok limit)
    (short : limit < tenTo digitLimit) (words : List Text) (results : List WordResult)
    (reported : words.mapM (run.report d) = .ok results) :
    allTold results = true := by
  refine List.all_eq_true.mpr fun result mem => ?_
  obtain ⟨word, _, told⟩ := map_all_each _ words results reported result mem
  exact run.report_writable d clean limit bounded short word result told

omit [Screen] [Arrays] in
theorem steps_sized (d : Definition) (clean : d.Clean) (limit : Nat)
    (bounded : Quantity.stepBound run.maxSteps = .ok limit)
    (small : limit < twoTo 63) (words : List Text) (results : List WordResult)
    (reported : words.mapM (run.report d) = .ok results) :
    ∀ entry ∈ decided results, Quantity.isSized entry.steps = true := by
  intro entry mem
  obtain ⟨word, _, told⟩ := map_all_each _ words results reported _ ((mem_decided results entry).mp mem)
  have steps := (d.entry_extent clean word run.maxSteps run.permissive limit bounded entry
    (report_entry run d word entry told)).1
  have below : (entry.steps : Int) < twoTo 63 := by omega
  have above : -(twoTo 63 : Int) ≤ entry.steps := by omega
  simp [Quantity.isSized, below, above]

end PoolRun

end TapeMachine
