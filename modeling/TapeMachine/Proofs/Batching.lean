import TapeMachine.Proofs.CallRuns

set_option autoImplicit false

namespace TapeMachine

open WordResult

section Calls

variable [Screen] [Arrays]

/-- The sessions in which the files of a run are not there or were left by calls, however these ended. -/
inductive Left (kin : PoolRun) : Session → Prop where
  | absent (s : Session) (nothing : ∀ place, kin.Own place → s.store.content? place = none) : Left kin s
  | outside (s s' : Session) (before : Left kin s)
      (alone : ∀ place, kin.Own place → s'.store.content? place = s.store.content? place) :
      Left kin s'
  | called (s : Session) (before : Left kin s) (run : PoolRun) (log : Option RunLog)
      (avoids : ∀ l ∈ log, (l.on s.today).Avoids kin.Own) :
      Left kin ((run.simulate log).runIn s).2

theorem left_holds (kin : PoolRun) (s : Session) (left : Left kin s) : ∃ written done, kin.Holds written done s := by
  induction left with
  | absent s nothing => exact ⟨[], [], kin.fresh_holds s nothing⟩
  | outside s s' before alone ih =>
      obtain ⟨written, done, held⟩ := ih
      exact ⟨written, done, held.unchanged (alone _ (.inl rfl)) (alone _ (.inr rfl))⟩
  | called s before run log avoids ih =>
      obtain ⟨written, done, held⟩ := ih
      by_cases shares : run.Shares kin
      · have ledger := (PoolRun.holds_shared shares s).mpr held
        rcases run.simulate_reaches_on log s (PoolRun.own_shared shares ▸ avoids) ledger with
          ⟨_, _, after⟩ | ⟨_, _, _, _, _, whole, rest, reached, _⟩
        · exact ⟨written, done, (PoolRun.holds_shared shares _).mp after⟩
        · exact ⟨_, _, (PoolRun.holds_shared shares _).mp reached.holds⟩
      · obtain ⟨results, checkpoint⟩ := PoolRun.unshared_apart shares
        have steady := run.simulate_steady_on kin.Own log s avoids results checkpoint
        exact ⟨written, done, held.unchanged (steady.files _ (.inl rfl)) (steady.files _ (.inr rfl))⟩

end Calls

theorem word_span_short (n : Nat) (small : n < twoTo 63) : n < tenTo digitLimit := by
  have digits : twoTo 63 ≤ tenTo 20 := by decide
  exact Nat.lt_of_lt_of_le small (Nat.le_trans digits (ten_to_mono 20 digitLimit (by decide)))

namespace PoolRun

def oneByOne (run : PoolRun) : PoolRun := { run with batchSize := .int 1, workers := .int 1 }

/-- The screen takes the warnings of the words that a run still has to do and that fail. -/
def Warns [Screen] (run : PoolRun) (start : Start) : Prop := ∀ word ∈ start.pending, ∀ result,
  run.report start.definition word = .ok result → ∀ t ∈ warnings result, Screen.refuses t = none

variable [Screen] (run : PoolRun) (log : Option RunLog) {written : List WordResult} {done : List Text}

def opening : Job Start := do
  let d ← Definition.loadLines (Path.ofText (← Job.pathText run.definitionPath))
  let poolFile ← Job.pathText run.poolFile
  let _ ← Job.pathText run.resultsFolder
  Job.makePath run.folder
  let words ← Pool.load poolFile
  let completed ← Checkpoint.load run.checkpointFile
  let done ← Job.lift (Checkpoint.words completed)
  let start : Start := ⟨d, words, completed, done, []⟩
  Job.say (loadedText words.length start.pending.length)
  Job.appendText run.resultsFile.toText []
  return start

theorem begin_opening : run.begin = (do
    let start ← run.opening
    return { start with due := ← Job.lift (run.batchesOf start.pending) }) := by
  simp only [begin, opening, bind_assoc, pure_bind]
  rfl

theorem begin_cut (size : Nat) (cut : Quantity.stride run.batchSize = .ok size) (s : Session) : run.begin.runIn s =
    match run.opening.runIn s with
    | (.ok start, t) => (.ok { start with due := batches size start.pending }, t)
    | (.error fault, t) => (.error fault, t) := by
  rw [begin_opening, Job.run_bind]
  cases run.opening.runIn s with
  | mk outcome t =>
      cases outcome with
      | error fault => rfl
      | ok start =>
          dsimp only
          rw [batchesOf, cut, Job.run_bind]
          rfl

theorem warned_heard (d : Definition) (words : List Text) (results : List WordResult)
    (warned : ∀ word ∈ words, ∀ result, run.report d word = .ok result → ∀ t ∈ warnings result, Screen.refuses t = none)
    (reported : words.mapM (run.report d) = .ok results) : words.mapM (run.heard d) = .ok results := by
  induction words generalizing results with
  | nil => exact reported
  | cons word rest ih =>
      obtain ⟨here, others⟩ := List.forall_mem_cons.mp warned
      rw [List.mapM_cons] at reported ⊢
      obtain ⟨result, first, reported⟩ := (bind_ok _ _ _).mp reported
      obtain ⟨later, after, same⟩ := (bind_ok _ _ _).mp reported
      rw [run.heard_taken d word result first (here result first), ok_bind, ih later others after, ok_bind]
      exact same

variable [Arrays]

theorem finishes_recut (size workers : Json) (t : Session) (due : List (List Text)) (results : List WordResult)
    (called : Except Fault Summary × Session)
    (finishes : { run with batchSize := size, workers }.Finishes written done t due results called) :
    run.Finishes written done t due results called where
  outcome := finishes.outcome
  holds := finishes.holds
  files := ⟨finishes.files.results, finishes.files.opened, finishes.files.checkpoint, finishes.files.plain⟩
  quiet := finishes.quiet
  kept := finishes.kept
  saved := finishes.saved

theorem finishes_same (t : Session) (due due' : List (List Text)) (idle : due = [] ↔ due' = [])
    (results : List WordResult)
    (called called' : Except Fault Summary × Session) (finishes : run.Finishes written done t due results called)
    (finishes' : run.Finishes written done t due' results called') :
    called.1 = called'.1 ∧ called.2.store.content? run.resultsPlace = called'.2.store.content? run.resultsPlace ∧
      (allTold results = true → called.2.store.content? run.checkpointPlace =
        called'.2.store.content? run.checkpointPlace) := by
  obtain ⟨named, held, names⟩ := finishes.holds
  obtain ⟨named', held', names'⟩ := finishes'.holds
  refine ⟨finishes.outcome.trans finishes'.outcome.symm,
    held.results_same held' finishes.files.opened finishes'.files.opened, ?_⟩
  intro all
  by_cases nothing : due = []
  · rw [finishes.kept nothing, finishes'.kept (idle.mp nothing)]
  · rw [names all] at held
    rw [names' all] at held'
    exact held.completed_same held' (finishes.saved all nothing)
      (finishes'.saved all fun none => nothing (idle.mpr none))

theorem opened_finishes (lawful : Screen.Lawful) (workers : Quantity.checkWorkers run.workers = .ok ())
    (size : Nat) (stride : Quantity.stride run.batchSize = .ok size)
    (positive : 0 < size) (s t : Session) (start : Start) (opened : run.opening.runIn s = (.ok start, t))
    (held : run.Holds written done s)
    (serves : ∀ l ∈ log, l.Serves run.Own t) (warns : run.Warns start) (limit : Nat)
    (bounded : Quantity.stepBound run.maxSteps = .ok limit) :
    run.begin.runIn s = (.ok { start with due := batches size start.pending }, t) ∧
      run.Started { start with due := batches size start.pending } done t ∧ run.Holds written done t ∧
      ∃ results, start.pending.mapM (run.report start.definition) = .ok results ∧
        run.Finishes written done t (batches size start.pending) results ((run.simulate log).runIn s) := by
  have begun := run.begin_cut size stride s
  rw [opened] at begun
  have clean := (run.begin_started s t _ held begun).clean
  obtain ⟨results, reported⟩ := run.reports_exist start.definition clean limit bounded start.pending
  have due : (batches size start.pending).flatten.mapM (run.heard start.definition) = .ok results := by
    rw [batches_flatten size _ positive]
    exact run.warned_heard start.definition start.pending results warns reported
  obtain ⟨started, holds, finishes⟩ := run.begun_finishes log lawful workers s t _ begun held serves results due
  exact ⟨begun, started, holds, results, reported, finishes⟩

theorem unopened_ends (size : Nat) (stride : Quantity.stride run.batchSize = .ok size) (s t : Session) (fault : Fault)
    (unopened : run.opening.runIn s = (.error fault, t)) :
    run.begin.runIn s = (.error fault, t) ∧ (run.simulate log).runIn s = (.error fault, t) := by
  have failed := run.begin_cut size stride s
  rw [unopened] at failed
  exact ⟨failed, by rw [simulate, Job.run_bind, failed]⟩

theorem finishes_alike (t : Session) (due due' : List (List Text)) (idle : due = [] ↔ due' = [])
    (results : List WordResult)
    (called called' : Except Fault Summary × Session) (finishes : run.Finishes written done t due results called)
    (finishes' : run.Finishes written done t due' results called') (limit : Nat)
    (short_told : limit < tenTo digitLimit → allTold results = true) :
    called.1 = called'.1 ∧ called.2.store.content? run.resultsPlace = called'.2.store.content? run.resultsPlace ∧
      (called.2.store.content? run.checkpointPlace = called'.2.store.content? run.checkpointPlace ∨
        called.1 = .error .longNumber ∧ tenTo digitLimit ≤ limit) := by
  obtain ⟨outcome, files, checkpoint⟩ := run.finishes_same t due due' idle results called called' finishes finishes'
  refine ⟨outcome, files, ?_⟩
  cases all : allTold results with
  | true => exact .inl (checkpoint all)
  | false =>
      have failed := finishes.outcome
      rw [all] at failed
      refine .inr ⟨failed, Nat.le_of_not_lt fun short => ?_⟩
      rw [short_told short] at all
      cases all

theorem finishes_tells (arrays : Arrays.Lawful) (t : Session) (start : Start)
    (started : run.Started start done t) (holds : run.Holds written done t)
    (due : List (List Text)) (called : Except Fault Summary × Session) (results : List WordResult)
    (reported : start.pending.mapM (run.report start.definition) = .ok results)
    (finishes : run.Finishes written done t due results called)
    (limit : Nat) (bounded : Quantity.stepBound run.maxSteps = .ok limit) :
    ∃ earlier, (Job.readLines run.resultsFile.toText).runIn t = (.ok earlier, t) ∧
      (Job.readLines run.resultsFile.toText).runIn called.2 =
        (.ok (earlier ++ (told results).map fun result => result.toJson.compact), called.2) ∧
      (limit < tenTo digitLimit ∨ (∃ summary, called.1 = .ok summary) → told results = results ∧
        (Checkpoint.load run.checkpointFile).runIn called.2 =
          (.ok (Checkpoint.naming (start.done ++ inputs results)), called.2)) ∧
      (limit < twoTo 63 → Screen.refuses (run.success start.pending.length) = none →
        ∃ summary, called.1 = .ok summary) ∧
      ∀ summary, called.1 = .ok summary → summary.runs = start.pending.length ∧
        summary.runs = summary.accepted + summary.rejected + summary.unhalted + summary.failed := by
  have short_told (short : limit < tenTo digitLimit) : allTold results = true :=
    run.all_told start.definition started.clean limit bounded short start.pending results reported
  obtain ⟨read, load⟩ := run.finishes_reads t due results called finishes
  rw [List.map_append] at read
  refine ⟨_, (run.reachable_reads t started.files holds).1, read, ?_, ?_, ?_⟩
  · intro enough
    have all : allTold results = true := by
      rcases enough with short | ⟨summary, ended⟩
      · exact short_told short
      · exact (run.finishes_summary arrays t due results called finishes summary ended).1
    rw [started.named]
    exact ⟨told_all results all, load all⟩
  · intro small taken
    have sized := run.steps_sized start.definition started.clean limit bounded small start.pending results reported
    rw [← map_all_length _ _ _ reported] at taken
    have outcome := finishes.outcome
    rw [short_told (word_span_short limit small), if_pos rfl,
      (run.concluded_ok arrays results _).mpr ⟨rfl, sized, taken⟩] at outcome
    exact ⟨_, outcome⟩
  · intro summary ended
    obtain ⟨_, _, rfl⟩ := run.finishes_summary arrays t due results called finishes summary ended
    obtain ⟨runs, counts⟩ := Summary.of_results_counts results
    exact ⟨runs.trans (map_all_length _ _ _ reported), counts⟩

end PoolRun

theorem check_workers_whole (n : Int) (positive : 1 ≤ n) : Quantity.checkWorkers (.int n) = .ok () := by
  have enough : ¬ n < 1 := by omega
  simp [Quantity.checkWorkers, Quantity.isBelow, Quantity.whole, enough]

/-- A call with batches and workers of any number ends as the one that takes the words one by one
with a single worker: with the same summary or fault, the same results and the same checkpoint,
unless both stop at a number with more digits than can be written, for which the bound of steps must
have as many. It appends what is reported of each pending word by itself, in the order of the pool,
and its summary counts each of them once. The log must have files of its own that can be written,
and the screen must take the warnings. -/
theorem batching_is_invisible [Screen] [Arrays] (lawful : Screen.Lawful) (arrays : Arrays.Lawful)
    (run : PoolRun) (s : Session)
    (left : Left run s) (log : Option RunLog) (serves : ∀ l ∈ log, l.Serves run.Own (run.begin.runIn s).2)
    (warns : ∀ start t, run.begin.runIn s = (.ok start, t) → run.Warns start) (limit : Nat)
    (bounded : Quantity.stepBound run.maxSteps = .ok limit)
    (b w : Int) (size : run.batchSize = .int b) (some_size : 1 ≤ b) (crew : run.workers = .int w)
    (some_worker : 1 ≤ w) :
    let called := (run.simulate log).runIn s
    let single := (run.oneByOne.simulate log).runIn s
    called.1 = single.1 ∧
    called.2.store.content? run.resultsPlace = single.2.store.content? run.resultsPlace ∧
    (called.2.store.content? run.checkpointPlace = single.2.store.content? run.checkpointPlace ∨
      called.1 = .error .longNumber ∧ tenTo digitLimit ≤ limit) ∧
    ∀ start t, run.begin.runIn s = (.ok start, t) →
      ∃ earlier results, start.pending.mapM (run.report start.definition) = .ok results ∧
        (Job.readLines run.resultsFile.toText).runIn t = (.ok earlier, t) ∧
        (Job.readLines run.resultsFile.toText).runIn called.2 =
          (.ok (earlier ++ (told results).map fun result => result.toJson.compact), called.2) ∧
        (limit < tenTo digitLimit ∨ (∃ summary, called.1 = .ok summary) → told results = results ∧
          (Checkpoint.load run.checkpointFile).runIn called.2 =
            (.ok (Checkpoint.naming (start.done ++ PoolRun.inputs results)), called.2)) ∧
        (limit < twoTo 63 → Screen.refuses (run.success start.pending.length) = none →
          ∃ summary, called.1 = .ok summary) ∧
        ∀ summary, called.1 = .ok summary → summary.runs = start.pending.length ∧
          summary.runs = summary.accepted + summary.rejected + summary.unhalted + summary.failed := by
  intro called single
  obtain ⟨written, done, held⟩ := left_holds run s left
  obtain ⟨n, stride, filled⟩ := stride_whole b some_size
  rw [← size] at stride
  have workers := check_workers_whole w some_worker
  rw [← crew] at workers
  cases opened : run.opening.runIn s with
  | mk outcome t =>
      cases outcome with
      | error fault =>
          obtain ⟨failed, ended⟩ := run.unopened_ends log n stride s t fault opened
          obtain ⟨_, ended_single⟩ := run.oneByOne.unopened_ends log 1 rfl s t fault opened
          have same : called = single := ended.trans ended_single.symm
          rw [same]
          refine ⟨rfl, rfl, .inl rfl, fun start u begun => ?_⟩
          rw [failed] at begun
          cases begun
      | ok start =>
          have begins := run.begin_cut n stride s
          rw [opened] at begins
          have warning : run.Warns start := (warns _ t begins :)
          have serving : ∀ l ∈ log, l.Serves run.Own t := by rwa [begins] at serves
          -- Both open alike and so have the same words to do, which are only cut in other places.
          obtain ⟨begun, started, holds, results, reported, finishes⟩ :=
            run.opened_finishes log lawful workers n stride filled s t start opened held serving warning limit bounded
          obtain ⟨_, _, _, results', reported', finishes'⟩ := run.oneByOne.opened_finishes log lawful
            rfl 1 rfl (by decide) s t start opened held serving warning limit bounded
          obtain rfl : results' = results := Except.ok.inj (reported'.symm.trans reported)
          have idle : batches n start.pending = [] ↔ batches 1 start.pending = [] := by
            rw [batches_nil_iff n start.pending filled, batches_nil_iff 1 start.pending (by decide)]
          have alike := run.finishes_alike t _ _ idle results' called single finishes
            (run.finishes_recut _ _ t _ results' single finishes')
            limit fun short =>
              run.all_told start.definition started.clean limit bounded short start.pending results' reported
          refine ⟨alike.1, alike.2.1, alike.2.2, fun start' t' begun' => ?_⟩
          obtain ⟨found, rfl⟩ := Prod.mk.inj (begun.symm.trans begun')
          obtain rfl := Except.ok.inj found
          obtain ⟨earlier, tells⟩ :=
            run.finishes_tells arrays t _ started holds _ called results' reported finishes limit bounded
          exact ⟨earlier, results', reported, tells⟩

/-- The inputs of the results that did not fail and that a call leaves in their file. -/
def inputsLeft (screen : Screen) [Arrays] (run : PoolRun) (log : Option RunLog) (s : Session) : Option (List Text) :=
  let called := (run.simulate log).runIn s
  ((Job.readLines run.resultsFile.toText).runIn called.2).1.toOption.map finishedInputs

section Files

open scoped StandIn

def pooledFiles : Session where
  store := {
    files := [(["p.txt"], (Utf8.encode "1\n").getD []), (["b", "p.txt"], (Utf8.encode "1\n2\n11\n2\n").getD []),
      (["yes.tm"], (Utf8.encode "%charset 1 _\n%blank _\n> 0\n1 A\n0 1 -> 1 r 1\n").getD [])]
    folders := [["b"], ["logs"]] }
  today := "2024-05-01"

def widerRun : PoolRun where
  definitionPath := .text "yes.tm"
  poolFile := .text "b/p.txt"
  batchSize := .int 2
  maxSteps := .int 9
  workers := .int 3

def dayLog : RunLog := ⟨"logs", "turing_", "2024-04-30"⟩

def afterNarrower : Session := ((acceptingRun.simulate none).runIn pooledFiles).2

theorem narrower_left : Left widerRun afterNarrower := by
  refine .called pooledFiles (.absent pooledFiles ?_) acceptingRun none (by simp)
  rintro place (rfl | rfl) <;> decide +kernel

theorem day_log_serves : dayLog.Serves widerRun.Own (widerRun.begin.runIn afterNarrower).2 := by decide +kernel

theorem three_words_in_batches_of_two :
    ∃ summary, ((widerRun.simulate (some dayLog)).runIn afterNarrower).1 = .ok summary ∧ summary.runs = 3 ∧
      ((widerRun.oneByOne.simulate (some dayLog)).runIn afterNarrower).1 = .ok summary := by
  obtain ⟨outcome, _, _, made⟩ :=
    batching_is_invisible StandIn.screen_lawful StandIn.arrays_lawful widerRun afterNarrower narrower_left
    (some dayLog) (by rintro l ⟨⟩; exact day_log_serves) (fun _ _ _ _ _ _ _ _ _ => rfl) 9 rfl 2 3 rfl
      (by decide) rfl (by decide)
  have begins : (widerRun.begin.runIn afterNarrower).1.toOption.map (fun start => start.pending.length) =
      some 3 := by decide +kernel
  obtain ⟨start, begun, three⟩ := Option.map_eq_some_iff.mp begins
  obtain ⟨_, _, _, _, _, _, returns, counts⟩ := made start _ (Job.run_result _ start begun)
  obtain ⟨summary, ended⟩ := returns (by decide) rfl
  exact ⟨summary, ended, (counts summary ended).1.trans three, outcome.symm.trans ended⟩

def pairedFiles : Session where
  store := {
    files := [(["p.txt"], (Utf8.encode "1\n11\n").getD []), (["q.txt"], (Utf8.encode "1\n[/b]\n").getD []),
      (["yes.tm"], (Utf8.encode "%charset 1 _\n%blank _\n> 0\n1 A\n0 1 -> 1 r 1\n").getD [])] }
  today := "2024-05-01"

def sharingRun : PoolRun where
  definitionPath := .text "yes.tm"
  poolFile := .text "p.txt"
  outputName := "accepted_2024-05-01"
  batchSize := .int 2

def sharedLog : RunLog := ⟨"results/p", "turing_", "2024-05-01"⟩

def closingTagWarning : Text :=
  "[yellow][WARNING] Failed to simulate '[/b]': Input '[/b]' uses symbols outside the charset: ['/', '[', ']', 'b'][/yellow]"

@[reducible] def closingTagScreen : Screen :=
  StandIn.refusing closingTagWarning "closing tag '[/b]' at position 38 doesn't match any open tag"

def warningRun : PoolRun where
  definitionPath := .text "yes.tm"
  poolFile := .text "q.txt"
  batchSize := .int 2

theorem closing_tag_is_not_tame : ¬ Screen.Tame closingTagWarning := by
  have shape : closingTagWarning = Screen.styled "yellow"
      "[WARNING] Failed to simulate '[/b]': Input '[/b]' uses symbols outside the charset: ['/', '[', ']', 'b']" := by
    decide +kernel
  rw [shape, Screen.tame_styled_iff _ _ (by decide)]
  decide

theorem batches_show_in_a_shared_log_and_in_a_refused_warning :
    (∀ run ∈ [sharingRun, warningRun], ∀ place, run.Own place → pairedFiles.store.content? place = none) ∧
    inputsLeft StandIn.screen sharingRun (some sharedLog) pairedFiles =
      some [("1" : Text), ("11" : Text), ("1" : Text), ("11" : Text)] ∧
    inputsLeft StandIn.screen sharingRun.oneByOne (some sharedLog) pairedFiles =
      some [("1" : Text), ("1" : Text), ("11" : Text), ("11" : Text)] ∧
    @Screen.Lawful closingTagScreen ∧
    inputsLeft closingTagScreen warningRun none pairedFiles = some [] ∧
    inputsLeft closingTagScreen warningRun.oneByOne none pairedFiles = some [("1" : Text)] := by
  refine ⟨?_, by decide +kernel, by decide +kernel,
    StandIn.refusing_lawful _ _ closing_tag_is_not_tame (by decide +kernel), by decide +kernel, by decide +kernel⟩
  intro run listed place own
  rcases List.mem_pair.mp listed with rfl | rfl <;> rcases own with rfl | rfl <;> decide +kernel

end Files

end TapeMachine
