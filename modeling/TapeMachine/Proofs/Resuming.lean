import TapeMachine.Proofs.FinishedLines
import TapeMachine.Proofs.StartAgain

set_option autoImplicit false

namespace TapeMachine

open WordResult

theorem batches_filter {α : Type} (size : Nat) (p : α → Bool) (items : List α) :
    (batches size (items.filter p)).flatten = (batches size items).flatten.filter p := by
  cases size with
  | zero => rfl
  | succ n => rw [batches_flatten _ _ (Nat.succ_pos n), batches_flatten _ _ (Nat.succ_pos n)]

theorem batches_prefix {α : Type} (size : Nat) (items rest : List α) (first : items <+: rest) :
    (batches size items).flatten <+: (batches size rest).flatten := by
  cases size with
  | zero => exact List.prefix_refl []
  | succ n => rwa [batches_flatten _ _ (Nat.succ_pos n), batches_flatten _ _ (Nat.succ_pos n)]

namespace PoolRun

variable [Screen] (run : PoolRun) (d : Definition) (log : Option RunLog) {written : List WordResult} {done : List Text}

def through (number : Nat) (completed : Json) : List (List Text) → Job (List WordResult × Json)
  | [] => return ([], completed)
  | batch :: later => do
      let (results, completed) ← run.runBatch d log number completed batch
      let (others, completed) ← through (number + 1) completed later
      return (results ++ others, completed)

theorem run_batches_append (number : Nat) (completed : Json) (batches later : List (List Text)) :
    run.runBatches d log number completed (batches ++ later) = (do
      let (first, completed) ← run.through d log number completed batches
      return first ++ (← run.runBatches d log (number + batches.length) completed later)) := by
  induction batches generalizing number completed with
  | nil => simp [through]
  | cons batch rest ih =>
      have shifted : number + (batch :: rest).length = number + 1 + rest.length := by rw [List.length_cons]; omega
      simp only [List.cons_append, run_batches_cons, ih, through, bind_assoc, pure_bind, List.append_assoc, shifted]

theorem run_batches_through (number : Nat) (completed : Json) (batches : List (List Text)) :
    run.runBatches d log number completed batches = Prod.fst <$> run.through d log number completed batches := by
  have whole := run.run_batches_append d log number completed batches []
  rw [List.append_nil] at whole
  simp only [whole, runBatches, pure_bind, List.append_nil, map_eq_pure_bind]

variable [Arrays]

theorem simulate_passes_stop (count : Nat) :
    run.stopAfter log count = (do
      let start ← run.begin
      let _ ← run.through start.definition log 1 start.completed (start.due.take count)) ∧
    run.simulate log = (do
      let start ← run.begin
      let (first, completed) ← run.through start.definition log 1 start.completed (start.due.take count)
      let rest ← run.runBatches start.definition log (1 + (start.due.take count).length) completed (start.due.drop count)
      run.conclude (first ++ rest)) := by
  constructor
  · simp only [stopAfter, run_batches_through, map_eq_pure_bind, bind_assoc, pure_bind]
  · rw [simulate]
    refine congrArg _ (funext fun start => ?_)
    have cut := run.run_batches_append start.definition log 1 start.completed (start.due.take count)
      (start.due.drop count)
    rw [List.take_append_drop] at cut
    simp only [cut, bind_assoc, pure_bind]

def onPool (pool : Text) : PoolRun := { run with poolFile := .text pool }

/-- The ways to do a first part of a call: to stop it behind some of its batches, or to make it for
a pool of the same name that has only the first of the words. -/
inductive FirstPart (s : Session) : Job Unit → Prop where
  | stopped (count : Nat) : FirstPart s (run.stopAfter log count)
  | shorter (pool : Text) (name : (run.onPool pool).folder = run.folder) (fewer start : Start) (t t' : Session)
      (begun : (run.onPool pool).begin.runIn s = (.ok fewer, t)) (whole : run.begin.runIn s = (.ok start, t'))
      (first : fewer.words <+: start.words) : FirstPart s (do let _ ← (run.onPool pool).simulate log)

section Lawful

variable (lawful : Screen.Lawful)

/-- The files that a run writes or reads. -/
def Uses (place : Place) : Prop := run.Own place ∨ run.Reads place

instance : DecidablePred run.Uses := fun place => inferInstanceAs (Decidable (run.Own place ∨ run.Reads place))

omit [Arrays] in
theorem own_unread (s t : Session) (start : Start) (fresh : ∀ place, run.Own place → s.store.content? place = none)
    (begun : run.begin.runIn s = (.ok start, t)) : ¬ run.Reads run.resultsPlace ∧ ¬ run.Reads run.checkpointPlace := by
  have present := (run.begin_leaves s t start begun).present
  exact ⟨fun read => present _ read (fresh _ (.inl rfl)), fun read => present _ read (fresh _ (.inr rfl))⟩

structure Partway (s t : Session) (first : List WordResult) (behind : Session) : Prop where
  held : run.Holds first (inputs first) behind
  quiet : t.Quiet (fun _ => False) behind
  day : behind.today = t.today
  unread : ∀ place, run.Reads place → behind.store.content? place = s.store.content? place

include lawful in
omit [Arrays] in
theorem stopped_partway (s t : Session) (start : Start) (fresh : ∀ place, run.Own place → s.store.content? place = none)
    (begun : run.begin.runIn s = (.ok start, t)) (serves : ∀ l ∈ log, l.Serves run.Uses t)
    (workers : Quantity.checkWorkers run.workers = .ok ()) (count : Nat) (first : List WordResult)
    (heard : (start.due.take count).flatten.mapM (run.heard start.definition) = .ok first)
    (all : allTold first = true) :
    ∃ behind, (run.stopAfter log count).runIn s = (.ok (), behind) ∧ run.Partway s t first behind := by
  have held := run.fresh_holds s fresh
  have started := run.begin_started s t start held begun
  have holds := run.begin_holds s held
  rw [begun] at holds
  have able : run.Able log t := ⟨started.files, fun l mem => l.serves_fewer _ _ (fun _ => .inl) t (serves l mem)⟩
  have scalar : ∀ batch ∈ start.due.take count, ∀ word ∈ batch, word.Scalar := fun batch mem =>
    run.started_scalar start t started batch (List.mem_of_mem_take mem)
  have complete := run.run_batches_complete start.definition log lawful started.clean workers 1
    (start.due.take count) scalar t able
    holds first heard
  have quiet := run.run_batches_stay start.definition log 1 start.completed (start.due.take count) t
  obtain ⟨unread, unread'⟩ := run.own_unread s t start fresh begun
  -- What the next call reads must be what this one read, so nothing may be written over it meanwhile.
  have avoids : ∀ l ∈ log, (l.on t.today).Avoids run.Reads := fun l mem =>
    (l.serves_fewer _ run.Reads (fun _ => .inr) t (serves l mem)).avoids
  have steady := run.run_batches_steady_on start.definition run.Reads t.today log avoids 1 start.completed
    (start.due.take count)
    unread unread' t rfl
  have first_steady := run.begin_steady run.Reads unread s
  rw [begun] at first_steady
  rw [← started.completed] at complete
  cases ran : (run.runBatches start.definition log 1 start.completed (start.due.take count)).runIn t with
  | mk outcome behind =>
      rw [ran] at complete quiet steady
      obtain ⟨ended, ⟨named, kept, names⟩, _⟩ := complete
      rw [if_pos all] at ended
      cases ended
      rw [told_all first all, names all] at kept
      refine ⟨behind, ?_, kept, quiet, steady.2, fun place read => ?_⟩
      · rw [stopAfter, Job.run_bind, begun]
        dsimp only
        rw [Job.run_bind, ran]
        rfl
      · exact (steady.1.files place read).trans (first_steady.files place read)

theorem concluded_on_pool (pool : Text) (name : (run.onPool pool).folder = run.folder) :
    (run.onPool pool).concluded = run.concluded := by
  have file : (run.onPool pool).resultsFile = run.resultsFile := by
    rw [resultsFile, name]
    rfl
  funext results
  simp only [concluded, success, file]

omit [Arrays] in
theorem pool_begins (pool : Text) (name : (run.onPool pool).folder = run.folder) (s t t' : Session)
    (fewer start : Start)
    (begun : (run.onPool pool).begin.runIn s = (.ok fewer, t)) (whole : run.begin.runIn s = (.ok start, t')) :
    (run.onPool pool).Shares run ∧ fewer.definition = start.definition ∧ t.store = t'.store := by
  have file : (run.onPool pool).resultsFile = run.resultsFile := by
    rw [resultsFile, name]
    rfl
  obtain ⟨m, steps⟩ := (run.onPool pool).begin_ok s t fewer begun
  obtain ⟨m', steps'⟩ := run.begin_ok s t' start whole
  obtain ⟨path, given, defined⟩ := steps.defined
  obtain ⟨path', given', defined'⟩ := steps'.defined
  obtain rfl : path = path' := Json.text.inj (given.symm.trans given')
  have made := steps.made
  rw [name, steps'.made] at made
  obtain rfl := (Prod.mk.inj made).2
  have opened := steps.opened
  rw [file, steps'.opened] at opened
  refine ⟨?_, Except.ok.inj (Prod.mk.inj (defined.symm.trans defined')).1, (Except.ok.inj opened).symm⟩
  rw [Shares, resultsPlace, resultsPlace, file]

include lawful in
theorem shorter_partway (s t t' : Session) (start fewer : Start)
    (fresh : ∀ place, run.Own place → s.store.content? place = none)
    (begun : run.begin.runIn s = (.ok start, t)) (serves : ∀ l ∈ log, l.Serves run.Uses t)
    (workers : Quantity.checkWorkers run.workers = .ok ()) (pool : Text) (name : (run.onPool pool).folder = run.folder)
    (begun' : (run.onPool pool).begin.runIn s = (.ok fewer, t')) (first : List WordResult)
    (heard : fewer.due.flatten.mapM (run.heard start.definition) = .ok first)
    (all : allTold first = true) (summary : Summary)
    (concluded : run.concluded first = .ok summary) :
    ∃ behind, ((run.onPool pool).simulate log).runIn s = (.ok summary, behind) ∧ run.Partway s t first behind := by
  obtain ⟨shares, same, store⟩ := run.pool_begins pool name s t' t fewer start begun' begun
  have held := (holds_shared shares s).mpr (run.fresh_holds s fresh)
  have day : t.today = s.today := Job.day_stays _ run.begin_unasked s t _ begun
  have day' : t'.today = s.today := Job.day_stays _ (run.onPool pool).begin_unasked s t' _ begun'
  have serving : ∀ l ∈ log, l.Serves (run.onPool pool).Own t' := by
    intro l mem
    rw [own_shared shares]
    exact l.serves_stays _ t t' _ (Session.quiet_same_store (fun _ => False) t t' store) (day'.trans day.symm)
      (l.serves_fewer _ _ (fun _ => .inl) t (serves l mem))
  rw [← same] at heard
  obtain ⟨_, _, finishes⟩ :=
    (run.onPool pool).begun_finishes log lawful workers s t' fewer begun' held serving first heard
  have outcome := finishes.outcome
  rw [if_pos all, run.concluded_on_pool pool name, concluded] at outcome
  obtain ⟨named, kept, names⟩ := finishes.holds
  rw [told_all first all, names all] at kept
  obtain ⟨unread, unread'⟩ := run.own_unread s t start fresh begun
  have avoids : ∀ l ∈ log, (l.on s.today).Avoids run.Reads := by
    intro l mem
    have reads := (l.serves_fewer _ run.Reads (fun _ => .inr) t (serves l mem)).avoids
    rwa [day] at reads
  rw [← shares] at unread
  rw [← (same_files _ run).mp shares] at unread'
  have steady := (run.onPool pool).simulate_steady_on run.Reads log s avoids unread unread'
  refine ⟨_, Prod.ext outcome rfl, (holds_shared shares _).mp kept, ?_, ?_, steady.files⟩
  · exact Session.quiet_trans _ t t' _ (Session.quiet_same_store _ t t' store) finishes.quiet
  · exact ((run.onPool pool).simulate_unasked log s).day.trans day.symm

omit [Screen] [Arrays] in
theorem due_prefix (pool : Text) (start fewer : Start)
    (cut : run.batchesOf (start.words.filter fun word => !([] : List Text).contains word) = .ok start.due)
    (cut' : (run.onPool pool).batchesOf
      (fewer.words.filter fun word => !([] : List Text).contains word) = .ok fewer.due)
    (first : fewer.words <+: start.words) : fewer.due.flatten <+: start.due.flatten := by
  change run.batchesOf _ = _ at cut'
  obtain ⟨size, stride, whole⟩ := (bind_ok _ _ _).mp cut
  rw [batchesOf, stride] at cut'
  rw [← Except.ok.inj cut', ← Except.ok.inj whole]
  exact batches_prefix size _ _ (first.filter _)

variable (arrays : Arrays.Lawful)

include lawful arrays

theorem part_concluded (results part : List WordResult) (within : part ⊆ results) (summary : Summary)
    (concluded : run.concluded results = .ok summary) (all : allTold results = true) :
    allTold part = true ∧ run.concluded part = .ok (Summary.ofResults part) := by
  obtain ⟨_, sized, taken⟩ := (run.concluded_ok arrays results summary).mp concluded
  refine ⟨?_, (run.concluded_ok arrays part _).mpr ⟨rfl, fun entry mem => ?_, run.success_counted lawful _ _ taken⟩⟩
  · rw [allTold, List.all_eq_true] at all ⊢
    exact fun result mem => all result (within mem)
  · have listed := within ((mem_decided _ entry).mp mem)
    exact sized entry ((mem_decided results entry).mpr listed)

theorem first_part_ends (s t : Session) (start : Start) (fresh : ∀ place, run.Own place → s.store.content? place = none)
    (begun : run.begin.runIn s = (.ok start, t)) (serves : ∀ l ∈ log, l.Serves run.Uses t)
    (workers : Quantity.checkWorkers run.workers = .ok ()) (results : List WordResult)
    (heard : start.due.flatten.mapM (run.heard start.definition) = .ok results)
    (all : allTold results = true) (summary : Summary)
    (concluded : run.concluded results = .ok summary) (part : Job Unit) (does : run.FirstPart log s part) :
    ∃ first second behind, results = first ++ second ∧ part.runIn s = (.ok (), behind) ∧
      run.Partway s t first behind := by
  have split (early late : List Text) (whole : start.due.flatten = early ++ late) :
    ∃ first second, results = first ++ second ∧
      early.mapM (run.heard start.definition) = .ok first ∧ allTold first = true ∧
      run.concluded first = .ok (Summary.ofResults first) := by
    rw [whole, List.mapM_append] at heard
    obtain ⟨first, told, heard⟩ := (bind_ok _ _ _).mp heard
    obtain ⟨second, _, heard⟩ := (bind_ok _ _ _).mp heard
    obtain rfl := Except.ok.inj heard
    have part := run.part_concluded lawful arrays _ first (List.subset_append_left first second) summary concluded all
    exact ⟨first, second, rfl, told, part.1, part.2⟩
  cases does with
  | stopped count =>
      have whole : start.due.flatten = (start.due.take count).flatten ++ (start.due.drop count).flatten := by
        rw [← List.flatten_append, List.take_append_drop]
      obtain ⟨first, second, cut, told, all_first, _⟩ := split _ _ whole
      obtain ⟨behind, ran, partway⟩ :=
        run.stopped_partway log lawful s t start fresh begun serves workers count first told all_first
      exact ⟨first, second, behind, cut, ran, partway⟩
  | shorter pool name fewer start' t' u begun' whole first_words =>
      obtain ⟨same, rfl⟩ := Prod.mk.inj (begun.symm.trans whole)
      obtain rfl := Except.ok.inj same
      have held := run.fresh_holds s fresh
      obtain ⟨shares, _⟩ := run.pool_begins pool name s t' t fewer start begun' begun
      have started := run.begin_started s t start held begun
      have started' := (run.onPool pool).begin_started s t' fewer ((holds_shared shares s).mpr held) begun'
      obtain ⟨late, within⟩ := run.due_prefix pool start fewer started.due started'.due first_words
      obtain ⟨first, second, cut, told, all_first, sum⟩ := split _ _ within.symm
      obtain ⟨behind, ran, partway⟩ :=
        run.shorter_partway log lawful s t t' start fewer fresh begun serves workers pool name begun' first told
        all_first _ sum
      refine ⟨first, second, behind, cut, ?_, partway⟩
      rw [Job.run_bind, ran]
      rfl

omit lawful arrays in
theorem ended_heard (s straight : Session) (summary : Summary) (held : run.Holds written done s)
    (ended : (run.simulate log).runIn s = (.ok summary, straight)) :
    ∃ start t results, run.begin.runIn s = (.ok start, t) ∧ run.Started start done t ∧
      start.due.flatten.mapM (run.heard start.definition) = .ok results := by
  obtain ⟨start, t, begun, ended⟩ := (Job.bind_run_ok _ _ _ _ _).mp ended
  obtain ⟨results, u, batched, _⟩ := (Job.bind_run_ok _ _ _ _ _).mp ended
  exact ⟨start, t, results, begun, run.begin_started s t start held begun,
    run.run_batches_heard start.definition log 1 start.completed start.due t u results batched⟩

omit [Screen] [Arrays] lawful arrays in
theorem due_filter (start : Start) (due : List (List Text)) (p : Text → Bool)
    (cut : run.batchesOf start.words = .ok start.due)
    (cut' : run.batchesOf (start.words.filter p) = .ok due) : due.flatten = start.due.flatten.filter p := by
  obtain ⟨size, stride, whole⟩ := (bind_ok _ _ _).mp cut
  rw [batchesOf, stride] at cut'
  rw [← Except.ok.inj cut', ← Except.ok.inj whole]
  exact batches_filter size p start.words

omit arrays in
theorem resumed_finishes (s t behind : Session) (start : Start) (begun : run.begin.runIn s = (.ok start, t))
    (started : run.Started start [] t) (serves : ∀ l ∈ log, l.Serves run.Own t)
    (workers : Quantity.checkWorkers run.workers = .ok ())
    (results first : List WordResult) (heard : start.due.flatten.mapM (run.heard start.definition) = .ok results)
    (partway : run.Partway s t first behind) :
    ∃ v due, run.Finishes first (inputs first) v due (results.filter (open? first))
    ((run.simulate log).runIn behind) := by
  obtain ⟨held, quiet, day, unread⟩ := partway
  have files := run.reachable_stays _ t behind started.files quiet
  obtain ⟨due, v, again, cut, quiet', day'⟩ :=
    run.begin_again lawful s t behind start begun (Store.same_folders_keeps _ _ quiet.folders) unread
    files held
  have serving : ∀ l ∈ log, l.Serves run.Own v := fun l mem =>
    l.serves_stays _ behind v _ quiet' day' (l.serves_stays _ t behind _ quiet day (serves l mem))
  have scalar : ∀ word ∈ start.due.flatten, word.Scalar := by
    intro word mem
    obtain ⟨batch, listed, inside⟩ := List.mem_flatten.mp mem
    exact run.started_scalar start t started batch listed word inside
  have whole : run.batchesOf start.words = .ok start.due := by
    have whole := started.due
    rwa [List.filter_eq_self.mpr (by simp)] at whole
  have rest := run.heard_filter start.definition started.clean
    (fun word => !(inputs first).contains word) _ scalar results heard
  rw [← run.due_filter start due _ whole cut] at rest
  exact ⟨v, due, (run.begun_finishes log lawful workers behind v _ again held serving _ rest).2.2⟩

end Lawful

end PoolRun

/-- A call of which a first part was done and that is then made leaves the results that did not fail
of the call that is made at once, in their order, but for those behind the first part whose words
had one in it. -/
theorem resumed_call_completes_results [Screen] [Arrays] (lawful : Screen.Lawful) (arrays : Arrays.Lawful)
    (run : PoolRun) (s : Session) (fresh : ∀ place, run.Own place → s.store.content? place = none)
    (log : Option RunLog) (serves : ∀ l ∈ log, l.Serves run.Uses (run.begin.runIn s).2)
    (workers : Quantity.checkWorkers run.workers = .ok ()) (summary : Summary) (straight : Session)
    (ended : (run.simulate log).runIn s = (.ok summary, straight)) (part : Job Unit) (does : run.FirstPart log s part) :
    ∃ behind summary' resumed whole early joined back, part.runIn s = (.ok (), behind) ∧
      (run.simulate log).runIn behind = (.ok summary', resumed) ∧
      (Job.readLines run.resultsFile.toText).runIn straight = (.ok whole, straight) ∧
      (Job.readLines run.resultsFile.toText).runIn behind = (.ok early, behind) ∧
      (Job.readLines run.resultsFile.toText).runIn resumed = (.ok joined, resumed) ∧
      finishedLines whole = finishedLines early ++ back ∧
      (finishedLines joined = finishedLines early ++ back.filter fun line =>
        (finishedInput? line).all fun input => !(finishedInputs early).contains input) ∧
      ((finishedInputs whole).Nodup → finishedLines joined = finishedLines whole) := by
  have held := run.fresh_holds s fresh
  obtain ⟨start, t, results, begun, started, heard⟩ := run.ended_heard log s straight summary held ended
  rw [begun] at serves
  have serving : ∀ l ∈ log, l.Serves run.Own t := fun l mem => l.serves_fewer _ _ (fun _ => .inl) t (serves l mem)
  -- The call that is made at once.
  have finishes := (run.begun_finishes log lawful workers s t start begun held serving results heard).2.2
  rw [ended] at finishes
  obtain ⟨all, concluded, _⟩ := run.finishes_summary arrays t _ results _ finishes summary rfl
  -- The first part has the first of its results, and the next call adds what is open of them.
  obtain ⟨first, second, behind, rfl, ran, partway⟩ :=
    run.first_part_ends log lawful arrays s t start fresh begun serves workers results
      heard all summary concluded part does
  obtain ⟨v, due, resumes⟩ :=
    run.resumed_finishes log lawful s t behind start begun started serving workers _ first heard partway
  obtain ⟨told_rest, concluded_rest⟩ :=
    run.part_concluded lawful arrays _ ((first ++ second).filter (PoolRun.open? first))
    (fun _ mem => List.mem_of_mem_filter mem) summary concluded all
  have ended' := resumes.outcome
  rw [told_rest, if_pos rfl, concluded_rest] at ended'
  have read := (run.finishes_reads t _ _ _ finishes).1
  have read_early :=
    (run.reachable_reads behind (run.reachable_stays _ t behind started.files partway.quiet) partway.held).1
  have read_rest := (run.finishes_reads v _ _ _ resumes).1
  rw [told_all _ all, List.nil_append] at read
  rw [told_all _ told_rest] at read_rest
  have kept : ∀ result ∈ first ++ second, result.Kept := by
    obtain ⟨_, ledger, _⟩ := finishes.holds
    rw [told_all _ all, List.nil_append] at ledger
    exact ledger.kept
  refine ⟨behind, _, _, _, _, _, finishedLines (lines second), ran, Prod.ext ended' rfl, read, read_early, read_rest,
    finished_lines_append first second, PoolRun.resumed_lines first second kept,
    fun once => PoolRun.resumed_lines_same first second kept ?_⟩
  have named := finished_inputs_lines _ kept
  rwa [← named]

section Files

open scoped StandIn

def repeatedWord : Session where
  store := {
    files := [(["p.txt"], (Utf8.encode "1\n2\n1\n11\n").getD []), (["a", "p.txt"], (Utf8.encode "1\n2\n").getD []),
      (["yes.tm"], (Utf8.encode "%charset 1 _\n%blank _\n> 0\n1 A\n0 1 -> 1 r 1\n").getD [])]
    folders := [["a"], ["logs"]] }
  today := "2024-05-01"

def pairedRun : PoolRun where
  definitionPath := .text "yes.tm"
  poolFile := .text "p.txt"
  batchSize := .int 2

theorem repeated_word_fresh (place : Place) (own : pairedRun.Own place) : repeatedWord.store.content? place = none := by
  rcases own with rfl | rfl <;> decide +kernel

theorem smaller_pool_first : pairedRun.FirstPart (some ⟨"logs", "turing_", "2024-05-01"⟩) repeatedWord
    (do let _ ← (pairedRun.onPool "a/p.txt").simulate (some ⟨"logs", "turing_", "2024-05-01"⟩)) := by
  have begins : (do
      let fewer ← ((pairedRun.onPool "a/p.txt").begin.runIn repeatedWord).1.toOption
      let start ← (pairedRun.begin.runIn repeatedWord).1.toOption
      return decide (fewer.words <+: start.words)) = some true := by decide +kernel
  simp only [Option.bind_eq_bind, Option.bind_eq_some_iff, Option.pure_def, Option.some.injEq,
    decide_eq_true_eq] at begins
  obtain ⟨fewer, begun, start, whole, first⟩ := begins
  exact .shorter "a/p.txt" (by decide +kernel) fewer start _ _ (Job.run_result _ fewer begun)
    (Job.run_result _ start whole) first

theorem repeated_word_is_left_out :
    let log : RunLog := ⟨"logs", "turing_", "2024-05-01"⟩
    ∀ part ∈ [pairedRun.stopAfter (some log) 1, do let _ ← (pairedRun.onPool "a/p.txt").simulate (some log)],
    ∃ summary straight behind summary' resumed whole early joined back,
      (pairedRun.simulate (some log)).runIn repeatedWord = (.ok summary, straight) ∧
      part.runIn repeatedWord = (.ok (), behind) ∧
      (pairedRun.simulate (some log)).runIn behind = (.ok summary', resumed) ∧
      (Job.readLines pairedRun.resultsFile.toText).runIn straight = (.ok whole, straight) ∧
      (Job.readLines pairedRun.resultsFile.toText).runIn behind = (.ok early, behind) ∧
      (Job.readLines pairedRun.resultsFile.toText).runIn resumed = (.ok joined, resumed) ∧
      finishedLines whole = finishedLines early ++ back ∧
      finishedLines joined = finishedLines early ++ back.filter fun line =>
        (finishedInput? line).all fun input => !(finishedInputs early).contains input := by
  intro log part listed
  have does : pairedRun.FirstPart (some log) repeatedWord part := by
    rcases List.mem_pair.mp listed with rfl | rfl
    · exact .stopped 1
    · exact smaller_pool_first
  have ends : (((pairedRun.simulate (some log)).runIn repeatedWord).1.toOption).isSome = true := by decide +kernel
  obtain ⟨summary, ended⟩ := Option.isSome_iff_exists.mp ends
  have ran := Job.run_result _ summary ended
  obtain ⟨behind, summary', resumed, whole, early, joined, back, stop, resume, read, read_early, read_rest, split,
    rest, _⟩ :=
    resumed_call_completes_results StandIn.screen_lawful StandIn.arrays_lawful
      pairedRun repeatedWord repeated_word_fresh (some log)
      (by rintro l ⟨⟩; decide +kernel) rfl summary _ ran part does
  exact ⟨summary, _, behind, summary', resumed, whole, early, joined, back, ran, stop, resume, read,
    read_early, read_rest, split,
    rest⟩

theorem repeated_word_is_not_resumed :
    (∀ place, pairedRun.Own place → repeatedWord.store.content? place = none) ∧
    ∀ part ∈ [pairedRun.stopAfter none 1, do let _ ← (pairedRun.onPool "a/p.txt").simulate none],
    ∃ summary straight behind summary' resumed whole joined,
      (pairedRun.simulate none).runIn repeatedWord = (.ok summary, straight) ∧
      part.runIn repeatedWord = (.ok (), behind) ∧
      (pairedRun.simulate none).runIn behind = (.ok summary', resumed) ∧
      (Job.readLines pairedRun.resultsFile.toText).runIn straight = (.ok whole, straight) ∧
      (Job.readLines pairedRun.resultsFile.toText).runIn resumed = (.ok joined, resumed) ∧
      finishedInputs whole = [("1" : Text), ("1" : Text), ("11" : Text)] ∧ finishedInputs joined =
        [("1" : Text), ("11" : Text)] ∧
      finishedLines joined ≠ finishedLines whole := by
  refine ⟨repeated_word_fresh, fun part listed => ?_⟩
  let straight := ((pairedRun.simulate none).runIn repeatedWord).2
  let behind := (part.runIn repeatedWord).2
  let resumed := ((pairedRun.simulate none).runIn behind).2
  have ends : (do
      let summary ← ((pairedRun.simulate none).runIn repeatedWord).1.toOption
      let stop ← (part.runIn repeatedWord).1.toOption
      let summary' ← ((pairedRun.simulate none).runIn behind).1.toOption
      let whole ← ((Job.readLines pairedRun.resultsFile.toText).runIn straight).1.toOption
      let joined ← ((Job.readLines pairedRun.resultsFile.toText).runIn resumed).1.toOption
      return (finishedInputs whole, finishedInputs joined, decide (finishedLines joined ≠ finishedLines whole))) =
      some ([("1" : Text), ("1" : Text), ("11" : Text)], [("1" : Text), ("11" : Text)], true) := by
    rcases List.mem_pair.mp listed with rfl | rfl <;> decide +kernel
  simp only [Option.bind_eq_bind, Option.bind_eq_some_iff, Option.pure_def, Option.some.injEq,
    Prod.mk.injEq, decide_eq_true_eq] at ends
  obtain ⟨summary, ended, stop, stops, summary', ended', whole, read, joined, read', first, second, differ⟩ := ends
  have still (s : Session) : ((Job.readLines pairedRun.resultsFile.toText).runIn s).2 = s :=
    (Job.read_lines_same _ s).symm
  have reads (s : Session) (lines : List Text)
    (found : ((Job.readLines pairedRun.resultsFile.toText).runIn s).1.toOption = some lines) :
      (Job.readLines pairedRun.resultsFile.toText).runIn s = (.ok lines, s) := by
    have ran := Job.run_result _ lines found
    rwa [still] at ran
  exact ⟨summary, straight, behind, summary', resumed, whole, joined, Job.run_result _ summary ended,
    Job.run_result _ stop stops,
    Job.run_result _ summary' ended', reads straight whole read, reads resumed joined read', first, second, differ⟩

end Files

end TapeMachine
