import TapeMachine.Proofs.PoolHistory

set_option autoImplicit false

namespace TapeMachine

def Told (lines : List Text) (entry : Json) : Prop := ∃ line ∈ lines, Json.read line = .ok entry

section Histories

variable [Screen]

/-- The definition of a call, if its run is made. -/
def PoolRun.given (run : PoolRun) (s : Session) : List (PoolRun × Definition) :=
  match (run.begin.runIn s).1 with
  | .ok start => [(run, start.definition)]
  | .error _ => []

variable [Arrays]

/-- Calls one after another, some of them on the files of one run, which were not there at first;
only runs change these. -/
inductive Calls (kin : PoolRun) : List (PoolRun × Definition) → Session → Prop where
  | fresh (s : Session) (absent : ∀ place, kin.Own place → s.store.content? place = none) : Calls kin [] s
  | outside (calls : List (PoolRun × Definition)) (s s' : Session) (before : Calls kin calls s)
      (alone : ∀ place, kin.Own place → s'.store.content? place = s.store.content? place) : Calls kin calls s'
  | called (calls : List (PoolRun × Definition)) (s : Session) (before : Calls kin calls s) (run : PoolRun)
      (log : Option RunLog)
      (spares : ∀ l ∈ log, l.Spares kin.Own) : Calls kin (calls ++ run.given s) ((run.simulate log).runIn s).2

variable {kin : PoolRun} {calls : List (PoolRun × Definition)} {written : List WordResult} {done : List Text}

namespace PoolRun

variable (run : PoolRun) (log : Option RunLog)

theorem simulate_cases (s : Session) :
    (∃ fault t, run.begin.runIn s = (.error fault, t) ∧ (run.simulate log).runIn s = (.error fault, t)) ∨
    ∃ start t outcome u, run.begin.runIn s = (.ok start, t) ∧
      (run.runBatches start.definition log 1 start.completed start.due).runIn t = (outcome, u) ∧
      ((run.simulate log).runIn s).2.store = u.store ∧
      ∀ summary, ((run.simulate log).runIn s).1 = .ok summary → ∃ results, outcome = .ok results := by
  rw [simulate, Job.run_bind]
  cases begun : run.begin.runIn s with
  | mk opening t =>
      cases opening with
      | error fault => exact .inl ⟨fault, t, rfl, rfl⟩
      | ok start =>
          right
          simp only [Job.run_bind]
          cases ran : (run.runBatches start.definition log 1 start.completed start.due).runIn t with
          | mk outcome u =>
              refine ⟨start, t, outcome, u, rfl, ran, ?_⟩
              cases outcome with
              | error fault => exact ⟨rfl, fun _ absurdly => by cases absurdly⟩
              | ok results => exact ⟨(run.run_conclude results u).2, fun _ _ => ⟨results, rfl⟩⟩

theorem simulate_reaches_on (s : Session) (avoids : ∀ l ∈ log, (l.on s.today).Avoids run.Own)
    (ledger : run.Holds written done s) :
    (run.given s = [] ∧ (∃ fault, ((run.simulate log).runIn s).1 = .error fault) ∧ run.Holds written done
      ((run.simulate log).runIn s).2) ∨
    ∃ start t, run.begin.runIn s = (.ok start, t) ∧ run.Started start done t ∧ ∃ outcome whole rest,
      run.Reaches start.definition written done start.due.flatten whole rest outcome ((run.simulate log).runIn s).2 ∧
      t.Quiet (fun _ => False) ((run.simulate log).runIn s).2 ∧
      ∀ summary, ((run.simulate log).runIn s).1 = .ok summary → ∃ results, outcome = .ok results := by
  have opened := run.begin_holds s ledger
  rcases run.simulate_cases log s with ⟨fault, t, begun, ran⟩ | ⟨start, t, outcome, u, begun, ran, same, ended⟩
  · left
    rw [begun] at opened
    rw [given, begun, ran]
    exact ⟨rfl, ⟨fault, rfl⟩, opened⟩
  · right
    rw [begun] at opened
    have started := run.begin_started s t start ledger begun
    have day : t.today = s.today := Job.day_stays _ run.begin_unasked s t _ begun
    have quiet := run.run_batches_stay start.definition log 1 start.completed start.due t
    rw [ran] at quiet
    rw [started.completed] at ran
    obtain ⟨whole, rest, reached⟩ := run.run_batches_reaches start.definition log started.clean 1 start.due
      (run.started_scalar start t started) t (by rwa [day]) opened outcome u ran
    refine ⟨start, t, begun, started, outcome, whole, rest, ⟨?_, reached.reported, reached.ended⟩, ?_, ended⟩
    · have held := reached.holds
      rwa [Holds, ← same] at held
    · exact Session.quiet_trans _ t u _ quiet (Session.quiet_same_store _ u _ same)

theorem simulate_reaches (spares : ∀ l ∈ log, l.Spares run.Own) (s : Session) (ledger : run.Holds written done s) :
    (run.given s = [] ∧ (∃ fault, ((run.simulate log).runIn s).1 = .error fault) ∧ run.Holds written done
      ((run.simulate log).runIn s).2) ∨
    ∃ start t, run.begin.runIn s = (.ok start, t) ∧ run.Started start done t ∧ ∃ outcome whole rest,
      run.Reaches start.definition written done start.due.flatten whole rest outcome ((run.simulate log).runIn s).2 ∧
      t.Quiet (fun _ => False) ((run.simulate log).runIn s).2 ∧
      ∀ summary, ((run.simulate log).runIn s).1 = .ok summary → ∃ results, outcome = .ok results :=
  run.simulate_reaches_on log s (fun l mem => l.spares_avoids _ (spares l mem) s.today) ledger

end PoolRun

/-- The files of a run after some calls: every word that the checkpoint names has its entry from one of the calls. -/
structure Accounts (kin : PoolRun) (calls : List (PoolRun × Definition)) (written : List WordResult)
    (done : List Text) (s : Session) :
    Prop where
  holds : kin.Holds written done s
  source : ∀ word ∈ done, ∃ call ∈ calls, call.1.Shares kin ∧
    ∃ entry, call.2.runInput word call.1.maxSteps call.1.permissive = .ok entry ∧ .decided entry ∈ written

omit [Screen] [Arrays] in
theorem reached_source (run : PoolRun) (d : Definition) (clean : d.Clean) (words : List Text)
    (scalar : ∀ word ∈ words, word.Scalar)
    (whole rest : List WordResult) (outcome : Except Fault (List WordResult)) (s : Session)
    (reached : run.Reaches d written done words whole rest outcome s) (word : Text)
    (named : word ∈ PoolRun.inputs whole) :
    ∃ entry, d.runInput word run.maxSteps run.permissive = .ok entry ∧ .decided entry ∈ whole := by
  obtain ⟨entry, mem, rfl⟩ := (PoolRun.mem_inputs whole word).mp named
  obtain ⟨word, given, reported⟩ := reached.reported _ (List.mem_append_left rest mem)
  have same : entry.input = word := (report_scalar run d clean word _ reported (scalar word given)).2
  exact ⟨entry, by rw [same]; exact report_entry run d word entry reported, mem⟩

theorem account_called (calls : List (PoolRun × Definition)) (s : Session)
    (account : Accounts kin calls written done s) (run : PoolRun)
    (log : Option RunLog) (spares : ∀ l ∈ log, l.Spares kin.Own) (shares : run.Shares kin) :
    ∃ written done, Accounts kin (calls ++ run.given s) written done ((run.simulate log).runIn s).2 := by
  have ledger := (PoolRun.holds_shared shares s).mpr account.holds
  rcases run.simulate_reaches log (PoolRun.own_shared shares ▸ spares) s ledger with
    ⟨nothing, _, held⟩ | ⟨start, t, begun, started, outcome, whole, rest, reached, _⟩
  · refine ⟨written, done, (PoolRun.holds_shared shares _).mp held, ?_⟩
    rw [nothing, List.append_nil]
    exact account.source
  · have given : run.given s = [(run, start.definition)] := by rw [PoolRun.given, begun]
    have scalar : ∀ word ∈ start.due.flatten, word.Scalar := by
      intro word mem
      obtain ⟨batch, cut, inside⟩ := List.mem_flatten.mp mem
      exact run.started_scalar start t started batch cut word inside
    refine ⟨_, _, (PoolRun.holds_shared shares _).mp reached.holds, ?_⟩
    rw [given]
    intro word mem
    rcases List.mem_append.mp mem with old | fresh
    · obtain ⟨call, listed, shared, entry, ran, kept⟩ := account.source word old
      exact ⟨call, List.mem_append_left _ listed, shared, entry, ran,
        List.mem_append_left rest (List.mem_append_left whole kept)⟩
    · obtain ⟨entry, ran, kept⟩ :=
        reached_source run start.definition started.clean _ scalar whole rest outcome _ reached word fresh
      exact ⟨(run, start.definition),
        by simp, shares, entry, ran, List.mem_append_left rest (List.mem_append_right written kept)⟩

theorem calls_account (s : Session) (history : Calls kin calls s) :
    ∃ written done, Accounts kin calls written done s := by
  induction history with
  | fresh s absent => exact ⟨[], [], kin.fresh_holds s absent, by simp⟩
  | outside calls s s' before alone ih =>
      obtain ⟨written, done, account⟩ := ih
      exact ⟨written, done, account.holds.unchanged (alone _ (.inl rfl)) (alone _ (.inr rfl)), account.source⟩
  | called calls s before run log spares ih =>
      obtain ⟨written, done, account⟩ := ih
      by_cases shares : run.Shares kin
      · exact account_called calls s account run log spares shares
      · obtain ⟨results, checkpoint⟩ := PoolRun.unshared_apart shares
        have steady := run.simulate_steady kin.Own log spares results checkpoint s
        refine ⟨written, done, account.holds.unchanged (steady.files _ (.inl rfl)) (steady.files _ (.inr rfl)), ?_⟩
        intro word mem
        obtain ⟨call, listed, found⟩ := account.source word mem
        exact ⟨call, List.mem_append_left _ listed, found⟩

omit [Screen] [Arrays] in
theorem stride_whole (n : Int) (positive : 1 ≤ n) : ∃ size, Quantity.stride (.int n) = .ok size ∧ 0 < size := by
  have nonzero : n ≠ 0 := by omega
  exact ⟨n.toNat, by simp [Quantity.stride, Quantity.whole, nonzero], by omega⟩

omit [Screen] [Arrays] in
theorem due_flatten (run : PoolRun) (n : Int) (size : run.batchSize = .int n) (positive : 1 ≤ n) (pending : List Text)
    (due : List (List Text)) (cut : run.batchesOf pending = .ok due) : due.flatten = pending := by
  obtain ⟨stride, whole, filled⟩ := stride_whole n positive
  rw [PoolRun.batchesOf, size, whole] at cut
  rw [← Except.ok.inj cut]
  exact batches_flatten stride pending filled

theorem finished_call_leaves_entries (run : PoolRun) (s s' : Session) (history : Calls run calls s)
    (log : Option RunLog)
    (spares : ∀ l ∈ log, l.Spares run.Own) (n : Int) (size : run.batchSize = .int n)
    (positive : 1 ≤ n) (summary : Summary)
    (ran : (run.simulate log).runIn s = (.ok summary, s')) :
    ∃ start t lines, run.begin.runIn s = (.ok start, t) ∧
      (Job.readLines run.resultsFile.toText).runIn s' = (.ok lines, s') ∧
      ∀ word ∈ start.words,
        (word ∉ start.done → ∃ result, run.report start.definition word = .ok result ∧ Told lines result.toJson) ∧
        (word ∈ start.done → ∃ call ∈ calls, call.1.Shares run ∧
          ∃ entry, call.2.runInput word call.1.maxSteps call.1.permissive = .ok entry ∧ Told lines entry.toJson) := by
  obtain ⟨written, done, account⟩ := calls_account s history
  rcases run.simulate_reaches log spares s account.holds with
    ⟨_, ⟨fault, failed⟩, _⟩ | ⟨start, t, begun, started, outcome, whole, rest, reached, quiet, ended⟩
  · rw [ran] at failed
    cases failed
  · rw [ran] at reached quiet ended
    obtain ⟨results, rfl⟩ := ended summary rfl
    obtain ⟨rfl, rfl, told⟩ := reached.ended results rfl
    have held := reached.holds
    obtain ⟨read, _⟩ := run.reachable_reads s' (run.reachable_stays _ t s' started.files quiet) held
    have listed (result : WordResult) (mem : result ∈ written ++ whole ++ []) :
        Told ((written ++ whole ++ []).map fun (kept : WordResult) => kept.toJson.compact) result.toJson :=
      ⟨_, List.mem_map_of_mem mem, kept_read_back result (held.kept result mem)⟩
    refine ⟨start, t, _, begun, read, ?_⟩
    intro word mem
    constructor
    · intro fresh
      have pending : word ∈ start.due.flatten := by
        rw [due_flatten run n size positive _ _ started.due]
        rw [started.named] at fresh
        simp [mem, fresh]
      obtain ⟨result, found, reported⟩ := map_all_found _ _ whole told word pending
      exact ⟨result, reported, listed result (by simp [found])⟩
    · intro named
      rw [started.named] at named
      obtain ⟨call, given, shares, entry, entered, kept⟩ := account.source word named
      exact ⟨call, given, shares, entry, entered, listed (.decided entry) (by simp [kept])⟩

end Histories

section Files

open scoped StandIn

def afterRejecting : Session := ((rejectingRun.simulate none).runIn afterAccepting).2

theorem accepting_called : Calls rejectingRun (acceptingRun.given onesFiles) afterAccepting := by
  have fresh : Calls rejectingRun [] onesFiles := .fresh onesFiles fun place own => ones_files_fresh place own
  exact .called [] onesFiles fresh acceptingRun none (by simp)

theorem rejecting_call_ends :
    ∃ start t summary lines result, rejectingRun.begin.runIn afterAccepting = (.ok start, t) ∧
      start.words = [("1" : Text), ("2" : Text)] ∧
      start.done = [("1" : Text)] ∧ (rejectingRun.simulate none).runIn afterAccepting = (.ok summary, afterRejecting) ∧
      (Job.readLines rejectingRun.resultsFile.toText).runIn afterRejecting = (.ok lines, afterRejecting) ∧
      rejectingRun.report start.definition "1" = .ok result ∧ ∀ line ∈ lines, Json.read line ≠ .ok result.toJson := by
  have ends : (do
      let start ← (rejectingRun.begin.runIn afterAccepting).1.toOption
      let summary ← ((rejectingRun.simulate none).runIn afterAccepting).1.toOption
      let lines ← ((Job.readLines rejectingRun.resultsFile.toText).runIn afterRejecting).1.toOption
      let result ← (rejectingRun.report start.definition "1").toOption
      return (start.words, start.done, lines.all fun line => (Json.read line).toOption ≠ some result.toJson)) =
      some ([("1" : Text), ("2" : Text)], [("1" : Text)], true) := by decide +kernel
  simp only [Option.bind_eq_bind, Option.bind_eq_some_iff, Option.pure_def, Option.some.injEq, Prod.mk.injEq] at ends
  obtain ⟨start, begun, summary, ended, lines, read, result, told, words, done, others⟩ := ends
  have here : afterRejecting = ((Job.readLines rejectingRun.resultsFile.toText).runIn afterRejecting).2 :=
    Job.read_lines_same _ afterRejecting
  refine ⟨start, _, summary, lines, result, Job.run_result _ start begun, words, done,
    Job.run_result _ summary ended, ?_,
    (to_option_ok _ result).mp told, ?_⟩
  · have found := Job.run_result _ lines read
    rwa [← here] at found
  · intro line mem tells
    have apart := List.all_eq_true.mp others line mem
    rw [tells] at apart
    simp [Except.toOption] at apart

theorem rejecting_call_leaves_entries :
    ∃ start t lines, rejectingRun.begin.runIn afterAccepting = (.ok start, t) ∧
      (Job.readLines rejectingRun.resultsFile.toText).runIn afterRejecting = (.ok lines, afterRejecting) ∧
      (∃ call ∈ acceptingRun.given onesFiles, call.1.Shares rejectingRun ∧
        ∃ entry, call.2.runInput "1" call.1.maxSteps call.1.permissive = .ok entry ∧ Told lines entry.toJson) ∧
      ∃ result, rejectingRun.report start.definition "2" = .ok result ∧ Told lines result.toJson := by
  obtain ⟨start, t, summary, _, _, begun, words, done, ended, _⟩ := rejecting_call_ends
  obtain ⟨start', t', lines, begun', read, entries⟩ :=
    finished_call_leaves_entries rejectingRun afterAccepting afterRejecting
    accepting_called none (by simp) 256 rfl (by decide) summary ended
  obtain ⟨same, rfl⟩ := Prod.mk.inj (begun.symm.trans begun')
  obtain rfl := Except.ok.inj same
  have one := (entries "1" (by simp [words])).2 (by simp [done])
  have two := (entries "2" (by simp [words])).1 (by rw [done]; decide)
  exact ⟨start, t, lines, begun, read, one, two⟩

theorem rejecting_call_leaves_accepting_entry :
    Calls rejectingRun (acceptingRun.given onesFiles) afterAccepting ∧
    ∃ start t summary lines, rejectingRun.begin.runIn afterAccepting = (.ok start, t) ∧ ("1" : Text) ∈ start.words ∧
      (rejectingRun.simulate none).runIn afterAccepting = (.ok summary, afterRejecting) ∧
      (Job.readLines rejectingRun.resultsFile.toText).runIn afterRejecting = (.ok lines, afterRejecting) ∧
      ∃ result, rejectingRun.report start.definition "1" = .ok result ∧ ¬ Told lines result.toJson := by
  obtain ⟨start, t, summary, lines, result, begun, words, _, ended, read, told, others⟩ := rejecting_call_ends
  refine ⟨accepting_called, start, t, summary, lines, begun, by simp [words], ended, read, result, told, ?_⟩
  rintro ⟨line, mem, tells⟩
  exact others line mem tells

end Files

end TapeMachine
