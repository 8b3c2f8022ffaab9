import TapeMachine.Proofs.BatchRuns
import TapeMachine.Proofs.TypedSettings

set_option autoImplicit false

namespace TapeMachine

def Logged (s : Store) (path : Text) (entries : List Json) : Prop :=
  Utf8.encode (RunLog.lines entries) = some ((s.content? (Store.target path)).getD [])

def Store.linesAt (s : Store) (path : Text) : Option (List Text) :=
  (Utf8.decode ((s.content? (Store.target path)).getD [])).map Text.fileLines

theorem logged_lines (s : Store) (path : Text) (entries : List Json) (logged : Logged s path entries) :
    s.linesAt path = some (entries.map Json.compact) := by
  rw [Store.linesAt, (Utf8.decode_iff _ _).mpr logged, Option.map_some, RunLog.file_lines_of]

theorem logged_nothing (s : Store) (path : Text) (fresh : s.content? (Store.target path) = none) :
    Logged s path [] := by
  rw [Logged, fresh]
  rfl

def statusKnown : Json → Bool
  | .object fields =>
      match Fields.find? "status" fields with
      | some status => status.isKey
      | none => true
  | _ => false

/-- An entry of a run, which has a text. -/
structure RunEntry (entry : Json) : Prop where
  known : statusKnown entry = true
  writable : entry.isWritable = true

instance (entry : Json) : Decidable (RunEntry entry) :=
  decidable_of_iff (statusKnown entry = true ∧ entry.isWritable = true) ⟨fun both => ⟨both.1, both.2⟩,
    fun run => ⟨run.known, run.writable⟩⟩

def statusText : Json → Option Text
  | .object fields =>
      match Fields.find? "status" fields with
      | some (.text t) => some t
      | _ => none
  | _ => none

/-- The outcome that an entry tells: every other status, and none at all, is that of a run that did not halt. -/
def Outcome.told (entry : Json) : Outcome :=
  if statusText entry = some ("HALTED_ACCEPT" : Text) then .accepted
  else if statusText entry = some ("HALTED_REJECT" : Text) then .rejected
  else .unhalted

theorem Outcome.of_entry_told (entry : Json) (run : RunEntry entry) : Outcome.ofEntry entry =
    .ok (Outcome.told entry) := by
  have known := run.known
  cases entry with
  | object fields =>
      rw [statusKnown] at known
      rw [ofEntry, told, statusText]
      cases found : Fields.find? "status" fields with
      | none => rfl
      | some status =>
          simp only [found] at known
          cases status with
          | text t =>
              simp only [ofStatus, Option.some.injEq]
              rfl
          | list items => cases known
          | object fields => cases known
          | _ => rfl
  | _ => cases known

namespace RunLog

theorem outcome_stem_plain (outcome : Outcome) : slash ∉ outcome.name ++ "_" := by cases outcome <;> decide

variable (log : RunLog)

section Places

variable (dated : slash ∉ log.day)

include dated

theorem file_place : ∃ parent last, ∀ stem, slash ∉ stem →
    Store.target (log.file stem) = parent ++ [last ++ (stem ++ log.day ++ ".jsonl")] := by
  obtain ⟨base, joined⟩ : ∃ base, ∀ name, isAbsolute name = false → joinPath log.folder name = base ++ name := by
    by_cases closed : log.folder = [] ∨ log.folder.getLast? = some slash
    · exact ⟨log.folder, fun name here => by simp [joinPath, here, closed]⟩
    · exact ⟨log.folder ++ [slash], fun name here => by simp [joinPath, here, closed]⟩
  obtain ⟨parent, last, placed⟩ := target_ending base
  refine ⟨parent, last, fun stem plain => ?_⟩
  have ending : Ending (stem ++ log.day ++ ".jsonl") := by
    constructor
    · simp only [List.mem_append, not_or]
      exact ⟨⟨plain, dated⟩, by decide⟩
    · have long : (Text.ofString ".jsonl").length = 6 := by decide
      simp only [List.length_append, long]
      omega
  have relative : isAbsolute (stem ++ log.day ++ ".jsonl") = false := by
    have plain := absolute_ending [] _ ending
    exact plain
  rw [file, joined _ relative, placed _ ending]

theorem file_place_inj (stem other : Text) (plain : slash ∉ stem) (plain' : slash ∉ other) :
    Store.target (log.file stem) = Store.target (log.file other) ↔ stem = other := by
  obtain ⟨parent, last, placed⟩ := log.file_place dated
  rw [placed stem plain, placed other plain']
  simp

theorem outcomes_apart (outcome other : Outcome) :
    Store.target (log.outcomeFile outcome) = Store.target (log.outcomeFile other) ↔ outcome = other := by
  rw [outcomeFile, outcomeFile, log.file_place_inj dated _ _ (outcome_stem_plain _) (outcome_stem_plain _)]
  cases outcome <;> cases other <;> decide

end Places

/-- The main file is none of the files of the outcomes. -/
def Apart : Prop := ∀ outcome, Store.target log.current ≠ Store.target (log.outcomeFile outcome)

theorem apart_iff (dated : slash ∉ log.day) (plain : slash ∉ log.tag) : log.Apart ↔ ∀ outcome :
    Outcome, log.tag ≠ outcome.name ++ "_" :=
  forall_congr' fun outcome => not_congr (log.file_place_inj dated _ _ plain (outcome_stem_plain outcome))

structure Parts (s : Store) (parts : Outcome → List Json) (whole : List Json) : Prop where
  openMain : s.Open log.current
  openOutcome : ∀ outcome, s.Open (log.outcomeFile outcome)
  main : Logged s log.current whole
  outcomes : ∀ outcome, Logged s (log.outcomeFile outcome) (parts outcome)

section Adding

variable (path : Text) (entries : List Json) {s s' : Store} {bytes : Bytes} (appended : s.append path bytes = .ok s')

include appended

theorem logged_more (encoded : Utf8.encode (lines entries) = some bytes) (other : Text)
    (here : Store.target other = Store.target path)
    (before : List Json) (logged : Logged s other before) : Logged s' other (before ++ entries) := by
  have files := (Store.update_changes s s' path _ appended).2
  rw [Logged, here] at logged
  rw [Logged, here, files, if_pos rfl, lines_append]
  exact Utf8.encode_append _ _ _ _ logged encoded

theorem logged_beside (other : Text) (apart : Store.target other ≠ Store.target path) (before : List Json)
    (logged : Logged s other before) : Logged s' other before := by
  have files := (Store.update_changes s s' path _ appended).2
  rw [Logged, files, if_neg apart]
  exact logged

end Adding

section Recording

variable (apart : log.Apart) (dated : slash ∉ log.day) {s : Session} {parts : Outcome → List Json} {whole : List Json}

include apart dated

theorem record_outcome_parts (held : log.Parts s.store parts whole) (outcome : Outcome) (entries : List Json)
    (writable : ∀ entry ∈ entries, entry.isWritable = true) :
    ∃ store, (log.recordOutcome outcome entries).runIn s = (.ok (), { s with store }) ∧
      log.Parts store (fun other => if other = outcome then parts other ++ entries else parts other) whole := by
  obtain ⟨bytes, store, encoded, appended, ran⟩ := append_lines_ok _ entries writable s (held.openOutcome outcome)
  have folders := (Store.update_changes s.store store _ _ appended).1
  refine ⟨store, ran, ⟨Store.open_stays _ _ _ folders held.openMain,
    fun other => Store.open_stays _ _ _ folders (held.openOutcome other), ?_, fun other => ?_⟩⟩
  · exact logged_beside _ appended _ (apart outcome) _ held.main
  · by_cases same : other = outcome
    · rw [if_pos same]
      exact logged_more _ entries appended encoded _ ((log.outcomes_apart dated other outcome).mpr same) _
        (held.outcomes other)
    · rw [if_neg same]
      exact logged_beside _ appended _
        (fun here => same ((log.outcomes_apart dated other outcome).mp here)) _ (held.outcomes other)

omit dated in
theorem record_parts (held : log.Parts s.store parts whole) (entries : List Json)
    (writable : ∀ entry ∈ entries, entry.isWritable = true) :
    ∃ store, (log.record entries).runIn s = (.ok (), { s with store }) ∧ log.Parts store parts (whole ++ entries) := by
  obtain ⟨bytes, store, encoded, appended, ran⟩ := append_lines_ok _ entries writable s held.openMain
  have folders := (Store.update_changes s.store store _ _ appended).1
  refine ⟨store, ran, ⟨Store.open_stays _ _ _ folders held.openMain,
    fun other => Store.open_stays _ _ _ folders (held.openOutcome other), ?_, fun other => ?_⟩⟩
  · exact logged_more _ entries appended encoded _ rfl _ held.main
  · exact logged_beside _ appended _ (Ne.symm (apart other)) _ (held.outcomes other)

theorem record_groups_parts (group : Outcome → List Json)
    (writable : ∀ outcome, ∀ entry ∈ group outcome, entry.isWritable = true)
    (stages : List Outcome) (distinct : stages.Nodup) (held : log.Parts s.store parts whole) :
    ∃ store, (stages.forM fun outcome => log.recordOutcome outcome (group outcome)).runIn s =
      (.ok (), { s with store }) ∧
      log.Parts store
      (fun outcome => if outcome ∈ stages then parts outcome ++ group outcome else parts outcome) whole := by
  induction stages generalizing s parts with
  | nil => exact ⟨s.store, rfl, by simpa using held⟩
  | cons stage rest ih =>
      obtain ⟨new, distinct⟩ := List.nodup_cons.mp distinct
      obtain ⟨first, ran, held⟩ := log.record_outcome_parts apart dated held stage (group stage) (writable stage)
      obtain ⟨store, others, held⟩ := ih (s := { s with store := first }) distinct held
      refine ⟨store, ?_, ?_⟩
      · rw [Job.run_forM_cons s { s with store := first } _ stage rest ran]
        exact others
      · convert held using 2 with outcome
        by_cases here : outcome = stage
        · simp [here, new]
        · simp [here]

theorem record_batch_parts (batch : List Json) (runs : ∀ entry ∈ batch, RunEntry entry)
    (held : log.Parts s.store parts whole) :
    ∃ store, (log.recordByOutcome batch).runIn s = (.ok (), { s with store }) ∧
      log.Parts store (fun outcome => parts outcome ++ batch.filter fun entry => Outcome.told entry =
        outcome) (whole ++ batch) := by
  let group (outcome : Outcome) : List Json := batch.filter fun entry => Outcome.told entry = outcome
  let stages := firstSeen (batch.map Outcome.told)
  have sorted : outcomesOf batch = .ok (batch.map fun entry => (Outcome.told entry, entry)) := by
    refine map_all_ok _ _ _ fun entry mem => ?_
    rw [Outcome.of_entry_told entry (runs entry mem)]
    rfl
  have grouped (outcome : Outcome) :
      ((batch.map fun entry => (Outcome.told entry, entry)).filter fun s =>
        s.1 = outcome).map Prod.snd = group outcome := by
    rw [List.filter_map, List.map_map]
    exact List.map_id _
  have staged : firstSeen ((batch.map fun entry => (Outcome.told entry, entry)).map Prod.fst) = stages := by
    rw [List.map_map]
    rfl
  have unseen (outcome : Outcome) (new : outcome ∉ stages) : group outcome = [] := by
    rw [mem_first_seen] at new
    refine List.filter_eq_nil_iff.mpr fun entry mem => ?_
    simp only [decide_eq_true_eq]
    exact fun same => new (List.mem_map.mpr ⟨entry, mem, same⟩)
  obtain ⟨first, ran, held⟩ := log.record_groups_parts apart dated group
    (fun outcome entry mem => (runs entry (List.mem_of_mem_filter mem)).writable) stages (first_seen_nodup _) held
  obtain ⟨store, last, held⟩ := log.record_parts apart (s := { s with store := first }) held batch
    fun entry mem => (runs entry mem).writable
  refine ⟨store, ?_, ?_⟩
  · simp only [recordByOutcome, Job.run_bind, sorted, Job.run_lift, staged, grouped, ran, last]
  · convert held using 2 with outcome
    split
    · rfl
    · rename_i new
      change parts outcome ++ group outcome = parts outcome
      rw [unseen outcome new, List.append_nil]

theorem record_batches_parts (batches : List (List Json)) (runs : ∀ batch ∈ batches, ∀ entry ∈ batch, RunEntry entry)
    (held : log.Parts s.store parts whole) :
    ∃ store, (batches.forM log.recordByOutcome).runIn s = (.ok (), { s with store }) ∧
      log.Parts store (fun outcome => parts outcome ++ batches.flatten.filter fun entry => Outcome.told entry = outcome)
        (whole ++ batches.flatten) := by
  induction batches generalizing s parts whole with
  | nil => exact ⟨s.store, rfl, by simpa using held⟩
  | cons batch rest ih =>
      obtain ⟨first, ran, held⟩ := log.record_batch_parts apart dated batch (runs batch List.mem_cons_self) held
      obtain ⟨store, others, held⟩ :=
        ih (s := { s with store := first }) (fun b mem => runs b (List.mem_cons_of_mem batch mem)) held
      refine ⟨store, ?_, ?_⟩
      · rw [Job.run_forM_cons s { s with store := first } _ batch rest ran]
        exact others
      · simpa [List.append_assoc] using held

end Recording

theorem of_settings_fields (settings : Settings) (checked : Settings.validate settings = .ok ()) (s t : Session)
    (opened : (ofSettings settings).runIn s = (.ok log, t)) :
    settings.find? Settings.outputDirectory = some (.text log.folder) ∧ settings.find? Settings.logTag =
      some (.text log.tag) ∧
      log.day = s.today := by
  have typed := Settings.typed_of_checked settings checked
  obtain ⟨folder, kept, text⟩ := typed (Settings.outputDirectory, .text) (by decide)
  obtain ⟨path, rfl⟩ := (SettingType.text_accepts folder).mp text
  obtain ⟨tag, marked, text⟩ := typed (Settings.logTag, .text) (by decide)
  obtain ⟨mark, rfl⟩ := (SettingType.text_accepts tag).mp text
  have shape : ofSettings settings = openIn (.text path) (.text mark) := by
    rw [ofSettings, required, required, kept, marked]
    rfl
  rw [shape] at opened
  obtain ⟨_, _, textual, opened⟩ := (Job.bind_run_ok _ _ _ _ _).mp opened
  cases textual
  obtain ⟨_, u, made, opened⟩ := (Job.bind_run_ok _ _ _ _ _).mp opened
  cases opened
  rw [Job.makeFolders, Job.run_change] at made
  refine ⟨kept, marked, ?_⟩
  split at made
  · cases made
    rfl
  · cases made

/-- The texts of the main file and of the files of the outcomes, one line for an entry. -/
structure Partitions (s : Store) (entries : List Json) : Prop where
  whole : s.linesAt log.current = some (entries.map Json.compact)
  parts : ∀ outcome, s.linesAt (log.outcomeFile outcome) =
    some ((entries.filter fun entry => Outcome.told entry = outcome).map Json.compact)

/-- Starting with no files, batches of runs are all recorded, and are parted by their outcomes. -/
theorem batches_are_parted_by_outcome (settings : Settings)
    (checked : Settings.validate settings = .ok ()) (s t : Session)
    (opened : (ofSettings settings).runIn s = (.ok log, t)) (dated : slash ∉ s.today) (apart : log.Apart)
    (openMain : t.store.Open log.current) (openOutcome : ∀ outcome, t.store.Open (log.outcomeFile outcome))
    (freshMain : t.store.content? (Store.target log.current) = none)
    (freshOutcome : ∀ outcome, t.store.content? (Store.target (log.outcomeFile outcome)) = none)
    (batches : List (List Json)) (runs : ∀ batch ∈ batches, ∀ entry ∈ batch, RunEntry entry) :
    settings.find? Settings.outputDirectory = some (.text log.folder) ∧ settings.find? Settings.logTag =
      some (.text log.tag) ∧
      log.day = s.today ∧
      ∃ store, (batches.forM log.recordByOutcome).runIn t = (.ok (), { t with store }) ∧
        log.Partitions store batches.flatten := by
  obtain ⟨folder, tag, day⟩ := log.of_settings_fields settings checked s t opened
  rw [← day] at dated
  have held : log.Parts t.store (fun _ => []) [] :=
    ⟨openMain, openOutcome, logged_nothing _ _ freshMain, fun outcome => logged_nothing _ _ (freshOutcome outcome)⟩
  obtain ⟨store, ran, held⟩ := log.record_batches_parts apart dated batches runs held
  refine ⟨folder, tag, day, store, ran, ⟨?_, fun outcome => ?_⟩⟩
  · exact logged_lines _ _ _ held.main
  · exact logged_lines _ _ _ (held.outcomes outcome)

theorem two_batches_are_parted :
    let s : Session := { today := "2024-01-01" }
    let log : RunLog := ⟨"logs/", "turing_", "2024-01-01"⟩
    let accepted : Json := .object [("status", .text "HALTED_ACCEPT")]
    let rejected : Json := .object [("status", .text "HALTED_REJECT"), ("steps", .int 2)]
    let bare : Json := .object []
    let t := ((ofSettings Settings.defaults).runIn s).2
    Settings.validate Settings.defaults = .ok () ∧ (ofSettings Settings.defaults).runIn s = (.ok log, t) ∧
      ∃ store, ([[accepted, bare], [rejected, accepted]].forM log.recordByOutcome).runIn t =
        (.ok (), { t with store }) ∧
        store.linesAt "logs/turing_2024-01-01.jsonl" =
          some (([accepted, bare, rejected, accepted] : List Json).map Json.compact) ∧
        store.linesAt "logs/accepted_2024-01-01.jsonl" = some (([accepted, accepted] : List Json).map Json.compact) ∧
        store.linesAt "logs/unhalted_2024-01-01.jsonl" = some (([bare] : List Json).map Json.compact) := by
  intro s log accepted rejected bare t
  have checked : Settings.validate Settings.defaults = .ok () := rfl
  have opened : (ofSettings Settings.defaults).runIn s = (.ok log, t) := Job.run_result _ _ (by decide +kernel)
  have dated : slash ∉ s.today := by decide
  have apart : log.Apart := (log.apart_iff dated (by decide)).mpr (by decide)
  obtain ⟨_, _, _, store, ran, held⟩ :=
    log.batches_are_parted_by_outcome Settings.defaults checked s t opened dated apart
    (by decide +kernel) (by decide +kernel) (by decide +kernel) (by decide +kernel) [[accepted, bare],
      [rejected, accepted]] (by decide +kernel)
  have main : log.current = "logs/turing_2024-01-01.jsonl" := by decide
  have outcomes : log.outcomeFile .accepted = "logs/accepted_2024-01-01.jsonl" ∧ log.outcomeFile .unhalted =
      "logs/unhalted_2024-01-01.jsonl" :=
    by decide
  refine ⟨checked, opened, store, ran, ?_⟩
  rw [← main, ← outcomes.1, ← outcomes.2, held.whole, held.parts, held.parts]
  exact ⟨rfl, rfl, rfl⟩

def PartsWhateverTheTag : Prop := ∀ (log : RunLog) (settings : Settings)
    (s t : Session), Settings.validate settings = .ok () →
  (ofSettings settings).runIn s = (.ok log, t) → slash ∉ s.today → t.store.content? (Store.target log.current) = none →
  (∀ outcome, t.store.content? (Store.target (log.outcomeFile outcome)) = none) →
  ∀ batches : List (List Json), (∀ batch ∈ batches, ∀ entry ∈ batch, RunEntry entry) →
    ∃ store, (batches.forM log.recordByOutcome).runIn t = (.ok (), { t with store }) ∧
      log.Partitions store batches.flatten

theorem tag_of_an_outcome_mixes_the_files :
    let s : Session := { today := "2024-01-01" }
    let settings (tag : Text) : Settings := Entries.insert (.text Settings.logTag) (.text tag) Settings.defaults
    let log (tag : Text) : RunLog := ⟨"logs/", tag, "2024-01-01"⟩
    let t (tag : Text) : Session := ((ofSettings (settings tag)).runIn s).2
    let accepted : Json := .object [("status", .text "HALTED_ACCEPT")]
    let bare : Json := .object []
    let listed : Json := .object [("status", .list [])]
    let long : Json := .object [("steps", .int (tenTo 4300))]
    (∀ tag ∈ (["accepted_", "runs/"] : List Text), Settings.validate (settings tag) = .ok ()) ∧
      (log "accepted_").current = (log "accepted_").outcomeFile .accepted ∧
      (([[accepted, bare]].forM (log "runs/").recordByOutcome).runIn (t "runs/")).1.toOption = none ∧
      (∀ entry ∈ [listed, long],
        (([[entry]].forM (log "turing_").recordByOutcome).runIn (t "turing_")).1.toOption = none) ∧
      ¬ PartsWhateverTheTag := by
  intro s settings log t accepted bare listed long
  have checked : ∀ tag ∈ (["accepted_", "runs/"] : List Text), Settings.validate (settings tag) = .ok () := by
    simp only [List.forall_mem_cons]
    exact ⟨rfl, rfl, by simp⟩
  have same : (log "accepted_").current = (log "accepted_").outcomeFile .accepted := by decide
  refine ⟨checked, same, by decide +kernel, by decide +kernel, fun always => ?_⟩
  have opened : (ofSettings (settings "accepted_")).runIn s = (.ok (log "accepted_"), t "accepted_") :=
    Job.run_result _ _ (by decide +kernel)
  obtain ⟨store, _, held⟩ := always (log "accepted_") (settings "accepted_") s _
    (checked _ List.mem_cons_self) opened (by decide)
    (by decide +kernel) (by decide +kernel) [[accepted, bare]] (by decide +kernel)
  have whole := held.whole
  rw [same, held.parts] at whole
  exact absurd whole (by decide)

end RunLog

end TapeMachine
