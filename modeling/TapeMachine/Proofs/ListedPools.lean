import TapeMachine.Proofs.AllWords
import TapeMachine.Proofs.BatchRuns

set_option autoImplicit false

namespace TapeMachine

open Text (Solid)

/-- A path by which the file at a place can be opened. -/
structure Store.Names (s : Store) (path : Text) (place : Place) : Prop where
  located : s.locate path = .ok place
  file : Store.namesFolder path = false

theorem Store.names_read (s : Store) (path : Text) (place : Place) (bytes : Bytes) (names : s.Names path place)
    (held : s.content? place = some bytes) : s.read path = .ok bytes := by
  have here := Store.locate_target s path place names.located
  subst here
  exact read_file s path bytes _ names.located (Store.content_file s _ bytes held) names.file

theorem Job.written_held (path t : Text) (bytes : Bytes) (encoded : Utf8.encode t = some bytes) (s s' : Session)
    (ran : (Job.writeText path t).runIn s = (.ok (), s')) :
    s'.store.Names path (Store.target path) ∧ s'.store.content? (Store.target path) = some bytes := by
  rcases write_text_run path t bytes encoded s with ⟨fault, failed⟩ | ⟨u, v, emptied, appended, written⟩
  · rw [failed] at ran
    cases ran
  · rw [written] at ran
    cases ran
    obtain ⟨place, located, _, named, _⟩ := Store.update_ok u v path _ appended
    obtain ⟨folders, files⟩ := Store.update_changes u v path _ appended
    obtain ⟨_, emptyFile⟩ := Store.update_changes s.store u path _ emptied
    have kept := Store.locate_keeps u v (Store.same_folders_keeps u v folders) path place located
    refine ⟨⟨?_, named⟩, ?_⟩
    · rw [← Store.locate_target u path place located]
      exact kept
    · rw [files, if_pos rfl, emptyFile, if_pos rfl]
      rfl

namespace Pool

/-- The words that a pool can hold: all but the empty one. -/
def filled (words : List Text) : List Text := words.filter fun word => word ≠ []

variable (words : List Text)

theorem filled_all (each : ∀ word ∈ words, word ≠ []) : filled words = words := by
  rw [filled, List.filter_eq_self]
  intro word mem
  simpa using each word mem

section Lines

variable (solid : ∀ word ∈ words, Solid word)

include solid

theorem lines_are_words : Text.fileLines (lines words) = words := by
  have cut : Text.splitLines (lines words) = words ++ [[]] := by
    refine split_lines_of_words words fun word mem feed => ?_
    exact absurd (solid word mem _ feed) (by decide)
  simp [Text.fileLines, cut]

theorem lines_without_returns : CodePoint.ofChar '\r' ∉ lines words := by
  intro mem
  obtain ⟨word, listed, inside⟩ := List.mem_flatMap.mp mem
  rcases List.mem_append.mp inside with inside | feed
  · exact absurd (solid word listed _ inside) (by decide)
  · exact absurd (List.mem_singleton.mp feed) (by decide)

theorem trimmed_words : (words.map Text.trim).filter (fun word => word ≠ []) = filled words := by
  have same : words.map Text.trim = words := by
    refine (List.map_congr_left fun word mem => ?_).trans (List.map_id words)
    simpa using Text.trim_gaps [] [] word Text.gap_nil Text.gap_nil (solid word mem)
  rw [same, filled]

theorem load_lines (path : Text) (bytes : Bytes) (encoded : Utf8.encode (lines words) = some bytes) (s : Session)
    (held : s.store.read path = .ok bytes) : (load path).runIn s = (.ok (filled words), s) := by
  have decoded : Job.decoded bytes = .ok (lines words) := by
    rw [Job.decoded, (Utf8.decode_iff bytes _).mpr encoded]
    simp only [unify_clean _ (lines_without_returns words solid)]
  have read : (Job.readLines path).runIn s = (.ok words, s) := by
    rw [Job.readLines, Job.run_bind, Job.run_read, held]
    simp only [decoded, lines_are_words words solid]
    rfl
  rw [load, Job.run_return, read]
  simp only [Except.map, trimmed_words words solid]

end Lines

theorem lines_scalar (each : ∀ word ∈ words, word.Scalar) : (lines words).Scalar := by
  intro c mem
  obtain ⟨word, listed, inside⟩ := List.mem_flatMap.mp mem
  rcases List.mem_append.mp inside with inside | feed
  · exact each word listed c inside
  · rw [List.mem_singleton.mp feed]
    decide

end Pool

namespace Definition

theorem alphabet_points (d : Definition) (closed : d.Closed) :
    ∃ cs : List CodePoint, d.inputAlphabet = letters cs ∧ cs.Nodup ∧ ∀ c ∈ cs, [c] ∈ d.charset := by
  obtain ⟨cs, points, distinct⟩ := d.charset_points closed
  refine ⟨cs.filter fun c => some [c] ≠ d.blank, ?_, distinct.filter _, ?_⟩
  · rw [inputAlphabet, points, letters, List.filter_map]
    rfl
  · intro c mem
    rw [points]
    exact List.mem_map_of_mem (List.mem_of_mem_filter mem)

theorem clean_words [Memory] (d : Definition) (clean : d.Clean) (low high : Int) (natural : 0 ≤ low) (words : List Text)
    (listed : wordsBetween d.inputAlphabet low high = .ok words) :
    (∀ word ∈ words, Solid word ∧ word.Scalar ∧ low ≤ word.length) ∧
      Pool.total d.inputAlphabet.length low high = Pool.announced words.length := by
  obtain ⟨cs, points, distinct, known⟩ := d.alphabet_points clean.written.closed
  rw [points] at listed ⊢
  have lists : ListsWords cs low high words := by
    rw [((words_between_ok_iff cs low high words natural).mp listed).2]
    exact words_from_listed cs low high natural distinct
  constructor
  · intro word mem
    obtain ⟨made, least, _⟩ := (lists.complete word).mp mem
    refine ⟨fun c inside => clean.written.solid c (known c (made c inside)), fun c inside => ?_, least⟩
    exact clean.scalar [c] (known c (made c inside)) c List.mem_cons_self
  · rw [letters, List.length_map]
    exact Pool.total_announced cs low high words natural lists

end Definition

namespace Pool

section Runs

variable [Memory] (definition : Text) (given : Json) (low high : Int)

structure Listed (d : Definition) (s t : Session) (file : Text) (words : List Text) : Prop where
  between : wordsBetween d.inputAlphabet low high = .ok words
  counted : ∃ told, total d.inputAlphabet.length low high = .ok told
  named : fileOr (defaultFile definition (.int high)) given = .text file
  written : ∃ u v : Session, u.store = s.store ∧ v.store = t.store ∧
    (do Job.makePath (Path.ofText file).parent; Job.writeText (Path.ofText file).toText (lines words) : Job Unit).runIn u =
      (.ok (), v)

theorem list_ok (path : Path) (symbols : List Text) (count : Nat) (s t : Session)
    (ran : (list path symbols low high).runIn s = (.ok count, t)) :
    ∃ words, wordsBetween symbols low high = .ok words ∧
      (do Job.makePath path.parent; Job.writeText path.toText (lines words) : Job Unit).runIn s = (.ok (), t) := by
  obtain ⟨_, u, made, ran⟩ := (Job.bind_run_ok _ _ _ _ _).mp ran
  obtain ⟨_, v, written, ran⟩ := (Job.bind_run_ok _ _ _ _ _).mp ran
  obtain ⟨_, w, ended, ran⟩ := (Job.bind_run_ok _ _ _ _ _).mp ran
  rw [Job.run_lift] at ended
  obtain ⟨finished, rfl⟩ := Prod.mk.inj ended
  cases ran
  have ends := (map_error_ok _ _ ()).mp finished
  refine ⟨(WordList.between symbols low high).words, ?_, ?_⟩
  · rw [wordsBetween, ends]
    rfl
  · exact (Job.bind_run_ok _ _ _ _ _).mpr ⟨(), u, made, written⟩

theorem generate_listed (d : Definition) (s t : Session) (file : Text)
    (loaded : (Definition.loadLines (Path.ofText definition)).runIn s = (.ok d, s))
    (ran : (generate (.text definition) (.int low) (.int high) given).runIn s = (.ok file, t)) :
    ∃ words, Listed definition given low high d s t file words := by
  obtain ⟨_, _, textual, ran⟩ := (Job.bind_run_ok _ _ _ _ _).mp ran
  cases textual
  obtain ⟨_, _, loaded', ran⟩ := (Job.bind_run_ok _ _ _ _ _).mp ran
  rw [loaded] at loaded'
  cases loaded'
  dsimp only at ran
  split at ran
  · cases ran
  · obtain ⟨_, _, range, ran⟩ := (Job.bind_run_ok _ _ _ _ _).mp ran
    cases range
    obtain ⟨told, u, totalled, ran⟩ := (Job.bind_run_ok _ _ _ _ _).mp ran
    rw [Job.run_lift] at totalled
    obtain ⟨counted, rfl⟩ := Prod.mk.inj totalled
    obtain ⟨_, v, said, ran⟩ := (Job.bind_run_ok _ _ _ _ _).mp ran
    obtain ⟨path, w, textual, ran⟩ := (Job.bind_run_ok _ _ _ _ _).mp ran
    obtain ⟨count, x, filed, ran⟩ := (Job.bind_run_ok _ _ _ _ _).mp ran
    obtain ⟨_, y, closed, ran⟩ := (Job.bind_run_ok _ _ _ _ _).mp ran
    have named := Job.path_text_ok _ _ _ _ textual
    have unread : w = v := Job.same_run _ (Job.path_text_same _) _ _ _ textual
    have before : s.store = v.store := congrArg (fun outcome => outcome.2.store) said
    have after : x.store = y.store := congrArg (fun outcome => outcome.2.store) closed
    cases ran
    rw [← unread] at before
    obtain ⟨words, listed, written⟩ := list_ok low high _ _ count _ _ filed
    exact ⟨words, listed, ⟨told, counted⟩, named, w, x, before.symm, after, written⟩

/-- The file of a pool can be written: its folder is there or can be made, and then the file can be opened. -/
def Writable (s : Store) (path : Path) : Prop := ∃ u, s.makePath path.parent = .ok u ∧ u.Open path.toText

theorem list_exists (path : Path) (symbols : List Text) (words : List Text)
    (between : wordsBetween symbols low high = .ok words)
    (scalar : ∀ word ∈ words, word.Scalar) (s : Session) (writable : Writable s.store path) :
    ∃ t, (list path symbols low high).runIn s = (.ok words.length, t) := by
  obtain ⟨u, made, opens⟩ := writable
  obtain ⟨bytes, encoded⟩ := Utf8.encode_exists (lines words) (lines_scalar words scalar)
  obtain ⟨store, written, _⟩ := Job.run_write_open path.toText (lines words) bytes encoded { s with store := u } opens
  have folder : (Job.makePath path.parent).runIn s = (.ok (), { s with store := u }) := by
    rw [Job.makePath, Job.run_change, made]
  refine ⟨{ s with store }, ?_⟩
  rw [list_run low high words path symbols between s]
  simp only [Job.run_bind, folder, written]
  rfl

theorem generate_exists (d : Definition) (s : Session) (file : Text)
    (loaded : (Definition.loadLines (Path.ofText definition)).runIn s = (.ok d, s)) (symbols : d.inputAlphabet ≠ [])
    (named : fileOr (defaultFile definition (.int high)) given = .text file)
    (writable : Writable s.store (Path.ofText file))
    (words : List Text) (between : wordsBetween d.inputAlphabet low high = .ok words)
    (scalar : ∀ word ∈ words, word.Scalar)
    (told : Text) (counted : total d.inputAlphabet.length low high = .ok told) :
    ∃ t, (generate (.text definition) (.int low) (.int high) given).runIn s = (.ok file, t) := by
  have begun : (Job.pathText (.text definition)).runIn s = (.ok definition, s) := rfl
  have range : (Quantity.range (.int low) (.int high)).mapError Fault.quantity = .ok (low, high) := rfl
  obtain ⟨spoken, said, same⟩ : ∃ u, (Job.writeLine
      ("[INFO] Preparing to generate " ++ told ++ " inputs over " ++ Text.join " " d.inputAlphabet ++ "...")).runIn s =
        (.ok (), u) ∧
      u.store = s.store := ⟨_, rfl, rfl⟩
  have path : (Job.pathText (fileOr (defaultFile definition (.int high)) given)).runIn spoken = (.ok file, spoken) := by
    rw [named]
    rfl
  rw [← same] at writable
  obtain ⟨t, listed⟩ := list_exists low high (Path.ofText file) d.inputAlphabet words between scalar spoken writable
  refine ⟨((Job.writeLine
    ("[INFO] Wrote " ++ groupedNumeral words.length ++ " inputs to " ++ file ++ ".")).runIn t).2, ?_⟩
  simp only [generate, Job.run_bind, begun, loaded, if_neg symbols, range, Job.run_lift, counted, said, path, listed]
  rfl

end Runs

/-- A file is a pool of these words, whatever path it is opened by. -/
structure Holds (t : Session) (place : Place) (words : List Text) : Prop where
  loads : ∀ path, t.store.Names path place → (load path).runIn t = (.ok words, t)

theorem listed_holds [Memory] (definition file : Text) (given : Json) (low high : Int) (d : Definition)
    (s t : Session) (words : List Text)
    (solid : ∀ word ∈ words, Solid word) (scalar : ∀ word ∈ words, word.Scalar)
    (listed : Listed definition given low high d s t file words) :
    t.store.Names (Path.ofText file).toText (Store.target (Path.ofText file).toText) ∧
      Holds t (Store.target (Path.ofText file).toText) (filled words) := by
  obtain ⟨u, v, _, after, ran⟩ := listed.written
  obtain ⟨_, w, _, written⟩ := (Job.bind_run_ok _ _ _ _ _).mp ran
  obtain ⟨bytes, encoded⟩ := Utf8.encode_exists (lines words) (lines_scalar words scalar)
  obtain ⟨named, held⟩ := Job.written_held _ _ bytes encoded w v written
  rw [after] at named held
  refine ⟨named, ⟨fun path names => ?_⟩⟩
  exact load_lines words solid path bytes encoded t (t.store.names_read path _ bytes names held)

theorem announced_ok_iff (count : Nat) : (∃ told, announced count = .ok told) ↔ count < tenTo digitLimit := by
  rw [announced]
  split
  · simp; omega
  · simp; omega

/-- A pool that was listed for a clean definition is read back without the empty word; it is listed
if its words are, their number can be told, and its file can be written. -/
theorem generated_pool_is_read_back [Memory] (definition : Text) (given : Json) (low high : Int)
    (d : Definition) (s : Session)
    (loaded : (Definition.loadLines (Path.ofText definition)).runIn s = (.ok d, s)) (symbols : d.inputAlphabet ≠ [])
    (natural : 0 ≤ low) :
    (∀ file, fileOr (defaultFile definition (.int high)) given = .text file → Writable s.store (Path.ofText file) →
      ((∃ t, (generate (.text definition) (.int low) (.int high) given).runIn s = (.ok file, t)) ↔
        ∃ words, wordsBetween d.inputAlphabet low high = .ok words ∧ words.length < tenTo digitLimit)) ∧
    ∀ file t, (generate (.text definition) (.int low) (.int high) given).runIn s = (.ok file, t) →
      ∃ words, wordsBetween d.inputAlphabet low high = .ok words ∧
        t.store.Names (Path.ofText file).toText (Store.target (Path.ofText file).toText) ∧
        Holds t (Store.target (Path.ofText file).toText) (filled words) ∧
        (1 ≤ low → filled words = words) := by
  have clean := Definition.load_lines_clean _ d s s loaded
  constructor
  · intro file named writable
    constructor
    · rintro ⟨t, ran⟩
      obtain ⟨words, listed⟩ := generate_listed definition given low high d s t file loaded ran
      have total := (d.clean_words clean low high natural words listed.between).2
      refine ⟨words, listed.between, (announced_ok_iff words.length).mp ?_⟩
      rw [← total]
      exact listed.counted
    · rintro ⟨words, between, few⟩
      obtain ⟨each, total⟩ := d.clean_words clean low high natural words between
      obtain ⟨told, counted⟩ := (announced_ok_iff words.length).mpr few
      rw [← total] at counted
      exact generate_exists definition given low high d s file loaded symbols named writable words between
        (fun word mem => (each word mem).2.1) told counted
  · intro file t ran
    obtain ⟨words, listed⟩ := generate_listed definition given low high d s t file loaded ran
    have each := (d.clean_words clean low high natural words listed.between).1
    obtain ⟨named, holds⟩ := listed_holds definition file given low high d s t words (fun word mem => (each word mem).1)
      (fun word mem => (each word mem).2.1) listed
    refine ⟨words, listed.between, named, holds, fun least => filled_all words ?_⟩
    rintro word mem rfl
    have long := (each [] mem).2.2
    simp at long
    omega

section Files

open scoped StandIn

theorem words_from_one_are_read_back :
    let s := Definition.oneFile "ab.tm" "%charset a b _\n%blank _\n"
    let d : Definition := { charset := ["a", "b", "_"], blank := some "_" }
    let words : List Text := ["a", "b", "aa", "ab", "ba", "bb"]
    let job := generate (.text "ab.tm") (.int 1) (.int 2) .null
    (Definition.loadLines (Path.ofText "ab.tm")).runIn s = (.ok d, s) ∧ d.inputAlphabet ≠ [] ∧
      (job.runIn s).1 = .ok "pools/ab_len2.txt" ∧ wordsBetween d.inputAlphabet 1 2 = .ok words ∧
      (load "pools/ab_len2.txt").runIn (job.runIn s).2 = (.ok words, (job.runIn s).2) := by
  intro s d words job
  have loaded := Definition.one_file_run "ab.tm" "%charset a b _\n%blank _\n" (by decide +kernel) (by decide +kernel)
  have read : Definition.ofText (Text.unifyLineEnds "%charset a b _\n%blank _\n") = .ok d := by decide +kernel
  rw [read] at loaded
  have between : wordsBetween d.inputAlphabet 1 2 = .ok words := by decide +kernel
  have ran : job.runIn s = (.ok "pools/ab_len2.txt", (job.runIn s).2) := Job.run_result _ _ (by decide +kernel)
  obtain ⟨listed, between', named, holds, whole⟩ :=
    (generated_pool_is_read_back "ab.tm" .null 1 2 d s loaded (by decide) (by decide)).2 _ _ ran
  rw [between] at between'
  cases between'
  have back := holds.loads _ named
  rw [whole (by decide)] at back
  exact ⟨loaded, by decide, congrArg Prod.fst ran, between, back⟩

def ReadBackWhole : Prop := ∀ (definition : Text) (given : Json) (low high : Int) (d : Definition)
    (s t : Session) (file : Text)
  (words : List Text), (Definition.loadLines (Path.ofText definition)).runIn s = (.ok d, s) →
    d.inputAlphabet ≠ [] → 0 ≤ low →
  0 ≤ high → (generate (.text definition) (.int low) (.int high) given).runIn s = (.ok file, t) →
  wordsBetween d.inputAlphabet low high = .ok words → (load file).runIn t = (.ok words, t)

theorem empty_word_is_not_read_back :
    let s := Definition.oneFile "ab.tm" "%charset a b _\n%blank _\n"
    let d : Definition := { charset := ["a", "b", "_"], blank := some "_" }
    let job := generate (.text "ab.tm") (.int 0) (.int 1) (.text "pool.txt")
    (Definition.loadLines (Path.ofText "ab.tm")).runIn s = (.ok d, s) ∧ (job.runIn s).1 = .ok "pool.txt" ∧
      wordsBetween d.inputAlphabet 0 1 = .ok ["", "a", "b"] ∧
      ((load "pool.txt").runIn (job.runIn s).2).1 = .ok ["a", "b"] ∧ ¬ ReadBackWhole := by
  intro s d job
  have loaded := Definition.one_file_run "ab.tm" "%charset a b _\n%blank _\n" (by decide +kernel) (by decide +kernel)
  have read : Definition.ofText (Text.unifyLineEnds "%charset a b _\n%blank _\n") = .ok d := by decide +kernel
  rw [read] at loaded
  have between : wordsBetween d.inputAlphabet 0 1 = .ok ["", "a", "b"] := by decide +kernel
  have ran : job.runIn s = (.ok "pool.txt", (job.runIn s).2) := Job.run_result _ _ (by decide +kernel)
  have back := Job.run_result ((load "pool.txt").runIn (job.runIn s).2) (["a", "b"] : List Text) (by decide +kernel)
  refine ⟨loaded, congrArg Prod.fst ran, between, congrArg Prod.fst back, fun always => ?_⟩
  have whole := always _ _ 0 1 d s _ _ _ loaded (by decide) (by decide) (by decide) ran between
  rw [whole] at back
  have lost : (["", "a", "b"] : List Text) = ["a", "b"] := Except.ok.inj (congrArg Prod.fst back)
  exact absurd lost (by decide)

end Files

end Pool

end TapeMachine
