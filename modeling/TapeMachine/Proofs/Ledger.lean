import Mathlib.Data.List.TakeWhile
import TapeMachine.Proofs.QuietJobs
import TapeMachine.Proofs.WordResults

set_option autoImplicit false

namespace TapeMachine

open Json (InkedLines)
open Text (Inked)

theorem inked_lines_scalar (t : Text) (inked : ∀ c ∈ t, InkedLines c) : t.Scalar := by
  intro c mem
  rcases inked c mem with rfl | low
  · decide
  · exact Text.scalar_low c (by have := low.2; omega)

theorem unify_clean (t : Text) (clean : CodePoint.ofChar '\r' ∉ t) : Text.unifyLineEnds t = t := by
  fun_induction Text.unifyLineEnds t with
  | case1 => rfl
  | case2 => simp at clean
  | case3 c other => rfl
  | case4 t ih => simp at clean
  | case5 d t other ih => simp at clean
  | case6 c d t other ih => rw [ih fun mem => clean (List.mem_cons_of_mem c mem)]

theorem inked_decoded (t : Text) (bytes : Bytes) (inked : ∀ c ∈ t, InkedLines c)
    (written : Utf8.encode t = some bytes) :
    Job.decoded bytes = .ok t := by
  have clean : CodePoint.ofChar '\r' ∉ t := by
    intro mem
    rcases inked _ mem with feed | ink
    · exact absurd feed (by decide)
    · exact absurd ink (by decide)
  rw [Job.decoded, (Utf8.decode_iff bytes t).mpr written]
  simp only [unify_clean t clean]

structure WordResult.Kept (result : WordResult) : Prop where
  scalar : result.Scalar
  writable : result.toJson.isWritable = true

namespace RunLog

@[simp] theorem lines_append (xs ys : List Json) : lines (xs ++ ys) = lines xs ++ lines ys := List.flatMap_append

theorem lines_inked (entries : List Json) : ∀ c ∈ lines entries, InkedLines c := by
  intro c mem
  obtain ⟨entry, listed, inside⟩ := List.mem_flatMap.mp mem
  rcases List.mem_append.mp inside with ink | feed
  · exact .inr (entry.compact_inked c ink)
  · exact .inl (List.mem_singleton.mp feed)

@[simp] theorem split_lines_of (entries : List Json) :
    Text.splitLines (lines entries) = entries.map Json.compact ++ [[]] := by
  induction entries with
  | nil => rfl
  | cons entry rest ih =>
      have clean : CodePoint.ofChar '\n' ∉ entry.compact := fun mem => absurd (entry.compact_inked _ mem) (by decide)
      have first : lines (entry :: rest) = entry.compact ++ CodePoint.ofChar '\n' :: lines rest :=
        List.append_assoc _ [CodePoint.ofChar '\n'] _
      rw [first, Text.split_lines_feed _ _ clean, ih]
      rfl

@[simp] theorem file_lines_of (entries : List Json) : Text.fileLines (lines entries) = entries.map Json.compact := by
  rw [Text.fileLines, split_lines_of entries]
  simp

def linesOf (written : List WordResult) : Text := lines (written.map WordResult.toJson)

@[simp] theorem lines_of_append (xs ys : List WordResult) : linesOf (xs ++ ys) = linesOf xs ++ linesOf ys := by
  rw [linesOf, List.map_append, lines_append]
  rfl

end RunLog

namespace Checkpoint

def naming (done : List Text) : Json := .list (done.map .text)

def record (done : List Text) : Json := .object [(key, naming done)]

theorem record_plain (done : List Text) (scalar : ∀ word ∈ done, word.Scalar) : Json.Plain 2 (record done) := by
  refine .object _ (by simp) (by simp only [List.forall_mem_singleton]; decide)
    (List.forall_mem_singleton.mpr (.list _ ?_))
  intro item mem
  obtain ⟨word, named, rfl⟩ := List.mem_map.mp mem
  exact .text word (scalar word named)

@[simp] theorem words_naming (done : List Text) : words (naming done) = .ok done := by
  have checked (texts : List Text) : checkItems (texts.map .text) = .ok () := by
    induction texts with
    | nil => rfl
    | cons t rest ih => exact ih
  have texts (texts : List Text) : (texts.map Json.text).filterMap textOf? = texts := by
    induction texts with
    | nil => rfl
    | cons t rest ih => simp [textOf?, ih]
  rw [naming, words, checked, texts]
  rfl

theorem extend_naming (done fresh : List Text) : extend (naming done) fresh = .ok (naming (done ++ fresh)) := by
  rw [naming, extend, naming, List.map_append]

end Checkpoint

structure Ledger (file checkpoint : Place) (written : List WordResult) (done : List Text) (s : Store) : Prop where
  results : Utf8.encode (RunLog.linesOf written) = some ((s.content? file).getD [])
  completed : (s.content? checkpoint = none ∧ done = []) ∨
    ∃ bytes, s.content? checkpoint = some bytes ∧ Utf8.encode (Checkpoint.record done).indented = some bytes
  kept : ∀ result ∈ written, result.Kept
  scalar : ∀ word ∈ done, word.Scalar

namespace Ledger

variable {file checkpoint : Place} {written : List WordResult} {done : List Text} {s s' : Store}

theorem unchanged (ledger : Ledger file checkpoint written done s) (results : s'.content? file = s.content? file)
    (completed : s'.content? checkpoint = s.content? checkpoint) : Ledger file checkpoint written done s' :=
  ⟨results ▸ ledger.results, completed ▸ ledger.completed, ledger.kept, ledger.scalar⟩

theorem added (ledger : Ledger file checkpoint written done s) (apart : file ≠ checkpoint) (path : Text)
    (here : Store.target path = file)
    (fresh : List WordResult) (kept : ∀ result ∈ fresh, result.Kept) (bytes : Bytes)
    (encoded : Utf8.encode (RunLog.linesOf fresh) = some bytes) (appended : s.append path bytes = .ok s') :
    Ledger file checkpoint (written ++ fresh) done s' := by
  obtain ⟨_, files⟩ := Store.update_changes s s' path _ appended
  rw [here] at files
  refine ⟨?_, ?_, List.forall_mem_append.mpr ⟨ledger.kept, kept⟩, ledger.scalar⟩
  · rw [files file, if_pos rfl, RunLog.lines_of_append]
    exact Utf8.encode_append _ _ _ _ ledger.results encoded
  · rw [files checkpoint, if_neg (Ne.symm apart)]
    exact ledger.completed

theorem saved (ledger : Ledger file checkpoint written done s) (apart : file ≠ checkpoint) (path : Text)
    (here : Store.target path = checkpoint) (finished : List Text)
    (scalar : ∀ word ∈ finished, word.Scalar) (bytes : Bytes)
    (encoded : Utf8.encode (Checkpoint.record finished).indented = some bytes) (t : Store)
    (emptied : s.write path [] = .ok t)
    (appended : t.append path bytes = .ok s') : Ledger file checkpoint written finished s' := by
  obtain ⟨_, first⟩ := Store.update_changes s t path _ emptied
  obtain ⟨_, second⟩ := Store.update_changes t s' path _ appended
  rw [here] at first second
  refine ⟨?_, .inr ⟨bytes, ?_, encoded⟩, ledger.kept, scalar⟩
  · rw [second file, if_neg apart, first file, if_neg apart]
    exact ledger.results
  · rw [second checkpoint, if_pos rfl, first checkpoint, if_pos rfl]
    rfl

end Ledger

theorem inked_encoded (t : Text) (inked : ∀ c ∈ t, InkedLines c) : ∃ bytes, Utf8.encode t = some bytes :=
  Utf8.encode_exists t (inked_lines_scalar t inked)

theorem record_inked (done : List Text) (scalar : ∀ word ∈ done, word.Scalar) :
    ∀ c ∈ (Checkpoint.record done).indented, InkedLines c :=
  Json.indented_inked 2 _ (Checkpoint.record_plain done scalar) 0

variable {file checkpoint : Place} {written : List WordResult} {done : List Text}

theorem append_lines_ledger (path : Text) (results : List WordResult) (s : Session)
    (ledger : Ledger file checkpoint written done s.store)
    (here : Store.target path = file) (apart : file ≠ checkpoint) (scalar : ∀ result ∈ results, result.Scalar) :
    ∃ added, added <+: results ∧
      Ledger file checkpoint (written ++ added) done
      ((RunLog.appendLines path (results.map WordResult.toJson)).runIn s).2.store ∧
      (((RunLog.appendLines path (results.map WordResult.toJson)).runIn s).1 = .ok () → added = results) := by
  have fits := List.takeWhile_prefix (fun result : WordResult => result.toJson.isWritable) (l := results)
  have kept : ∀ result ∈ results.takeWhile (fun result => result.toJson.isWritable), result.Kept := by
    intro result mem
    have writable := List.mem_takeWhile_imp mem
    exact ⟨scalar result (fits.subset mem), writable⟩
  have taken : RunLog.lines ((results.map WordResult.toJson).takeWhile Json.isWritable) =
      RunLog.linesOf (results.takeWhile fun result => result.toJson.isWritable) := by
    rw [List.takeWhile_map]
    rfl
  obtain ⟨bytes, encoded⟩ := inked_encoded (RunLog.linesOf _) (RunLog.lines_inked _)
  rw [RunLog.appendLines, taken, Job.run_bind, Job.run_append s path _ bytes encoded, Job.run_change]
  cases appended : s.store.append path bytes with
  | error fault =>
      refine ⟨[], List.nil_prefix, ?_, ?_⟩
      · rw [List.append_nil]
        exact ledger
      · intro absurdly
        cases absurdly
  | ok store =>
      have fresh := ledger.added apart path here _ kept bytes encoded appended
      refine ⟨_, fits, ?_, ?_⟩
      · simp only
        split <;> exact fresh
      · simp only
        intro ended
        split at ended
        · cases ended
        · rename_i all
          rw [List.takeWhile_eq_self_iff]
          simpa using all

theorem write_text_run (path t : Text) (bytes : Bytes) (encoded : Utf8.encode t = some bytes) (s : Session) :
    ((∃ fault, (Job.writeText path t).runIn s = (.error fault, s)) ∨
      ∃ u v, s.store.write path [] = .ok u ∧ u.append path bytes = .ok v ∧
        (Job.writeText path t).runIn s = (.ok (), { s with store := v })) := by
  rw [Job.writeText, Job.run_bind, Job.writeBytes, Job.run_change]
  cases emptied : s.store.write path [] with
  | error fault => exact .inl ⟨_, rfl⟩
  | ok u =>
      obtain ⟨v, appended⟩ := Store.update_twice s.store u path _ (· ++ bytes) emptied
      refine .inr ⟨u, v, rfl, appended, ?_⟩
      simp only
      rw [Job.run_append _ path t bytes encoded, Job.run_change]
      have again : u.append path bytes = .ok v := appended
      simp only [again]

theorem save_ledger (path : Path) (finished : List Text) (s : Session)
    (ledger : Ledger file checkpoint written done s.store)
    (here : Store.target path.toText = checkpoint) (apart : file ≠ checkpoint)
    (scalar : ∀ word ∈ finished, word.Scalar) :
    (∃ fault, (Checkpoint.save path (Checkpoint.naming finished)).runIn s = (.error fault, s)) ∨
    ∃ store, (Checkpoint.save path (Checkpoint.naming finished)).runIn s = (.ok (), { s with store }) ∧
      Ledger file checkpoint written finished store := by
  obtain ⟨bytes, encoded⟩ := inked_encoded _ (record_inked finished scalar)
  rcases write_text_run path.toText _ bytes encoded s with ⟨fault, failed⟩ | ⟨u, v, emptied, appended, ran⟩
  · exact .inl ⟨fault, failed⟩
  · exact .inr ⟨v, ran, ledger.saved apart path.toText here finished scalar bytes encoded u emptied appended⟩

theorem read_file (s : Store) (path : Text) (bytes : Bytes) (place : Place) (located : s.locate path = .ok place)
    (held : s.node (Store.target path) = .file bytes) (named : Store.namesFolder path = false) :
    s.read path = .ok bytes := by
  rw [← Store.locate_target s path place located] at held
  simp [Store.read, located, held, named]

theorem find_located (s : Store) (path : Text) (place : Place) (located : s.locate path = .ok place)
    (named : Store.namesFolder path = false) : s.find? path = .ok (s.node (Store.target path) ≠ .absent) := by
  rw [← Store.locate_target s path place located]
  simp only [Store.find?, Store.exists?, located]
  cases s.node place <;> simp [named]

theorem read_json_run (path : Text) (v : Json) (t : Text) (bytes : Bytes) (s : Session)
    (read : s.store.read path = .ok bytes)
    (decoded : Job.decoded bytes = .ok t) (parsed : Json.read t = .ok v) :
    (Settings.readJson path).runIn s = (.ok v, s) := by
  rw [Settings.readJson, Job.readText, Job.run_bind, Job.run_bind, Job.run_read, read]
  simp only [decoded, Job.run_pure, parsed, Job.run_lift]
  rfl

theorem read_results (path : Text) (s : Session) (ledger : Ledger file checkpoint written done s.store)
    (here : Store.target path = file)
    (named : Store.namesFolder path = false) (place : Place) (located : s.store.locate path = .ok place)
    (opened : s.store.content? file ≠ none) :
    (Job.readLines path).runIn s = (.ok (written.map fun result => result.toJson.compact), s) := by
  obtain ⟨bytes, held⟩ := Option.ne_none_iff_exists'.mp opened
  have encoded := ledger.results
  rw [held] at encoded
  have node : s.store.node (Store.target path) = .file bytes := by
    rw [here]
    exact Store.content_file s.store file bytes held
  have read := read_file s.store path bytes place located node named
  rw [Job.readLines, Job.run_bind, Job.run_read, read]
  simp only [Option.getD_some] at encoded
  simp only [inked_decoded _ bytes (RunLog.lines_inked _) encoded]
  rw [Job.run_pure, RunLog.file_lines_of, List.map_map]
  rfl

theorem load_ledger (path : Path) (s : Session) (ledger : Ledger file checkpoint written done s.store)
    (here : Store.target path.toText = checkpoint) (named : Store.namesFolder path.toText = false) (place : Place)
    (located : s.store.locate path.toText = .ok place) (plain : s.store.node checkpoint ≠ .folder) :
    (Checkpoint.load path).runIn s = (.ok (Checkpoint.naming done), s) := by
  have found := find_located s.store path.toText place located named
  rw [here] at found
  rw [Checkpoint.load, Job.run_bind, Job.run_find, found]
  rcases ledger.completed with ⟨nothing, rfl⟩ | ⟨bytes, held, encoded⟩
  · have absent : s.store.node checkpoint = .absent := by
      rw [Store.content?] at nothing
      cases held : s.store.node checkpoint with
      | file bytes => simp [held] at nothing
      | folder => exact absurd held plain
      | absent => rfl
    simp only [absent]
    rfl
  · have file := Store.content_file s.store checkpoint bytes held
    have inked := record_inked done ledger.scalar
    have read := read_file s.store path.toText bytes place located (by rw [here]; exact file) named
    have json := read_json_run path.toText (Checkpoint.record done) _ bytes s read (inked_decoded _ bytes inked encoded)
      (Json.indented_read_back 2 _ (Checkpoint.record_plain done ledger.scalar) (by decide))
    simp only [file]
    rw [if_neg (by simp)]
    rw [Job.run_bind, json]
    rfl

theorem load_no_folder (path : Path) (s s' : Session) (v : Json)
    (named : Store.namesFolder path.toText = false) (place : Place)
    (located : s.store.locate path.toText = .ok place) (loaded : (Checkpoint.load path).runIn s = (.ok v, s')) :
    s.store.node (Store.target path.toText) ≠ .folder := by
  intro folder
  have found := find_located s.store path.toText place located named
  have refused : s.store.read path.toText = .error (.isFolder path.toText) := by
    rw [← Store.locate_target s.store path.toText place located] at folder
    simp [Store.read, located, folder]
  rw [folder] at found
  rw [Checkpoint.load, Job.run_bind, Job.run_find, found] at loaded
  simp only [ne_eq, reduceCtorEq, not_false_eq_true, decide_true, Bool.not_true, Bool.false_eq_true, if_false] at loaded
  rw [Settings.readJson, Job.readText, Job.run_bind, Job.run_bind, Job.run_bind, Job.run_read, refused] at loaded
  cases loaded

theorem ending_names_file (base suffix : Text) (ending : Ending suffix) :
    Store.namesFolder (base ++ suffix) = false := by
  have filled : suffix ≠ [] := fun empty => (by decide : ¬ 3 ≤ ([] : Text).length) (empty ▸ ending.long)
  obtain ⟨front, c, rfl⟩ : ∃ front c, suffix = front ++ [c] := ⟨_, _, (List.dropLast_append_getLast filled).symm⟩
  have last : c ≠ slash := fun same => ending.clean (by simp [same])
  simp [Store.namesFolder, lastPiece, last]

namespace PoolRun

theorem results_names_file (run : PoolRun) : Store.namesFolder run.resultsFile.toText = false := by
  obtain ⟨base, shape, _⟩ := run.files_beside
  rw [shape]
  exact ending_names_file base resultsEnding results_ending

theorem checkpoint_names_file (run : PoolRun) : Store.namesFolder run.checkpointFile.toText = false := by
  obtain ⟨base, _, shape⟩ := run.files_beside
  rw [shape]
  exact ending_names_file base checkpointEnding checkpoint_ending

end PoolRun

end TapeMachine
