import TapeMachine.Proofs.ListedPools

set_option autoImplicit false

namespace TapeMachine

section Scalar

variable [Memory] (symbols : List Text) (scalar : ∀ symbol ∈ symbols, symbol.Scalar)

include scalar

omit [Memory] in
theorem words_of_length_scalar (n : Nat) : ∀ word ∈ wordsOfLength symbols n, word.Scalar := by
  induction n with
  | zero =>
      intro word mem
      rw [List.mem_singleton.mp mem]
      exact List.forall_mem_nil _
  | succ n ih =>
      intro word mem
      obtain ⟨symbol, known, inside⟩ := List.mem_flatMap.mp mem
      obtain ⟨shorter, listed, rfl⟩ := List.mem_map.mp inside
      exact (Text.scalar_append symbol shorter).mpr ⟨scalar symbol known, ih shorter listed⟩

theorem WordList.extend_scalar (words : List Text) (low : Int) (count : Nat) (before : ∀ word ∈ words, word.Scalar) :
    ∀ word ∈ (WordList.extend symbols words low count).words, word.Scalar := by
  induction count generalizing words low with
  | zero => exact before
  | succ count ih =>
      rw [extend]
      split
      · exact before
      · rename_i n _
        exact ih _ (low + 1) (List.forall_mem_append.mpr ⟨before, words_of_length_scalar symbols scalar n⟩)

end Scalar

namespace WordList

variable [Memory] (symbols : List Text)

theorem extend_cut (words : List Text) (low : Int) (count : Nat) (fault : QuantityFault)
    (ended : (extend symbols words low count).ends = .error fault) :
    ∃ n < count, Quantity.wordLength (low + n) = .error fault ∧
      extend symbols words low n = { words := (extend symbols words low count).words } := by
  induction count generalizing words low with
  | zero => cases ended
  | succ count ih =>
      cases accepted : Quantity.wordLength low with
      | error cause =>
          simp only [extend, accepted] at ended ⊢
          cases ended
          exact ⟨0, Nat.succ_pos count, by simpa using accepted, rfl⟩
      | ok length =>
          simp only [extend, accepted] at ended
          obtain ⟨n, within, refused, front⟩ := ih _ (low + 1) ended
          refine ⟨n + 1, Nat.succ_lt_succ within, ?_, ?_⟩
          · rw [← refused]
            congr 1
            omega
          · simp only [extend, accepted, front]

variable (low high : Int)

theorem between_cut (fault : QuantityFault) (ended : (between symbols low high).ends = .error fault) :
    ∃ stop, low ≤ stop ∧ stop ≤ high ∧ Quantity.wordLength stop = .error fault ∧
      wordsBetween symbols low (stop - 1) = .ok (between symbols low high).words := by
  obtain ⟨n, within, refused, front⟩ := extend_cut symbols [] low _ fault ended
  have count : (low + n - 1 - low + 1).toNat = n := by omega
  refine ⟨low + n, by omega, by omega, refused, ?_⟩
  rw [wordsBetween, between, count, front]
  rfl

end WordList

namespace Pool

structure Filled (path : Path) (words : List Text) (s t : Session) : Prop where
  held : ∃ bytes, Utf8.encode (lines words) = some bytes ∧ t.store.content? (Store.target path.toText) = some bytes
  others : ∀ place, place ≠ Store.target path.toText → t.store.content? place = s.store.content? place

section List

variable [Memory] (path : Path) (symbols : List Text) (scalar : ∀ symbol ∈ symbols, symbol.Scalar)
  (low high : Int) (s : Session)

include scalar

theorem listed_encoded : ∃ bytes, Utf8.encode (lines (WordList.between symbols low high).words) = some bytes :=
  Utf8.encode_exists _ (lines_scalar _ (WordList.extend_scalar symbols scalar [] low _ (List.forall_mem_nil _)))

theorem list_blocked (blocked : ¬ Writable s.store path) :
    ∃ fault t, (list path symbols low high).runIn s = (.error fault, t) ∧ s.Untouched t := by
  obtain ⟨bytes, encoded⟩ := listed_encoded symbols scalar low high
  have steady := Job.make_path_steady (fun _ => True) path.parent s
  cases made : (Job.makePath path.parent).runIn s with
  | mk outcome u =>
      rw [made] at steady
      cases outcome with
      | error fault => exact ⟨fault, u, Job.run_bind_error _ _ _ _ fault made, steady⟩
      | ok _ =>
          rcases write_text_run path.toText _ bytes encoded u with ⟨fault, failed⟩ | ⟨v, w, emptied, _, _⟩
          · refine ⟨fault, u, ?_, steady⟩
            rw [list, Job.run_bind_ok _ _ _ _ _ made]
            exact Job.run_bind_error _ _ _ _ fault failed
          · obtain ⟨place, located, plain, file, _⟩ := Store.update_ok _ v path.toText _ emptied
            rw [Store.locate_target _ _ _ located] at plain
            refine absurd ⟨u.store, ?_, ⟨⟨place, located⟩, plain, file⟩⟩ blocked
            rw [Job.makePath, Job.run_change] at made
            split at made
            · rename_i store changed
              cases made
              exact changed
            · cases made

theorem list_filled (writable : Writable s.store path) :
    ∃ t, Filled path (WordList.between symbols low high).words s t ∧ (list path symbols low high).runIn s =
      (((WordList.between symbols low high).ends.mapError .quantity).map fun _ =>
        (WordList.between symbols low high).words.length, t) := by
  obtain ⟨u, made, opens⟩ := writable
  obtain ⟨bytes, encoded⟩ := listed_encoded symbols scalar low high
  have folder : (Job.makePath path.parent).runIn s = (.ok (), { s with store := u }) := by
    rw [Job.makePath, Job.run_change, made]
  obtain ⟨store, written, _⟩ := Job.run_write_open path.toText _ bytes encoded { s with store := u } opens
  have held := (Job.written_held path.toText _ bytes encoded _ _ written).2
  have elsewhere (place : Place) (apart : place ≠ Store.target path.toText) :
      store.content? place = s.store.content? place := by
    have quiet := Job.write_text_quiet (· ≠ Store.target path.toText) path.toText
      (lines (WordList.between symbols low high).words) (fun apart => apart rfl) { s with store := u }
    rw [written] at quiet
    exact (quiet.files place apart).trans ((Store.make_path_within_ok s.store u _ path.parent made).2 place)
  refine ⟨{ s with store }, ⟨⟨bytes, encoded, held⟩, elsewhere⟩, ?_⟩
  simp only [list, Job.run_bind, folder, written, Job.run_lift]
  cases (WordList.between symbols low high).ends <;> rfl

end List

section Generation

variable [Memory] (definition shortest longest file : Json) (s : Session)

/-- A generation gets as far as its file: there are words to list, and their number is told. -/
structure Aimed (source : Text) (d : Definition) (low high : Int) (path : Text) : Prop where
  given : definition = .text source
  loaded : (Definition.loadLines (Path.ofText source)).runIn s = (.ok d, s)
  symbols : d.inputAlphabet ≠ []
  range : Quantity.range shortest longest = .ok (low, high)
  told : ∃ told, total d.inputAlphabet.length low high = .ok told
  named : fileOr (defaultFile source longest) file = .text path

theorem generate_cases (outcome : Except Fault Text) (t : Session)
    (ran : (generate definition shortest longest file).runIn s = (outcome, t)) :
    t.store = s.store ∨ ∃ source d low high path, Aimed definition shortest longest file s source d low high path := by
  have still {α : Type} (job : Job α) (same : job.Keeps Eq) (u v : Session) (outcome : Except Fault α)
      (ran : job.runIn u = (outcome, v)) : v.store = u.store :=
        congrArg Session.store (Job.same_run job same u v outcome ran)
  rcases Job.bind_run_cases _ _ _ _ _ ran with ⟨_, failed, _⟩ | ⟨source, _, given, loading⟩
  · exact .inl (still _ (Job.path_text_same _) _ _ _ failed)
  obtain rfl := (Job.same_run _ (Job.path_text_same _) _ _ _ given).symm
  rcases Job.bind_run_cases _ _ _ _ _ loading with ⟨_, failed, _⟩ | ⟨d, _, loaded, checking⟩
  · exact .inl (still _ (Definition.load_lines_same _) _ _ _ failed)
  obtain rfl := (Job.same_run _ (Definition.load_lines_same _) _ _ _ loaded).symm
  dsimp only at checking
  split at checking
  · cases checking
    exact .inl rfl
  rename_i symbols
  rcases Job.bind_run_cases _ _ _ _ _ checking with ⟨_, failed, _⟩ | ⟨⟨low, high⟩, _, ranged, counting⟩
  · exact .inl (still _ (Job.keeps_lift Eq Eq.refl _) _ _ _ failed)
  rw [Job.run_lift] at ranged
  obtain ⟨range, rfl⟩ := Prod.mk.inj ranged
  rcases Job.bind_run_cases _ _ _ _ _ counting with ⟨_, failed, _⟩ | ⟨told, _, counted, saying⟩
  · exact .inl (still _ (Job.keeps_lift Eq Eq.refl _) _ _ _ failed)
  rw [Job.run_lift] at counted
  obtain ⟨total, rfl⟩ := Prod.mk.inj counted
  rcases Job.bind_run_cases _ _ _ _ _ saying with ⟨_, failed, _⟩ | ⟨_, u, said, naming⟩
  · cases failed
  rcases Job.bind_run_cases _ _ _ _ _ naming with ⟨_, failed, _⟩ | ⟨path, _, named, _⟩
  · have announced : u.store = s.store := congrArg (fun outcome => outcome.2.store) said.symm
    exact .inl ((still _ (Job.path_text_same _) _ _ _ failed).trans announced)
  exact .inr ⟨source, d, low, high, path, Job.path_text_ok _ _ _ _ given, loaded, symbols,
    (map_error_ok _ _ _).mp range,
    ⟨told, total⟩, Job.path_text_ok _ _ _ _ named⟩

variable (source : Text) (d : Definition) (low high : Int) (path : Text)

theorem generate_aimed (aimed : Aimed definition shortest longest file s source d low high path) :
    ∃ u, u.store = s.store ∧
      (∀ fault t, (list (Path.ofText path) d.inputAlphabet low high).runIn u = (.error fault, t) →
        (generate definition shortest longest file).runIn s = (.error fault, t)) ∧
      ∀ count t, (list (Path.ofText path) d.inputAlphabet low high).runIn u = (.ok count, t) →
        ∃ t', (generate definition shortest longest file).runIn s = (.ok path, t') := by
  obtain ⟨rfl, loaded, symbols, range, ⟨told, counted⟩, named⟩ := aimed
  have begun : (Job.pathText (.text source)).runIn s = (.ok source, s) := rfl
  have ranged : (Quantity.range shortest longest).mapError Fault.quantity = .ok (low, high) := by
    rw [range]
    rfl
  obtain ⟨u, said, same⟩ : ∃ u, (Job.writeLine
      ("[INFO] Preparing to generate " ++ told ++ " inputs over " ++ Text.join " " d.inputAlphabet ++ "...")).runIn s =
        (.ok (), u) ∧
      u.store = s.store := ⟨_, rfl, rfl⟩
  have textual : (Job.pathText (fileOr (defaultFile source longest) file)).runIn u = (.ok path, u) := by
    rw [named]
    rfl
  refine ⟨u, same, fun fault t failed => ?_, fun count t listed => ?_⟩
  · simp only [generate, Job.run_bind, begun, loaded, if_neg symbols, ranged, Job.run_lift, counted,
      said, textual, failed]
  · refine ⟨((Job.writeLine ("[INFO] Wrote " ++ groupedNumeral count ++ " inputs to " ++ path ++ ".")).runIn t).2, ?_⟩
    simp only [generate, Job.run_bind, begun, loaded, if_neg symbols, ranged, Job.run_lift, counted,
      said, textual, listed]
    rfl

/-- What a generation that was stopped at a length has done: its file was replaced by the words in
front of that length. -/
structure Cut (t : Session) (fault : Fault) (stop : Int) : Prop where
  least : low ≤ stop
  most : stop ≤ high
  refused : ∃ cause, Quantity.wordLength stop = .error cause ∧ fault = .quantity cause
  filled : ∃ words, wordsBetween d.inputAlphabet low (stop - 1) = .ok words ∧ Filled (Path.ofText path) words s t

theorem cut_unlistable (t : Session) (fault : Fault) (stop : Int)
    (cut : Cut s d low high path t fault stop) : ¬ Listable stop := by
  intro listable
  obtain ⟨n, accepted⟩ := (word_length_ok_iff stop).mpr listable
  obtain ⟨cause, refused, _⟩ := cut.refused
  rw [accepted] at refused
  cases refused

omit [Memory] in
theorem alphabet_scalar (clean : d.Clean) : ∀ symbol ∈ d.inputAlphabet, symbol.Scalar :=
  fun symbol mem => clean.scalar symbol (List.mem_of_mem_filter mem)

theorem aimed_cases (aimed : Aimed definition shortest longest file s source d low high path)
    (writable : Writable s.store (Path.ofText path)) :
    ((WordList.between d.inputAlphabet low high).ends = .ok () ∧
      ∃ t, (generate definition shortest longest file).runIn s = (.ok path, t)) ∨
    ∃ fault t stop, (generate definition shortest longest file).runIn s = (.error fault, t) ∧
      Cut s d low high path t fault stop := by
  have scalar := alphabet_scalar d (Definition.load_lines_clean _ d s s aimed.loaded)
  obtain ⟨u, same, failing, passing⟩ := generate_aimed definition shortest longest file s source d low high path aimed
  rw [← same] at writable
  obtain ⟨t, filled, ran⟩ := list_filled (Path.ofText path) d.inputAlphabet scalar low high u writable
  cases ends : (WordList.between d.inputAlphabet low high).ends with
  | ok _ =>
      rw [ends] at ran
      exact .inl ⟨rfl, passing _ t ran⟩
  | error cause =>
      rw [ends] at ran
      obtain ⟨stop, least, most, refused, front⟩ := WordList.between_cut d.inputAlphabet low high cause ends
      have others (place : Place) (apart : place ≠ Store.target (Path.ofText path).toText) :
          t.store.content? place = s.store.content? place := (filled.others place apart).trans (by rw [same])
      exact .inr ⟨.quantity cause, t, stop, failing _ t ran, least, most, ⟨cause, refused, rfl⟩, _,
        front, filled.held, others⟩

theorem failed_generation_cases (fault : Fault) (t : Session)
    (ran : (generate definition shortest longest file).runIn s = (.error fault, t)) :
    (s.Untouched t ∧ ¬ ∃ source d low high path, Aimed definition shortest longest file s source d low high path ∧
      Writable s.store (Path.ofText path)) ∨
    ∃ source d low high path stop, Aimed definition shortest longest file s source d low high path ∧
      Writable s.store (Path.ofText path) ∧ Cut s d low high path t fault stop := by
  by_cases reaches : ∃ source d low high path, Aimed definition shortest longest file s source d low high path ∧
      Writable s.store (Path.ofText path)
  · obtain ⟨source, d, low, high, path, aimed, writable⟩ := reaches
    rcases aimed_cases definition shortest longest file s source d low high path aimed writable with
      ⟨_, _, passed⟩ | ⟨_, _, stop, failed, cut⟩
    · rw [ran] at passed
      cases passed
    · rw [ran] at failed
      cases failed
      exact .inr ⟨source, d, low, high, path, stop, aimed, writable, cut⟩
  · refine .inl ⟨?_, reaches⟩
    rcases generate_cases definition shortest longest file s _ t ran with same | ⟨source, d, low, high, path, aimed⟩
    · exact Session.quiet_steady _ s t (Session.quiet_same_store _ s t same)
    · have blocked : ¬ Writable s.store (Path.ofText path) := fun writable =>
        reaches ⟨source, d, low, high, path, aimed, writable⟩
      have scalar := alphabet_scalar d (Definition.load_lines_clean _ d s s aimed.loaded)
      obtain ⟨u, same, failing, _⟩ := generate_aimed definition shortest longest file s source d low high path aimed
      rw [← same] at blocked
      obtain ⟨_, _, failed, untouched⟩ := list_blocked (Path.ofText path) d.inputAlphabet scalar low high u blocked
      have ends := failing _ _ failed
      rw [ran] at ends
      cases ends
      exact Session.steady_trans _ s u t (Session.quiet_steady _ s u (Session.quiet_same_store _ s u same)) untouched

end Generation

/-- A generation that fails has left every file alone, or it was stopped at a length that cannot be
listed, and the words in front of that length have replaced its file and no other. With lengths that
can all be listed nothing is ever lost. -/
theorem failed_generation_settled [Memory] (definition shortest longest file : Json) (s : Session) :
    (∀ fault t, (generate definition shortest longest file).runIn s = (.error fault, t) →
      (s.Untouched t ∧ ¬ ∃ source d low high path, Aimed definition shortest longest file s source d low high path ∧
        Writable s.store (Path.ofText path)) ∨
      ∃ source d low high path stop, Aimed definition shortest longest file s source d low high path ∧
        Writable s.store (Path.ofText path) ∧ Cut s d low high path t fault stop) ∧
    (∀ source d low high path, Aimed definition shortest longest file s source d low high path →
      Writable s.store (Path.ofText path) →
      ((∃ fault t, (generate definition shortest longest file).runIn s = (.error fault, t)) ↔
        ∃ length, low ≤ length ∧ length ≤ high ∧ ¬ Listable length)) ∧
    ∀ fault t, (generate definition shortest longest file).runIn s = (.error fault, t) →
      (∀ low high, Quantity.range shortest longest = .ok (low, high) → ∀ length, low ≤ length →
        length ≤ high → Listable length) →
        s.Untouched t := by
  refine ⟨failed_generation_cases definition shortest longest file s, ?_, ?_⟩
  · intro source d low high path aimed writable
    rcases aimed_cases definition shortest longest file s source d low high path aimed writable with
      ⟨ends, t, passed⟩ | ⟨fault, t, stop, failed, cut⟩
    · rw [WordList.between_ends_iff] at ends
      constructor
      · rintro ⟨fault, t', failed⟩
        rw [passed] at failed
        cases failed
      · rintro ⟨length, least, most, unlistable⟩
        exact absurd (ends length least most) unlistable
    · exact iff_of_true ⟨fault, t, failed⟩ ⟨stop, cut.least, cut.most,
        cut_unlistable s d low high path t fault stop cut⟩
  · intro fault t ran range
    rcases failed_generation_cases definition shortest longest file s fault t ran with
      ⟨untouched, _⟩ | ⟨source, d, low, high, path, stop, aimed, _, cut⟩
    · exact untouched
    · exact absurd (range low high aimed.range stop cut.least cut.most)
        (cut_unlistable s d low high path t fault stop cut)

section Files

open scoped StandIn

def poolBeside (source : Text) : Session :=
  { store := { files := [(["m.tm"], (Utf8.encode source).getD []), (["pool.txt"], (Utf8.encode "0\n1\n").getD [])] } }

theorem endless_words_empty_a_pool :
    let s := poolBeside "%charset 1 _\n%blank _\n"
    let long : Json := .int 9223372036854775808
    ∃ fault t, (generate (.text "m.tm") long long (.text "pool.txt")).runIn s = (.error fault, t) ∧
      s.store.content? ["pool.txt"] = Utf8.encode "0\n1\n" ∧ t.store.content? ["pool.txt"] = some [] ∧
      t.store.content? ["m.tm"] = s.store.content? ["m.tm"] := by
  intro s long
  let source : Text := "%charset 1 _\n%blank _\n"
  let d : Definition := { charset := ["1", "_"], blank := some "_" }
  have encoded : Utf8.encode source = some ((Utf8.encode source).getD []) := by decide +kernel
  have loaded := Definition.load_lines_run (Path.ofText "m.tm") source _ s encoded (by decide +kernel)
  have read : Definition.ofText (Text.unifyLineEnds source) = .ok d := by decide +kernel
  rw [read] at loaded
  have aimed : Aimed (.text "m.tm") long long
    (.text "pool.txt") s "m.tm" d 9223372036854775808 9223372036854775808 "pool.txt" :=
    ⟨rfl, loaded, by decide, rfl, is_some_ok _ (by decide +kernel), rfl⟩
  have writable : Writable s.store (Path.ofText "pool.txt") := ⟨s.store, rfl, by decide +kernel⟩
  obtain ⟨cases, failing, _⟩ := failed_generation_settled (.text "m.tm") long long (.text "pool.txt") s
  obtain ⟨fault, t, ran⟩ := (failing "m.tm" d _ _ "pool.txt" aimed writable).mpr ⟨9223372036854775808,
    by decide, by decide, by decide +kernel⟩
  rcases cases fault t ran with ⟨_, unreached⟩ | ⟨source', d', low, high, path, stop, aimed', _, cut⟩
  · exact absurd ⟨"m.tm", d, _, _, "pool.txt", aimed, writable⟩ unreached
  · cases aimed'.range
    cases aimed'.named
    obtain ⟨words, front, ⟨bytes, written, held⟩, others⟩ := cut.filled
    have first : stop = 9223372036854775808 := le_antisymm cut.most cut.least
    subst first
    cases front
    cases written
    exact ⟨fault, t, ran, by decide +kernel, held, others _ (by decide)⟩

def FailuresDestroyNothing : Prop := ∀ (definition path : Text) (low high : Int) (s t : Session)
    (fault : Fault) (bytes : Bytes),
  (generate (.text definition) (.int low) (.int high) (.text path)).runIn s = (.error fault, t) →
  s.store.content? (Store.target (Path.ofText path).toText) = some bytes →
  t.store.content? (Store.target (Path.ofText path).toText) = some bytes

theorem refused_length_empties_a_pool :
    let s := poolBeside "%charset 0 1 _\n%blank _\n"
    let ran := (generate (.text "m.tm") (.int (-1)) (.int 1) (.text "pool.txt")).runIn s
    ran.1.toOption = none ∧ s.store.content? ["pool.txt"] = Utf8.encode "0\n1\n" ∧ ran.2.store.content?
      ["pool.txt"] = some [] ∧
      ¬ FailuresDestroyNothing := by
  intro s ran
  have failed : ran.1.toOption = none := by decide +kernel
  have held : s.store.content? ["pool.txt"] = some [48, 10, 49, 10] := by decide +kernel
  have emptied : ran.2.store.content? ["pool.txt"] = some [] := by decide +kernel
  refine ⟨failed, by decide +kernel, emptied, fun always => ?_⟩
  cases outcome : ran.1 with
  | ok file =>
      rw [outcome] at failed
      cases failed
  | error fault =>
      have kept := always "m.tm" "pool.txt" (-1) 1 s ran.2 fault _ (Prod.ext outcome rfl) held
      have emptied' : ran.2.store.content? (Store.target (Path.ofText "pool.txt").toText) = some [] := emptied
      rw [emptied'] at kept
      cases kept

end Files

end Pool

end TapeMachine
