import Mathlib.Algebra.BigOperators.Intervals
import Mathlib.Data.Int.ConditionallyCompleteOrder
import Mathlib.Data.Int.Interval
import TapeMachine.StandIn
import TapeMachine.Pool.Listing
import TapeMachine.Proofs.FileText
import TapeMachine.Proofs.QuietJobs
import TapeMachine.Proofs.Pieces

set_option autoImplicit false

namespace TapeMachine

/-- The symbols of an alphabet, each as a text. -/
def letters (cs : List CodePoint) : List Text := cs.map ([·])

def places (cs : List CodePoint) (word : Text) : List Nat := word.map cs.idxOf

def Lower (cs : List CodePoint) (v w : Text) : Prop := List.Lex (· < ·) (places cs v) (places cs w)

def Earlier (cs : List CodePoint) (v w : Text) : Prop := v.length < w.length ∨ v.length = w.length ∧ Lower cs v w

variable (cs : List CodePoint)

theorem lower_irrefl (word : Text) : ¬ Lower cs word word := List.lex_irrefl Nat.lt_irrefl _

theorem earlier_ne (v w : Text) (earlier : Earlier cs v w) : v ≠ w := by
  rintro rfl
  rcases earlier with shorter | ⟨_, lower⟩
  · exact Nat.lt_irrefl _ shorter
  · exact lower_irrefl cs v lower

theorem words_of_letters (n : Nat) : wordsOfLength (letters cs) (n + 1) =
    cs.flatMap fun c => (wordsOfLength (letters cs) n).map (c :: ·) := by
  rw [wordsOfLength, letters, List.flatMap_map]
  rfl

theorem mem_words_iff (n : Nat) (word : Text) :
    word ∈ wordsOfLength (letters cs) n ↔ word.length = n ∧ ∀ c ∈ word, c ∈ cs := by
  induction n generalizing word with
  | zero =>
      rw [wordsOfLength, List.mem_singleton, List.length_eq_zero_iff]
      constructor
      · rintro rfl
        simp
      · exact And.left
  | succ n ih =>
      simp only [words_of_letters, List.mem_flatMap, List.mem_map, ih]
      constructor
      · rintro ⟨c, mem, rest, ⟨length, known⟩, rfl⟩
        exact ⟨congrArg (· + 1) length, List.forall_mem_cons.mpr ⟨mem, known⟩⟩
      · rintro ⟨length, known⟩
        obtain ⟨c, rest, rfl⟩ := List.exists_cons_of_length_eq_add_one length
        obtain ⟨mem, others⟩ := List.forall_mem_cons.mp known
        exact ⟨c, mem, rest, ⟨Nat.succ.inj length, others⟩, rfl⟩

theorem letters_increase (distinct : cs.Nodup) : cs.Pairwise fun a b => cs.idxOf a < cs.idxOf b := by
  rw [List.pairwise_iff_getElem]
  intro i j inside inside' less
  rwa [distinct.idxOf_getElem, distinct.idxOf_getElem]

theorem words_increase (distinct : cs.Nodup) (n : Nat) : (wordsOfLength (letters cs) n).Pairwise (Lower cs) := by
  induction n with
  | zero => exact List.pairwise_singleton _ _
  | succ n ih =>
      rw [words_of_letters, List.pairwise_flatMap]
      constructor
      · intro c _
        exact List.pairwise_map.mpr (ih.imp fun lower => .cons lower)
      · refine (letters_increase cs distinct).imp fun {a b} less v from_a w from_b => ?_
        obtain ⟨v, _, rfl⟩ := List.mem_map.mp from_a
        obtain ⟨w, _, rfl⟩ := List.mem_map.mp from_b
        exact .rel less

def wordsFrom (low count : Nat) : List Text := (List.range' low count).flatMap (wordsOfLength (letters cs))

theorem mem_words_from_iff (low count : Nat) (word : Text) :
    word ∈ wordsFrom cs low count ↔ (∀ c ∈ word, c ∈ cs) ∧ low ≤ word.length ∧ word.length < low + count := by
  simp only [wordsFrom, List.mem_flatMap, List.mem_range'_1, mem_words_iff]
  constructor
  · rintro ⟨n, ⟨least, most⟩, rfl, known⟩
    exact ⟨known, least, most⟩
  · rintro ⟨known, least, most⟩
    exact ⟨word.length, ⟨least, most⟩, rfl, known⟩

theorem words_from_increase (distinct : cs.Nodup) (low count : Nat) :
    (wordsFrom cs low count).Pairwise (Earlier cs) := by
  rw [wordsFrom, List.pairwise_flatMap]
  constructor
  · intro n _
    refine (words_increase cs distinct n).imp_of_mem fun {v w} mem mem' lower => .inr ⟨?_, lower⟩
    rw [((mem_words_iff cs n v).mp mem).1, ((mem_words_iff cs n w).mp mem').1]
  · refine (List.pairwise_lt_range' 1).imp fun {m n} less v mem w mem' => Or.inl ?_
    rwa [((mem_words_iff cs m v).mp mem).1, ((mem_words_iff cs n w).mp mem').1]

theorem words_from_length (low count : Nat) :
    (wordsFrom cs low count).length = ∑ i ∈ Finset.range count, cs.length.pow (low + i) := by
  induction count with
  | zero => rfl
  | succ count ih =>
      have last : (wordsOfLength (letters cs) (low + count)).length = cs.length.pow (low + count) := by
        rw [words_of_length_count, letters, List.length_map]
      rw [wordsFrom] at ih ⊢
      rw [List.range'_1_concat, List.flatMap_append, List.length_append, ih, List.flatMap_singleton, last,
        Finset.sum_range_succ]

section Lengths

variable [Memory]

/-- Words of this length can be listed. -/
def Listable (length : Int) : Prop := 0 ≤ length ∧ length < twoTo 60 ∧ Memory.holds length.toNat = true

instance (length : Int) : Decidable (Listable length) := inferInstanceAs (Decidable (_ ∧ _))

theorem word_length_listable (length : Int) (listable : Listable length) :
    Quantity.wordLength length = .ok length.toNat := by
  obtain ⟨natural, fits, held⟩ := listable
  have sized : Quantity.isSized length = true := by
    have most : (twoTo 63 : Int) = 9223372036854775808 := by decide
    have more : (twoTo 60 : Int) = 1152921504606846976 := by decide
    simp only [Quantity.isSized, most, Bool.and_eq_true, decide_eq_true_eq]
    omega
  rw [Quantity.wordLength, sized, if_neg (by simp), if_neg (by omega), if_neg (by omega), if_pos held]

theorem word_length_ok_iff (length : Int) : (∃ n, Quantity.wordLength length = .ok n) ↔ Listable length := by
  constructor
  · rintro ⟨n, accepted⟩
    rw [Quantity.wordLength] at accepted
    split at accepted
    · cases accepted
    split at accepted
    · cases accepted
    rename_i natural
    split at accepted
    · cases accepted
    rename_i fits
    split at accepted
    · rename_i held
      exact ⟨Int.not_lt.mp natural, Int.not_le.mp fits, held⟩
    · cases accepted
  · intro listable
    exact ⟨_, word_length_listable length listable⟩

end Lengths

namespace WordList

section Lengths

variable [Memory] (symbols : List Text)

theorem extend_listable (words : List Text) (low count : Nat) (listable : ∀ n < count, Listable (low + n : Nat)) :
    extend (letters cs) words low count = { words := words ++ wordsFrom cs low count } := by
  induction count generalizing low words with
  | zero => simp [extend, wordsFrom]
  | succ count ih =>
      have first : Quantity.wordLength low = .ok low := word_length_listable low (listable 0 (Nat.succ_pos count))
      have rest := ih (words ++ wordsOfLength (letters cs) low) (low + 1) fun n within => by
        have place : low + 1 + n = low + (n + 1) := by omega
        rw [place]
        exact listable (n + 1) (Nat.succ_lt_succ within)
      rw [extend, first]
      refine rest.trans ?_
      rw [wordsFrom, wordsFrom, List.range'_succ, List.flatMap_cons, List.append_assoc]

theorem extend_ends_iff (words : List Text) (low : Int) (count : Nat) :
    (extend symbols words low count).ends = .ok () ↔ ∀ n < count, Listable (low + n) := by
  induction count generalizing words low with
  | zero => simp [extend]
  | succ count ih =>
      rw [extend, Nat.forall_lt_succ_left]
      have first := word_length_ok_iff low
      have later (n : Nat) : low + 1 + n = low + (n + 1 : Nat) := by omega
      cases accepted : Quantity.wordLength low with
      | error fault =>
          rw [accepted] at first
          simp only [reduceCtorEq, exists_false, false_iff] at first
          simp [first]
      | ok length =>
          have here : Listable low := first.mp ⟨length, accepted⟩
          simp only [ih, later, Int.natCast_zero, Int.add_zero, here, true_and]

theorem between_ends_iff (low high : Int) :
    (between symbols low high).ends = .ok () ↔ ∀ length, low ≤ length → length ≤ high → Listable length := by
  rw [between, extend_ends_iff]
  constructor
  · intro each length least most
    have here := each (length - low).toNat (by omega)
    have place : low + ((length - low).toNat : Int) = length := by omega
    rwa [place] at here
  · intro each n within
    exact each (low + n) (by omega) (by omega)

theorem between_listable (low high : Int) (natural : 0 ≤ low)
    (listable : ∀ length, low ≤ length → length ≤ high → Listable length) :
    between (letters cs) low high = { words := wordsFrom cs low.toNat (high - low + 1).toNat } := by
  obtain ⟨start, rfl⟩ := Int.eq_ofNat_of_zero_le natural
  rw [between, Int.toNat_natCast]
  exact extend_listable cs [] start _ fun n within => listable _ (by omega) (by omega)

end Lengths

end WordList

theorem sum_lengths (k : Nat) (low high : Int) (natural : 0 ≤ low) :
    ∑ n ∈ Finset.Icc low high, k.pow n.toNat = ∑ i ∈ Finset.range (high - low + 1).toNat, k.pow (low.toNat + i) := by
  have lengths : high + 1 - low = high - low + 1 := by omega
  rw [Int.Icc_eq_finset_map, Finset.sum_map, lengths]
  refine Finset.sum_congr rfl fun i _ => congrArg k.pow ?_
  simp only [Function.Embedding.trans_apply, Nat.castEmbedding_apply, addLeftEmbedding_apply]
  omega

namespace Pool

theorem sum_of_lengths (f : Int → Nat) (low : Int) (count : Nat) :
    ((List.range count).map fun (i : Nat) => low + i).foldl
    (fun sum n => sum + f n) 0 = ∑ i ∈ Finset.range count, f (low + i) := by
  induction count with
  | zero => rfl
  | succ count ih => rw [List.range_succ, List.map_append, List.foldl_append, ih, Finset.sum_range_succ]; rfl

theorem word_count_sum (k : Nat) (low high : Int) (natural : 0 ≤ low) :
    wordCount k low high = ∑ n ∈ Finset.Icc low high, k.pow n.toNat := by
  rw [sum_lengths k low high natural, wordCount]
  split
  · rename_i one
    subst one
    simp
  · rw [lengthsBetween, sum_of_lengths]
    refine Finset.sum_congr rfl fun i _ => congrArg k.pow ?_
    omega

end Pool

variable (low high : Int) (words : List Text)

/-- The words over an alphabet with a length in a range: each of them, once, shorter ones first and
then by the places of their symbols, and as many as the powers of the size of the alphabet add up
to. -/
structure ListsWords : Prop where
  complete : ∀ word, word ∈ words ↔ (∀ c ∈ word, c ∈ cs) ∧ low ≤ word.length ∧ word.length ≤ high
  once : words.Nodup
  increasing : words.Pairwise (Earlier cs)
  count : words.length = ∑ n ∈ Finset.Icc low high, cs.length.pow n.toNat

section Listing

variable (natural : 0 ≤ low)

include natural

theorem words_between_ok_iff [Memory] : wordsBetween (letters cs) low high = .ok words ↔
    (∀ length, low ≤ length → length ≤ high → Listable length) ∧ words = wordsFrom cs low.toNat
    (high - low + 1).toNat := by
  by_cases listable : ∀ length, low ≤ length → length ≤ high → Listable length
  · rw [wordsBetween, WordList.between_listable cs low high natural listable]
    exact ⟨fun same => ⟨listable, (Except.ok.inj same).symm⟩, fun ⟨_, same⟩ => congrArg Except.ok same.symm⟩
  · have refused := mt (WordList.between_ends_iff (letters cs) low high).mp listable
    rw [wordsBetween]
    cases ends : (WordList.between (letters cs) low high).ends with
    | ok _ => exact absurd ends refused
    | error fault => simp [listable]

theorem words_from_listed (distinct : cs.Nodup) :
    ListsWords cs low high (wordsFrom cs low.toNat (high - low + 1).toNat) where
  complete := by
    intro word
    rw [mem_words_from_iff]
    refine and_congr_right fun _ => ?_
    omega
  once := (words_from_increase cs distinct _ _).imp fun {v w} earlier => earlier_ne cs v w earlier
  increasing := words_from_increase cs distinct _ _
  count := by rw [words_from_length, sum_lengths cs.length low high natural]

end Listing

namespace Pool

def preparing (count : Nat) (symbols : List Text) : Text :=
  "[INFO] Preparing to generate " ++ groupedNumeral count ++ " inputs over " ++ Text.join " " symbols ++ "..." ++ "\n"

def wrote (count : Nat) (file : Text) : Text :=
  "[INFO] Wrote " ++ groupedNumeral count ++ " inputs to " ++ file ++ "." ++ "\n"

def announced (count : Nat) : Except Fault Text :=
  if tenTo digitLimit ≤ count then .error .longNumber else .ok (groupedNumeral count)

theorem split_lines_of_words (clean : ∀ word ∈ words, CodePoint.ofChar '\n' ∉ word) :
    Text.splitLines (lines words) = words ++ [[]] := by
  induction words with
  | nil => rfl
  | cons word rest ih =>
      obtain ⟨first, others⟩ := List.forall_mem_cons.mp clean
      have cut : lines (word :: rest) = word ++ CodePoint.ofChar '\n' :: lines rest := List.append_assoc word _ _
      rw [cut, Text.split_lines_feed _ _ first, ih others]
      rfl

def Mute (s s' : Session) : Prop := s'.output = s.output

theorem mute_bind {α β : Type} (job : Job α) (next : α → Job β) (first : job.Keeps Mute)
    (second : ∀ a, (next a).Keeps Mute) :
    (job >>= next).Keeps Mute :=
  Job.keeps_bind Mute (fun _ _ _ before after => Eq.trans after before) job next first second

theorem change_mute (change : Store → Except StoreFault Store) : (Job.changeStore change).Keeps Mute := by
  intro s
  rw [Job.run_change]
  cases change s.store <;> rfl

theorem write_text_mute (path t : Text) : (Job.writeText path t).Keeps Mute := by
  refine mute_bind _ _ (change_mute _) fun _ => ?_
  rw [Job.appendText]
  split
  · exact change_mute _
  · exact mute_bind _ _ (change_mute _) fun _ => Job.keeps_throw Mute (fun _ => rfl) _

section Runs

variable [Memory]

theorem list_run (path : Path) (symbols : List Text)
    (listed : wordsBetween symbols low high = .ok words) (s : Session) :
    (list path symbols low high).runIn s =
      (do Job.makePath path.parent; Job.writeText path.toText (lines words); return words.length : Job Nat).runIn s := by
  rw [wordsBetween] at listed
  obtain ⟨_, ends, rfl⟩ := (map_ok _ _ _).mp listed
  simp only [list, ends]
  rfl

theorem list_mute (path : Path) (symbols : List Text) : (list path symbols low high).Keeps Mute := by
  refine mute_bind _ _ (change_mute _) fun _ => mute_bind _ _ (write_text_mute _ _) fun _ =>
    mute_bind _ _ ?_ fun _ => ?_
  · exact Job.keeps_lift Mute (fun _ => rfl) _
  · exact Job.keeps_pure Mute (fun _ => rfl) _

theorem list_count (path : Path) (symbols : List Text)
    (listed : wordsBetween symbols low high = .ok words) (count : Nat)
    (s t : Session) (ran : (list path symbols low high).runIn s = (.ok count, t)) :
    count = words.length ∧ t.output = s.output := by
  have mute := list_mute low high path symbols s
  rw [ran] at mute
  rw [list_run low high words path symbols listed] at ran
  obtain ⟨_, _, _, ran⟩ := (Job.bind_run_ok _ _ _ _ _).mp ran
  obtain ⟨_, _, _, ran⟩ := (Job.bind_run_ok _ _ _ _ _).mp ran
  cases ran
  exact ⟨rfl, mute⟩

theorem generate_output (definition file : Text) (given : Json) (d : Definition) (s t : Session)
    (loaded : (Definition.loadLines (Path.ofText definition)).runIn s = (.ok d, s))
    (listed : wordsBetween d.inputAlphabet low high = .ok words)
    (counted : total d.inputAlphabet.length low high = announced words.length)
    (ran : (generate (.text definition) (.int low) (.int high) given).runIn s = (.ok file, t)) :
    t.output = s.output ++ preparing words.length d.inputAlphabet ++ wrote words.length file := by
  obtain ⟨_, _, textual, ran⟩ := (Job.bind_run_ok _ _ _ _ _).mp ran
  cases textual
  obtain ⟨_, _, loaded', ran⟩ := (Job.bind_run_ok _ _ _ _ _).mp ran
  rw [loaded] at loaded'
  cases loaded'
  dsimp only at ran
  split at ran
  · cases ran
  · obtain ⟨_, _, range, ran⟩ := (Job.bind_run_ok _ _ _ _ _).mp ran
    cases range
    obtain ⟨told, _, totalled, ran⟩ := (Job.bind_run_ok _ _ _ _ _).mp ran
    rw [counted, Job.run_lift, announced] at totalled
    split at totalled
    · cases totalled
    · cases totalled
      obtain ⟨_, u, said, ran⟩ := (Job.bind_run_ok _ _ _ _ _).mp ran
      obtain ⟨path, v, textual, ran⟩ := (Job.bind_run_ok _ _ _ _ _).mp ran
      obtain ⟨count, w, filed, ran⟩ := (Job.bind_run_ok _ _ _ _ _).mp ran
      obtain ⟨_, _, closed, ran⟩ := (Job.bind_run_ok _ _ _ _ _).mp ran
      -- Looking at the path and writing the file put nothing between the two lines.
      have unread : u = v := (Job.path_text_same _ u).trans (congrArg Prod.snd textual)
      obtain ⟨rfl, unheard⟩ := list_count low high words _ _ listed count v w filed
      cases said
      cases closed
      cases ran
      subst unread
      simp only [unheard, preparing, wrote, List.append_assoc]

/-- The number of the words is announced before they are written, and told after it; a file gets them as its lines. -/
structure Accounts : Prop where
  total : total cs.length low high = announced words.length
  saved : ∀ (path : Path) (s : Session), (list path (letters cs) low high).runIn s =
    (do Job.makePath path.parent; Job.writeText path.toText (lines words); return words.length : Job Nat).runIn s
  cut : CodePoint.ofChar '\n' ∉ cs → Text.splitLines (lines words) = words ++ [[]]
  printed : ∀ (definition file : Text) (given : Json) (d : Definition) (s t : Session),
    (Definition.loadLines (Path.ofText definition)).runIn s = (.ok d, s) → d.inputAlphabet = letters cs →
    (generate (.text definition) (.int low) (.int high) given).runIn s = (.ok file, t) →
    t.output = s.output ++ preparing words.length (letters cs) ++ wrote words.length file

omit [Memory] in
theorem total_announced (natural : 0 ≤ low) (lists : ListsWords cs low high words) :
    total cs.length low high = announced words.length := by
  have whole : ¬ (low < 0 ∧ low ≤ high) := by omega
  rw [total, if_neg whole, word_count_sum cs.length low high natural, ← lists.count]
  rfl

theorem accounts_listed (natural : 0 ≤ low) (lists : ListsWords cs low high words)
    (listed : wordsBetween (letters cs) low high = .ok words) : Accounts cs low high words where
  total := total_announced cs low high words natural lists
  saved := fun path s => list_run low high words path (letters cs) listed s
  cut := by
    intro clean
    refine split_lines_of_words words fun word mem feed => clean ?_
    exact ((lists.complete word).mp mem).1 _ feed
  printed := by
    intro definition file given d s t loaded alphabet ran
    have size : d.inputAlphabet.length = cs.length := by rw [alphabet, letters, List.length_map]
    rw [← alphabet] at listed ⊢
    refine generate_output low high words definition file given d s t loaded listed ?_ ran
    rw [size, total_announced cs low high words natural lists]

end Runs

end Pool

/-- All words over an alphabet with a length in a range are listed, once and in their order, if each
of the lengths can be; what is announced, written and given back is their number. -/
theorem all_words_are_listed_once [Memory] (distinct : cs.Nodup) (natural : 0 ≤ low) :
    ((∃ words, wordsBetween (letters cs) low high = .ok words) ↔ ∀ length, low ≤ length →
      length ≤ high → Listable length) ∧
    ∀ words, wordsBetween (letters cs) low high = .ok words →
      ListsWords cs low high words ∧ Pool.Accounts cs low high words := by
  constructor
  · simp [words_between_ok_iff cs low high _ natural]
  · intro words listed
    have lists : ListsWords cs low high words := by
      rw [((words_between_ok_iff cs low high words natural).mp listed).2]
      exact words_from_listed cs low high natural distinct
    exact ⟨lists, Pool.accounts_listed cs low high words natural lists listed⟩

section Alphabets

open scoped StandIn

theorem six_words_are_listed_once :
    let cs : List CodePoint := ['a', 'b']
    let words : List Text := ["a", "b", "aa", "ab", "ba", "bb"]
    let source : Text := "%charset a b _\n%blank _\n"
    let d : Definition := { charset := ["a", "b", "_"], blank := some "_" }
    let s := Definition.oneFile "ab.tm" source
    let job := Pool.generate (.text "ab.tm") (.int 1) (.int 2) .null
    cs.Nodup ∧ wordsBetween (letters cs) 1 2 = .ok words ∧ ListsWords cs 1 2 words ∧
      (Definition.loadLines (Path.ofText "ab.tm")).runIn s = (.ok d, s) ∧ d.inputAlphabet = letters cs ∧
      (job.runIn s).1 = .ok "pools/ab_len2.txt" ∧
      (job.runIn s).2.output = Pool.preparing 6 (letters cs) ++ Pool.wrote 6 "pools/ab_len2.txt" := by
  intro cs words source d s job
  have distinct : cs.Nodup := by decide
  have listed : wordsBetween (letters cs) 1 2 = .ok words := by decide +kernel
  obtain ⟨lists, accounts⟩ := (all_words_are_listed_once cs 1 2 distinct (by decide)).2 words listed
  have loaded := Definition.one_file_run "ab.tm" source (by decide +kernel) (by decide +kernel)
  have read : Definition.ofText (Text.unifyLineEnds source) = .ok d := by decide +kernel
  rw [read] at loaded
  have alphabet : d.inputAlphabet = letters cs := by decide
  have ran : job.runIn s = (.ok "pools/ab_len2.txt", (job.runIn s).2) := Job.run_result _ _ (by decide +kernel)
  refine ⟨distinct, listed, lists, loaded, alphabet, congrArg Prod.fst ran, ?_⟩
  exact accounts.printed "ab.tm" "pools/ab_len2.txt" .null d s _ loaded alphabet ran

def ListsAllWords : Prop := ∀ (cs : List CodePoint) (low high : Int), cs.Nodup → 0 ≤ low →
  ∃ words, wordsBetween (letters cs) low high = .ok words ∧ ListsWords cs low high words

theorem huge_length_is_refused :
    let huge : Int := 9223372036854775808
    ListsWords [] huge huge [] ∧ wordsBetween [] huge huge = .error .hugeCount ∧ ¬ ListsAllWords := by
  intro huge
  have refused : wordsBetween (letters []) huge huge = .error .hugeCount := by decide +kernel
  refine ⟨⟨?_, List.nodup_nil, List.Pairwise.nil, ?_⟩, refused, ?_⟩
  · intro word
    refine iff_of_false (List.not_mem_nil) ?_
    rintro ⟨known, long, _⟩
    have empty : word = [] := List.eq_nil_iff_forall_not_mem.mpr fun c mem => List.not_mem_nil (known c mem)
    rw [empty] at long
    exact absurd long (by decide)
  · have none : (0 : Nat).pow huge.toNat = 0 := Nat.zero_pow (by decide)
    rw [Finset.Icc_self, Finset.sum_singleton]
    exact none.symm
  · intro always
    obtain ⟨words, listed, _⟩ := always [] huge huge List.nodup_nil (by decide)
    rw [refused] at listed
    cases listed

end Alphabets

end TapeMachine
