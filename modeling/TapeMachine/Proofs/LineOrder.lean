import TapeMachine.Machine.Bench
import TapeMachine.Pool.Entry
import TapeMachine.Proofs.FirstBadLine

set_option autoImplicit false

namespace TapeMachine

theorem first_seen_perm {α : Type} [DecidableEq α] (xs ys : List α) (perm : xs.Perm ys) :
    (firstSeen xs).Perm (firstSeen ys) := by
  rw [List.perm_ext_iff_of_nodup (first_seen_nodup xs) (first_seen_nodup ys)]
  intro a
  rw [mem_first_seen, mem_first_seen, perm.mem_iff]

theorem filter_map_exchanged {α β : Type} (f : α → Option β) (before after : List α) (a b : α)
    (silent : f a = none ∨ f b = none) :
    (before ++ b :: a :: after).filterMap f = (before ++ a :: b :: after).filterMap f := by
  rcases silent with silent | silent <;> simp [List.filterMap_append, List.filterMap_cons, silent]

structure Configuration.Alike (c c' : Configuration) : Prop where
  start : c'.start = c.start
  found : ∀ id, c'.find? id = c.find? id

namespace Configuration

theorem perm_alike (c c' : Configuration) (distinct : (c.states.map State.id).Nodup) (perm : c'.states.Perm c.states)
    (start : c'.start = c.start) : c.Alike c' where
  start := start
  found := by
    intro id
    cases found : c.find? id with
    | none =>
        rw [find?, List.find?_eq_none] at found ⊢
        exact fun s mem => found s (perm.mem_iff.mp mem)
    | some s =>
        obtain ⟨mem, rfl⟩ := c.find_mem id s found
        exact find_keyed State.id c'.states s ((perm.map State.id).nodup_iff.mpr distinct) (perm.mem_iff.mpr mem)

variable (c c' : Configuration) (alike : c.Alike c')

include alike

theorem alike_start_state : c'.startState = c.startState := by
  have found : c'.find? = c.find? := funext alike.found
  simp only [startState, get, named?, found, alike.start]

end Configuration

namespace Machine

variable (c c' : Configuration) (alike : c.Alike c')

include alike

theorem create_alike (blank : Symbol) (permissive : Bool) : create c' blank permissive = create c blank permissive := by
  simp only [create, c.alike_start_state c' alike]

theorem enabled_alike (m : Machine) : m.enabled? c' = m.enabled? c := by
  simp only [enabled?, alike.found]

theorem next_alike (m : Machine) : m.next c' = m.next c := by
  simp only [next, enabled_alike c c' alike]

theorem seen_alike (m : Machine) : m.seen c' = m.seen c := by
  simp only [seen, enabled_alike c c' alike, next_alike c c' alike]

theorem run_alike (bound : Nat) (m : Machine) : m.run c' bound = m.run c bound := by
  induction bound generalizing m with
  | zero => rfl
  | succ bound ih => rw [run, run, next_alike c c' alike, ih]

theorem run_seen_alike (bound : Nat) (m : Machine) (after : List Observation) :
    m.runSeen c' bound after = m.runSeen c bound after := by
  induction bound generalizing m after with
  | zero => rfl
  | succ bound ih => rw [runSeen, runSeen, next_alike c c' alike, seen_alike c c' alike, ih]

theorem start_alike (m : Machine) (word : List Symbol) : m.start c' word = m.start c word := by
  simp only [start, reset, c.alike_start_state c' alike]

theorem perform_alike (m : Machine) (request : Request) : m.perform c' request = m.perform c request := by
  cases request with
  | start word => simp only [perform, start_alike c c' alike]
  | step => simp only [perform, next_alike c c' alike, seen_alike c c' alike]
  | run bound => simp only [perform, run_alike c c' alike, run_seen_alike c c' alike]
  | reset => simp only [perform, reset, c.alike_start_state c' alike]
  | window radius => rfl

end Machine

namespace Line

/-- The lines whose order is free: those of a state and of a transition, and those of two states
that are not both the start. -/
inductive Exchangeable : Line → Line → Prop where
  | stateFirst (isStart : Bool) (id : Text) (acceptance : Acceptance) (source inputs : Text)
      (output : CodePoint) (action : Action)
      (target : Text) : Exchangeable (.state isStart id acceptance) (.transition source inputs output action target)
  | transitionFirst (source inputs : Text) (output : CodePoint) (action : Action) (target : Text)
      (isStart : Bool) (id : Text)
      (acceptance : Acceptance) : Exchangeable (.transition source inputs output action target)
        (.state isStart id acceptance)
  | states (isStart isStart' : Bool) (id id' : Text) (acceptance acceptance' : Acceptance)
      (different : numeralValue id ≠ numeralValue id') (unmarked : isStart = false ∨ isStart' = false) :
      Exchangeable (.state isStart id acceptance) (.state isStart' id' acceptance')

/-- No question that is put to both lines gets an answer from both, but for the id of the state. -/
structure Apart (a b : Line) : Prop where
  symbols : a.symbols = [] ∧ b.symbols = []
  blank : a.blankSymbol? = none ∧ b.blankSymbol? = none
  word : a.word? = none ∧ b.word? = none
  start : a.startId? = none ∨ b.startId? = none
  tag : ∀ id, a.tagOf? id = none ∨ b.tagOf? id = none
  leaving : ∀ id, a.leaving? id = none ∨ b.leaving? id = none

theorem exchangeable_apart (a b : Line) (free : Exchangeable a b) : Apart a b := by
  cases free with
  | stateFirst isStart id acceptance source inputs output action target =>
      exact ⟨⟨rfl, rfl⟩, ⟨rfl, rfl⟩, ⟨rfl, rfl⟩, .inr rfl, fun _ => .inr rfl, fun _ => .inl rfl⟩
  | transitionFirst source inputs output action target isStart id acceptance =>
      exact ⟨⟨rfl, rfl⟩, ⟨rfl, rfl⟩, ⟨rfl, rfl⟩, .inl rfl, fun _ => .inl rfl, fun _ => .inr rfl⟩
  | states isStart isStart' id id' acceptance acceptance' different unmarked =>
      refine ⟨⟨rfl, rfl⟩, ⟨rfl, rfl⟩, ⟨rfl, rfl⟩, ?_, ?_, fun _ => .inl rfl⟩
      · rcases unmarked with rfl | rfl
        · exact .inl rfl
        · exact .inr rfl
      · intro n
        by_cases named : numeralValue id = n
        · exact .inr (if_neg fun other => different (named.trans other.symm))
        · exact .inl (if_neg named)

end Line

namespace Definition

/-- The same definition with its states in another order. -/
structure Reordered (d d' : Definition) : Prop where
  states : d'.configuration.states.Perm d.configuration.states
  start : d'.configuration.start = d.configuration.start
  labels : d'.configuration.labels = d.configuration.labels
  charset : d'.charset = d.charset
  blank : d'.blank = d.blank
  memory : d'.memory = d.memory

section Meaning

variable (before after : List Line) (a b : Line) (apart : Line.Apart a b)

include apart

theorem state_of_exchanged (id : Nat) : stateOf (before ++ b :: a :: after) id = stateOf
    (before ++ a :: b :: after) id := by
  simp only [stateOf, filter_map_exchanged _ before after a b (apart.tag id),
    filter_map_exchanged _ before after a b (apart.leaving id)]

theorem meaning_exchanged : Reordered (meaning (before ++ a :: b :: after)) (meaning (before ++ b :: a :: after)) where
  states := by
    have swapped : (before ++ b :: a :: after).Perm (before ++ a :: b :: after) :=
      (List.Perm.swap a b after).append_left before
    have states : stateOf (before ++ b :: a :: after) = stateOf (before ++ a :: b :: after) :=
      funext (state_of_exchanged before after a b apart)
    simp only [meaning, states]
    exact (first_seen_perm _ _ (swapped.filterMap Line.stateId?)).map (stateOf (before ++ a :: b :: after))
  start := by simp only [meaning, filter_map_exchanged _ before after a b apart.start]
  labels := rfl
  charset := by simp [meaning, apart.symbols]
  blank := by simp only [meaning, filter_map_exchanged _ before after a b (.inl apart.blank.1)]
  memory := by simp only [meaning, filter_map_exchanged _ before after a b (.inl apart.word.1)]

end Meaning

theorem readable_under (above above' : List Text) (raw : Text)
    (declared : ∀ c, DeclaredBy above c → DeclaredBy above' c)
    (readable : Readable above raw) : Readable above' raw := by
  obtain ⟨line, form, known⟩ := readable.fits
  exact ⟨⟨line, form, fun c mem => declared c (known c mem)⟩, readable.short⟩

theorem declared_by_perm (above above' : List Text) (perm : above.Perm above') (c : CodePoint) :
    DeclaredBy above c → DeclaredBy above' c := by
  simp only [DeclaredBy, perm.mem_iff]
  exact id

theorem declared_by_silent (above : List Text) (raw : Text) (line : Line) (form : Line.Form (Line.trimmed raw) line)
    (silent : line.symbols = []) (c : CodePoint) : DeclaredBy (above ++ [raw]) c ↔ DeclaredBy above c := by
  have turned : (above ++ [raw]).Perm (raw :: above) := List.perm_append_comm
  constructor
  · intro declared
    have first := (declared_by_cons raw above line form c).mp (declared_by_perm _ _ turned c declared)
    simpa [silent] using first
  · intro declared
    exact declared_by_perm _ _ turned.symm c ((declared_by_cons raw above line form c).mpr (.inr declared))

section Exchange

variable (before after : List Text) (a b : Text) (la lb : Line) (formA : Line.Form (Line.trimmed a) la)
  (formB : Line.Form (Line.trimmed b) lb)

include formA formB

theorem flawless_exchanged (silent : la.symbols = [] ∧ lb.symbols = [])
    (flawless : Flawless (before ++ a :: b :: after)) :
    Flawless (before ++ b :: a :: after) := by
  induction after using List.reverseRecOn with
  | nil =>
      rw [show before ++ [a, b] = (before ++ [a]) ++ [b] by simp, flawless_snoc, flawless_snoc] at flawless
      obtain ⟨⟨above, first⟩, second⟩ := flawless
      rw [show before ++ [b, a] = (before ++ [b]) ++ [a] by simp, flawless_snoc, flawless_snoc]
      refine ⟨⟨above, ?_⟩, ?_⟩
      · exact readable_under _ before b (fun c => (declared_by_silent before a la formA silent.1 c).mp) second
      · exact readable_under before _ a (fun c => (declared_by_silent before b lb formB silent.2 c).mpr) first
  | append_singleton after raw ih =>
      rw [show before ++ a :: b :: (after ++ [raw]) = (before ++ a :: b :: after) ++
        [raw] by simp, flawless_snoc] at flawless
      rw [show before ++ b :: a :: (after ++ [raw]) = (before ++ b :: a :: after) ++ [raw] by simp, flawless_snoc]
      have swapped : (before ++ a :: b :: after).Perm (before ++ b :: a :: after) :=
        (List.Perm.swap b a after).append_left before
      exact ⟨ih flawless.1, readable_under _ _ raw (declared_by_perm _ _ swapped) flawless.2⟩

theorem of_lines_exchanged (apart : Line.Apart la lb) (d : Definition)
    (read : ofLines (before ++ a :: b :: after) = .ok d) :
    ∃ d', ofLines (before ++ b :: a :: after) = .ok d' ∧ d.Reordered d' := by
  have flawless := (returned_flawless _).mp ⟨d, read⟩
  obtain ⟨d', turned⟩ :=
    (returned_flawless _).mpr (flawless_exchanged before after a b la lb formA formB apart.symbols flawless)
  refine ⟨d', turned, ?_⟩
  have readA := (Line.read_iff _ la).mpr formA
  have readB := (Line.read_iff _ lb).mpr formB
  obtain ⟨lines, reads, rfl⟩ := of_lines_meaning _ d read
  rw [Reads, List.map_append, List.map_cons, List.map_cons] at reads
  obtain ⟨front, rest, rfl, fronts, rests⟩ := List.map_eq_append_iff.mp reads.symm
  obtain ⟨x, rest, rfl, first, rests⟩ := List.map_eq_cons_iff.mp rests
  obtain ⟨y, back, rfl, second, backs⟩ := List.map_eq_cons_iff.mp rests
  obtain rfl : x = la := Option.some.inj (first.trans readA)
  obtain rfl : y = lb := Option.some.inj (second.trans readB)
  have readsTurned : Reads (before ++ b :: a :: after) (front ++ y :: x :: back) := by
    simp only [Reads, List.map_append, List.map_cons, fronts, backs, readA, readB]
  obtain ⟨others, same, rfl⟩ := of_lines_meaning _ d' turned
  obtain rfl := reads_unique _ _ others readsTurned same
  exact meaning_exchanged front back x y apart

end Exchange

section Reordered

variable (d d' : Definition) (written : d.Written) (turned : d.Reordered d')

include written turned

theorem reordered_alike : d.configuration.Alike d'.configuration :=
  Configuration.perm_alike _ _ written.control.ids turned.states turned.start

theorem reordered_same : d.same d' = true := by
  have alike := reordered_alike d d' written turned
  have starts : d.configuration.start.same d'.configuration.start = true := by
    obtain ⟨id, start, _⟩ := written.start
    rw [turned.start, start]
    simp [Label.same, Json.sameKey, Label.ofId, Json.asInt?]
  have each (s : State) (mem : s ∈ d.configuration.states) : d'.configuration.find? s.id = some s := by
    rw [alike.found]
    exact find_keyed State.id d.configuration.states s written.control.ids mem
  simp only [Definition.same, Configuration.same, starts, turned.states.length_eq, turned.charset,
    turned.blank, turned.memory,
    decide_true, Bool.true_and, Bool.and_true, List.all_eq_true]
  intro s mem
  rw [each s mem]
  exact State.same_self s (written.control.states s mem)

theorem reordered_create (permissive : Bool) : d'.create permissive = d.create permissive := by
  simp only [create, turned.blank, Machine.create_alike _ _ (reordered_alike d d' written turned)]

theorem reordered_run_input (word : Text) (bound : Json) (permissive : Bool) :
    d'.runInput word bound permissive = d.runInput word bound permissive := by
  have alike := reordered_alike d d' written turned
  simp only [runInput, foreignInputs, declares, turned.blank, turned.charset, Machine.create_alike _ _ alike,
    Machine.start_alike _ _ alike, Machine.run_alike _ _ alike]

end Reordered

/-- Two neighbouring lines whose order is free, anywhere in lines that are read: exchanged, the
lines are read as well, as an equal definition in which every id stands for the same state with its
transitions in the same order. So its machines start alike, do and tell the same from any place of
any run, and end alike on every word. -/
theorem exchanged_declarations_mean_the_same (before after : List Text) (a b : Text) (la lb : Line)
    (formA : Line.Form (Line.trimmed a) la) (formB : Line.Form (Line.trimmed b) lb) (free : Line.Exchangeable la lb)
    (d : Definition) (read : ofLines (before ++ a :: b :: after) = .ok d) :
    ∃ d', ofLines (before ++ b :: a :: after) = .ok d' ∧ d.same d' = true ∧ d.Reordered d' ∧
      (∀ id, d'.configuration.find? id = d.configuration.find? id) ∧
      (∀ permissive, d'.create permissive = d.create permissive) ∧
      (∀ m request, Machine.perform d'.configuration m request = m.perform d.configuration request) ∧
      ∀ word bound permissive, d'.runInput word bound permissive = d.runInput word bound permissive := by
  have apart := Line.exchangeable_apart la lb free
  have written := of_lines_written _ d read
  obtain ⟨d', returned, turned⟩ := of_lines_exchanged before after a b la lb formA formB apart d read
  have alike := reordered_alike d d' written turned
  refine ⟨d', returned, reordered_same d d' written turned, turned, alike.found,
    reordered_create d d' written turned, ?_,
    reordered_run_input d d' written turned⟩
  intro m request
  exact Machine.perform_alike _ _ alike m request

theorem early_transition_means_the_same :
    let above : List Text := ["%charset a b _", "%blank _", "0 a -> b r 7"]
    let below : List Text := ["7 a -> a l 0", "1 A", "7"]
    let marked : Text := " >07 a\r"
    let leaving : Text := "7 b_ -> _ - 1"
    let zero : State := ⟨0, .none, [⟨7, .right, .text "b", [.text "a"]⟩]⟩
    let seven : State := ⟨7, .none, [⟨1, .stay, .text "_", [.text "b", .text "_"]⟩, ⟨0, .left, .text "a", [.text "a"]⟩]⟩
    let d : Definition := {
      configuration := { states := [zero, seven, ⟨1, .accept, []⟩], start := Label.ofId 7 }
      charset := ["a", "b", "_"]
      blank := some "_" }
    ofLines (above ++ marked :: leaving :: below) = .ok d ∧
      ∃ d', ofLines (above ++ leaving :: marked :: below) = .ok d' ∧ d.same d' = true ∧
        d'.configuration.find? 7 = some seven ∧
        d'.runInput "ba" (.int 9) false = .ok ⟨"ba", .accepted, 1, 0, 1, "a"⟩ := by
  intro above below marked leaving zero seven d
  have read : ofLines (above ++ marked :: leaving :: below) = .ok d := by decide +kernel
  have formA := (Line.read_iff (Line.trimmed marked) (.state true "07" .accept)).mp (by decide +kernel)
  have formB := (Line.read_iff (Line.trimmed leaving) (.transition "7" "b_" '_' .stay "1")).mp (by decide +kernel)
  obtain ⟨d', returned, same, _, found, _, _, runs⟩ :=
    exchanged_declarations_mean_the_same above below marked leaving _ _ formA formB (.stateFirst ..) d read
  exact ⟨read, d', returned, same, by rw [found]; decide +kernel, by rw [runs]; decide +kernel⟩

end Definition

end TapeMachine
