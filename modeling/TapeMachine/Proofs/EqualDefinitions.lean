import Mathlib.Data.List.Perm.Subperm
import TapeMachine.Proofs.Policies

set_option autoImplicit false

namespace TapeMachine

theorem perm_of_subset {α : Type} (xs ys : List α) (distinct : xs.Nodup) (inside : xs ⊆ ys)
    (sizes : xs.length = ys.length) :
    xs.Perm ys :=
  (List.subperm_of_subset distinct inside).perm_of_length_le (Nat.le_of_eq sizes.symm)

namespace State

/-- No symbol is read by two transitions. -/
def Unambiguous (s : State) : Prop :=
  ∀ t ∈ s.transitions, ∀ u ∈ s.transitions, ∀ x ∈ t.inputs, x ∈ u.inputs → t = u

instance (s : State) : Decidable s.Unambiguous :=
  inferInstanceAs (Decidable (∀ t ∈ s.transitions, ∀ u ∈ s.transitions, ∀ x ∈ t.inputs, x ∈ u.inputs → t = u))

structure Equal (s u : State) : Prop where
  id : s.id = u.id
  acceptance : s.acceptance = u.acceptance
  sizes : s.transitions.length = u.transitions.length
  toward : ∀ t ∈ s.transitions, u.towardId? t.target = some t

theorem same_iff (s u : State) : s.same u = true ↔ s.Equal u := by
  simp only [same, Bool.and_eq_true, decide_eq_true_eq, List.all_eq_true]
  constructor
  · rintro ⟨⟨⟨id, acceptance⟩, sizes⟩, toward⟩
    exact ⟨id, acceptance, sizes, toward⟩
  · rintro ⟨id, acceptance, sizes, toward⟩
    exact ⟨⟨⟨id, acceptance⟩, sizes⟩, toward⟩

variable (s u : State) (equal : s.Equal u)

include equal

theorem equal_perm (good : s.WellFormed) : s.transitions.Perm u.transitions :=
  perm_of_subset _ _ (List.Nodup.of_map _ good.targets)
    (fun t mem => List.mem_of_find?_eq_some (equal.toward t mem)) equal.sizes

theorem equal_reads (good : s.WellFormed) (x : Symbol) : (s.next? x).isSome = (u.next? x).isSome := by
  have members (t : Transition) : t ∈ s.transitions ↔ t ∈ u.transitions := (equal_perm s u equal good).mem_iff
  rw [Bool.eq_iff_iff, next?, next?, List.find?_isSome, List.find?_isSome]
  simp only [members]

theorem equal_next (good : u.WellFormed) (x : Symbol)
    (targets : (s.next? x).map Transition.target = (u.next? x).map Transition.target) :
    s.next? x = u.next? x := by
  cases chosen : s.next? x with
  | none =>
      rw [chosen, Option.map_none] at targets
      exact (Option.map_eq_none_iff.mp targets.symm).symm
  | some t =>
      rw [chosen, Option.map_some] at targets
      obtain ⟨v, found, same⟩ := Option.map_eq_some_iff.mp targets.symm
      have first := equal.toward t (List.mem_of_find?_eq_some chosen)
      have second : u.towardId? v.target = some v :=
        find_keyed Transition.target u.transitions v good.targets (List.mem_of_find?_eq_some found)
      rw [same, first] at second
      rw [found, second]

theorem unambiguous_next (good : s.WellFormed) (unambiguous : s.Unambiguous) (x : Symbol) : s.next? x = u.next? x := by
  have reads := equal_reads s u equal good x
  cases chosen : s.next? x with
  | none =>
      rw [chosen] at reads
      exact (Option.not_isSome_iff_eq_none.mp (by simp [← reads])).symm
  | some t =>
      rw [chosen] at reads
      obtain ⟨v, found⟩ := Option.isSome_iff_exists.mp reads.symm
      have inside := (equal_perm s u equal good).mem_iff.mpr (List.mem_of_find?_eq_some found)
      have first : x ∈ t.inputs := by simpa [Transition.reads] using List.find?_some chosen
      have second : x ∈ v.inputs := by simpa [Transition.reads] using List.find?_some found
      rw [found, unambiguous t (List.mem_of_find?_eq_some chosen) v inside x first second]

end State

namespace Configuration

/-- Where the state with an id goes on a symbol: the target of the first of its transitions that read it. -/
def choice? (c : Configuration) (id : Int) (x : Symbol) : Option Nat :=
  ((c.find? id).bind (·.next? x)).map Transition.target

def Unambiguous (c : Configuration) : Prop := ∀ s ∈ c.states, s.Unambiguous

instance (c : Configuration) : Decidable c.Unambiguous := inferInstanceAs (Decidable (∀ s ∈ c.states, s.Unambiguous))

theorem get_transition_find (c : Configuration) (label : Label) (x : Symbol) :
    c.getTransition label x =
      if label.isKey then
        match label.id?.bind c.find? with
        | none => .error (.noState label)
        | some s => match s.next? x with
          | none => .error (.noTransition label x)
          | some t => .ok t
      else .error (.noKey label) := by
  by_cases key : label.isKey = true
  · cases found : label.id?.bind c.find? with
    | none =>
        simp only [getTransition, get, named?, key, found, if_true, ok_bind]
        rfl
    | some s =>
        simp only [getTransition, get, named?, key, found, if_true, ok_bind, pure_ok]
        cases s.next? x <;> rfl
  · simp only [getTransition, get, named?, key, Bool.false_eq_true, if_false, error_bind]

structure Equal (a b : Configuration) : Prop where
  left : a.WellFormed
  right : b.WellFormed
  sizes : a.states.length = b.states.length
  found : ∀ s ∈ a.states, ∃ u, b.find? s.id = some u ∧ s.same u = true

theorem equal_of_same (a b : Configuration) (left : a.WellFormed) (right : b.WellFormed)
    (same : a.same b = true) : a.Equal b := by
  simp only [Configuration.same, Bool.and_eq_true, decide_eq_true_eq, List.all_eq_true] at same
  refine ⟨left, right, same.1.2, ?_⟩
  intro s mem
  have held := same.2 s mem
  cases found : b.find? s.id with
  | none =>
      rw [found] at held
      cases held
  | some u =>
      rw [found] at held
      exact ⟨u, rfl, held⟩

variable (a b : Configuration) (equal : a.Equal b)

include equal

theorem equal_ids : (a.states.map State.id).Perm (b.states.map State.id) := by
  apply perm_of_subset _ _ equal.left.ids
  · intro id mem
    obtain ⟨s, known, rfl⟩ := List.mem_map.mp mem
    obtain ⟨u, found, _⟩ := equal.found s known
    exact (find_some_iff b s.id).mp (Option.isSome_iff_exists.mpr ⟨u, found⟩)
  · rw [List.length_map, List.length_map, equal.sizes]

theorem equal_find (id : Int) :
    (a.find? id = none ∧ b.find? id = none) ∨
      ∃ s u, a.find? id = some s ∧ b.find? id = some u ∧ s.WellFormed ∧ u.WellFormed ∧ s.Equal u := by
  cases first : a.find? id with
  | none =>
      refine .inl ⟨rfl, ?_⟩
      by_contra present
      obtain ⟨u, second⟩ := Option.ne_none_iff_exists'.mp present
      obtain ⟨known, rfl⟩ := find_mem b id u second
      have shared := (equal_ids a b equal).mem_iff.mpr (List.mem_map_of_mem known)
      have there := (find_some_iff a u.id).mpr shared
      rw [first] at there
      cases there
  | some s =>
      obtain ⟨known, rfl⟩ := find_mem a id s first
      obtain ⟨u, second, same⟩ := equal.found s known
      have good := equal.right.states u (find_mem b s.id u second).1
      exact .inr ⟨s, u, rfl, second, equal.left.states s known, good, (State.same_iff s u).mp same⟩

theorem get_transition_same_choice (label : Label) (x : Symbol) :
    a.getTransition label x = b.getTransition label x ↔
      ∀ id : Nat, label.names id = true → a.choice? id x = b.choice? id x := by
  rw [get_transition_find, get_transition_find]
  have named (id : Nat) : label.names id = true ↔ label.id? = some (id : Int) := by simp [Label.names]
  simp only [named]
  cases value : label.id? with
  | none => simp
  | some id =>
      have key : label.isKey = true := by
        cases label <;> first | rfl | cases value
      simp only [key, if_true, Option.bind_some, Option.some.injEq]
      rcases equal_find a b equal id with ⟨first, second⟩ | ⟨s, u, first, second, _, other, same⟩
      · refine iff_of_true (by rw [first, second]) ?_
        rintro n rfl
        simp only [choice?, first, second]
      · obtain ⟨_, rfl⟩ := find_mem a id s first
        simp only [first, second, Int.ofNat_inj, forall_eq', choice?, Option.bind_some]
        constructor
        · intro answers
          cases chosen : s.next? x with
          | none =>
              cases taken : u.next? x with
              | none => rfl
              | some v =>
                  rw [chosen, taken] at answers
                  cases answers
          | some t =>
              cases taken : u.next? x with
              | none =>
                  rw [chosen, taken] at answers
                  cases answers
              | some v =>
                  rw [chosen, taken] at answers
                  cases answers
                  rfl
        · intro targets
          rw [State.equal_next s u same other x targets]

theorem unambiguous_same_choice (unambiguous : a.Unambiguous) (id : Int) (x : Symbol) :
    a.choice? id x = b.choice? id x := by
  rcases equal_find a b equal id with ⟨first, second⟩ | ⟨s, u, first, second, good, other, same⟩
  · simp only [choice?, first, second]
  · have alike := State.unambiguous_next s u same good (unambiguous s (find_mem a id s first).1) x
    simp only [choice?, first, second, Option.bind_some, alike]

end Configuration

namespace Machine

structure Twin (m m' : Machine) : Prop where
  state : m.state.Equal m'.state
  rest : m' = { m with state := m'.state }

variable (a b : Configuration) (equal : a.Equal b)

include equal

theorem enabled_twin (m m' : Machine) (twin : m.Twin m')
    (alike : a.choice? m.state.id (m.tape.read m.head) = b.choice? m.state.id (m.tape.read m.head)) :
    (m.enabled? a = none ∧ m'.enabled? b = none) ∨
      ∃ t target target', m.enabled? a = some (t, target) ∧ m'.enabled? b =
      some (t, target') ∧ target.Equal target' := by
  rw [twin.rest]
  simp only [enabled?, ← twin.state.id, Option.bind_eq_bind, Option.pure_def]
  rcases Configuration.equal_find a b equal m.state.id with ⟨first, second⟩ | ⟨s, u, first, second, good, other, same⟩
  · exact .inl ⟨by rw [first]; rfl, by rw [second]; rfl⟩
  · simp only [Configuration.choice?, first, second, Option.bind_some] at alike
    have chosen := State.equal_next s u same other _ alike
    simp only [first, second, Option.bind_some, ← chosen]
    cases s.next? (m.tape.read m.head) with
    | none => exact .inl ⟨rfl, rfl⟩
    | some t =>
        simp only [Option.bind_some]
        rcases Configuration.equal_find a b equal t.target with
          ⟨missing, gone⟩ | ⟨target, target', known, there, _, _, alike⟩
        · exact .inl ⟨by rw [missing]; rfl, by rw [gone]; rfl⟩
        · exact .inr ⟨t, target, target', by rw [known]; rfl, by rw [there]; rfl, alike⟩

omit equal in
theorem verdict_equal (s u : State) (same : s.Equal u) : verdict s = verdict u := by
  obtain ⟨_, acceptance, _⟩ := s
  obtain ⟨_, other, _⟩ := u
  obtain rfl : acceptance = other := same.acceptance
  rfl

theorem next_twin (m m' : Machine) (twin : m.Twin m')
    (alike : m.isActive = true → a.choice? m.state.id (m.tape.read m.head) = b.choice? m.state.id
      (m.tape.read m.head)) :
    (m.next a).Twin (m'.next b) := by
  have enabled (moves : m.isActive = true) := enabled_twin a b equal m m' twin (alike moves)
  obtain ⟨state, rest⟩ := twin
  generalize m'.state = entered at state rest
  subst rest
  have active : ({ m with state := entered } : Machine).isActive = m.isActive := rfl
  by_cases moves : m.isActive = true
  · rw [next, next, active, if_pos moves, if_pos moves]
    rcases enabled moves with ⟨first, second⟩ | ⟨t, target, target', first, second, same⟩
    · rw [first, second]
      exact ⟨state, rfl⟩
    · rw [first, second]
      refine ⟨same, ?_⟩
      simp only [verdict_equal target target' same]
  · rw [next, next, active, if_neg moves, if_neg moves]
    exact ⟨state, rfl⟩

theorem iterate_twin (m m' : Machine) (n : Nat) (twin : m.Twin m')
    (alike : ∀ i < n, let r := (next a)^[i] m
      r.isActive = true → a.choice? r.state.id (r.tape.read r.head) = b.choice? r.state.id (r.tape.read r.head)) :
    ((next a)^[n] m).Twin ((next b)^[n] m') := by
  induction n with
  | zero => exact twin
  | succ n ih =>
      rw [Function.iterate_succ_apply', Function.iterate_succ_apply']
      have before := ih fun i less => alike i (Nat.lt_succ_of_lt less)
      exact next_twin a b equal _ _ before (alike n (Nat.lt_succ_self n))

end Machine

namespace Definition

/-- At every step that the first definition takes on a word both choose a transition to the same target, or none. -/
def ChoosesAlike (a b : Definition) (word : Text) (bound : Json) (permissive : Bool) : Prop :=
  ∀ blank s steps, a.prepared word bound = .ok (blank, s, steps) → ∀ i < steps,
    let m := (Machine.next a.configuration)^[i] (inscribedMachine blank s permissive word)
    m.isActive = true → a.configuration.choice? m.state.id
      (m.tape.read m.head) = b.configuration.choice? m.state.id (m.tape.read m.head)

structure Equal (a b : Definition) : Prop where
  control : a.configuration.Equal b.configuration
  start : ∃ n, a.configuration.start = Label.ofId n ∧ b.configuration.start = Label.ofId n
  charset : a.charset = b.charset
  blank : a.blank = b.blank

theorem equal_of_written (a b : Definition) (left : a.Written) (right : b.Written)
    (same : a.same b = true) : a.Equal b := by
  simp only [Definition.same, Bool.and_eq_true, decide_eq_true_eq] at same
  obtain ⟨⟨⟨control, charset⟩, blank⟩, _⟩ := same
  refine ⟨Configuration.equal_of_same _ _ left.control right.control control, ?_, charset, blank⟩
  obtain ⟨n, starts, _⟩ := left.start
  obtain ⟨k, begins, _⟩ := right.start
  simp only [Configuration.same, Bool.and_eq_true] at control
  have labels := control.1.1
  rw [starts, begins] at labels
  have same : (n : Int) = k := by simpa [Label.same, Json.sameKey, Label.ofId, Json.asInt?] using labels
  exact ⟨n, starts, by rw [begins, Int.ofNat_inj.mp same]⟩

variable (a b : Definition) (equal : a.Equal b)

include equal

theorem equal_start :
    (∃ fault, a.configuration.startState = .error fault ∧ b.configuration.startState = .error fault) ∨
      ∃ s u, a.configuration.startState = .ok s ∧ b.configuration.startState = .ok u ∧ s.Equal u := by
  obtain ⟨n, starts, begins⟩ := equal.start
  have key : Json.isKey (Label.ofId n) = true := rfl
  have value : Label.id? (Label.ofId n) = some (n : Int) := rfl
  simp only [Configuration.startState, starts, begins, Configuration.get, Configuration.named?, key, value,
    if_true, Option.bind_some]
  rcases Configuration.equal_find _ _ equal.control n with ⟨first, second⟩ | ⟨s, u, first, second, _, _, same⟩
  · exact .inl ⟨.noState (Label.ofId n), by rw [first]; rfl, by rw [second]; rfl⟩
  · exact .inr ⟨s, u, by rw [first]; rfl, by rw [second]; rfl, same⟩

theorem equal_prepared (word : Text) (bound : Json) :
    (∃ fault, a.prepared word bound = .error fault ∧ b.prepared word bound = .error fault) ∨
      ∃ blank s u steps, a.prepared word bound = .ok (blank, s, steps) ∧ b.prepared word bound =
      .ok (blank, u, steps) ∧ s.Equal u := by
  have foreign : a.foreignInputs word = b.foreignInputs word := by simp only [foreignInputs, declares, equal.charset]
  simp only [prepared, foreign, equal.blank]
  cases b.blank with
  | none => exact .inl ⟨.noBlank, rfl, rfl⟩
  | some blank =>
      cases b.foreignInputs word with
      | cons symbol others => exact .inl ⟨.foreignInput word (symbol :: others), rfl, rfl⟩
      | nil =>
          rcases equal_start a b equal with ⟨fault, first, second⟩ | ⟨s, u, first, second, same⟩
          · exact .inl ⟨.lookup fault, by rw [first], by rw [second]⟩
          · rw [first, second]
            cases Quantity.stepBound bound with
            | error fault => exact .inl ⟨.quantity fault, rfl, rfl⟩
            | ok steps => exact .inr ⟨blank, s, u, steps, rfl, rfl, same⟩

theorem run_input_choosing_alike (word : Text) (bound : Json) (permissive : Bool)
    (alike : a.ChoosesAlike b word bound permissive) :
    a.runInput word bound permissive = b.runInput word bound permissive := by
  rw [run_input_prepared, run_input_prepared]
  rcases equal_prepared a b equal word bound with ⟨fault, first, second⟩ | ⟨blank, s, u, steps, first, second, same⟩
  · rw [first, second]
    rfl
  · have begun : (inscribedMachine blank s permissive word).Twin
      (inscribedMachine blank u permissive word) := ⟨same, rfl⟩
    have ended := Machine.iterate_twin _ _ equal.control _ _ steps begun (alike blank s steps first)
    rw [first, second]
    simp only [ok_bound, Machine.run_iterate]
    rw [ended.rest]
    simp only [concluded, ended.state.id]

omit equal in
/-- Two definitions that were read and are equal give the same transition exactly where they choose
the same target. A run ends the same if they do so at each of its steps; and they always do where no
state reads a symbol in two ways. -/
theorem equal_definitions_agree_where_choices_do (textA textB : Text) (linesA linesB : List Text)
    (readA : ofText textA = .ok a ∨ ofLines linesA = .ok a) (readB : ofText textB = .ok b ∨ ofLines linesB = .ok b)
    (same : a.same b = true) :
    (∀ label x, a.configuration.getTransition label x = b.configuration.getTransition label x ↔
      ∀ id : Nat, label.names id = true → a.configuration.choice? id x = b.configuration.choice? id x) ∧
    (∀ word bound permissive, a.ChoosesAlike b word bound permissive →
      a.runInput word bound permissive = b.runInput word bound permissive) ∧
    (a.configuration.Unambiguous →
      (∀ label x, a.configuration.getTransition label x = b.configuration.getTransition label x) ∧
      ∀ word bound permissive, a.runInput word bound permissive = b.runInput word bound permissive) := by
  have written (text : Text) (lines : List Text) (d : Definition)
    (read : ofText text = .ok d ∨ ofLines lines = .ok d) : d.Written :=
    read.elim (of_lines_written (Text.splitLines text) d) (of_lines_written lines d)
  have equal := equal_of_written a b (written textA linesA a readA) (written textB linesB b readB) same
  have answers := Configuration.get_transition_same_choice a.configuration b.configuration equal.control
  have runs := run_input_choosing_alike a b equal
  refine ⟨answers, runs, ?_⟩
  intro unambiguous
  have choices := Configuration.unambiguous_same_choice _ _ equal.control unambiguous
  refine ⟨?_, ?_⟩
  · intro label x
    exact (answers label x).mpr fun id _ => choices id x
  · intro word bound permissive
    exact runs word bound permissive fun _ _ _ _ _ _ _ => choices _ _

omit equal

def accepting : State := { id := 1, acceptance := .accept }

def rejecting : State := { id := 2, acceptance := .reject }

def toAccept (inputs : List Symbol) : Transition := ⟨1, .right, .text "a", inputs⟩

def toReject : Transition := ⟨2, .stay, .text "_", [.text "a"]⟩

def deciding (states : List State) : Definition where
  configuration := { states := states }
  charset := ["a", "b", "_"]
  blank := some "_"

def crossing (ts : List Transition) : Definition := deciding [{ id := 0, transitions := ts }, accepting, rejecting]

def crossingText : Text := "%charset a b _\n%blank _\n> 0\n1 A\n2 R\n0 ab -> a r 1\n0 a -> _ - 2"

def crossingTurnedText : Text := "%charset a b _\n%blank _\n> 0\n1 A\n2 R\n0 a -> _ - 2\n0 ab -> a r 1"

theorem read_crossing : ofText crossingText =
    .ok (crossing [toAccept [.text "a", .text "b"], toReject]) := by decide +kernel

theorem read_crossing_turned : ofText crossingTurnedText =
    .ok (crossing [toReject, toAccept [.text "a", .text "b"]]) := by
  decide +kernel

theorem equal_definitions_part_at_crossing :
    let a := crossing [toAccept [.text "a", .text "b"], toReject]
    let b := crossing [toReject, toAccept [.text "a", .text "b"]]
    ofText crossingText = .ok a ∧ ofText crossingTurnedText = .ok b ∧ a.same b = true ∧
      a.configuration.getTransition (Label.ofId 0) (.text "a") = .ok (toAccept [.text "a", .text "b"]) ∧
      b.configuration.getTransition (Label.ofId 0) (.text "a") = .ok toReject ∧
      a.runInput "a" (.int 10) false = .ok ⟨"a", .accepted, 1, 1, 1, "a"⟩ ∧
      b.runInput "a" (.int 10) false = .ok ⟨"a", .rejected, 1, 0, 2, []⟩ := by
  intro a b
  refine ⟨read_crossing, read_crossing_turned, ?_, ?_, ?_, ?_, ?_⟩ <;> decide +kernel

theorem equal_definitions_agree_beside_crossing :
    (let a := crossing [toAccept [.text "a", .text "b"], toReject]
    let b := crossing [toReject, toAccept [.text "a", .text "b"]]
    ofText crossingText = .ok a ∧ ofText crossingTurnedText = .ok b ∧ a.same b = true ∧
      a.ChoosesAlike b "b" (.int 2) false ∧ a.runInput "b" (.int 2) false = b.runInput "b" (.int 2) false) ∧
    let text : Text := "%charset a b _\n%blank _\n> 0\n1 A\n2 R\n0 b -> a r 1\n0 a -> _ - 2"
    let turned : Text := "%charset a b _\n%blank _\n2 R\n1 A\n> 0\n0 a -> _ - 2\n0 b -> a r 1"
    let a := deciding [{ id := 0, transitions := [toAccept [.text "b"], toReject] }, accepting, rejecting]
    let b := deciding [rejecting, accepting, { id := 0, transitions := [toReject, toAccept [.text "b"]] }]
    ofText text = .ok a ∧ ofText turned = .ok b ∧ a.same b = true ∧ a.configuration.Unambiguous ∧
      a.configuration.getTransition (.bool false) (.text "a") = b.configuration.getTransition
        (.bool false) (.text "a") ∧
      a.runInput "a" (.int 10) false = b.runInput "a" (.int 10) false := by
  constructor
  · intro a b
    have same : a.same b = true := by decide +kernel
    have alike : a.ChoosesAlike b "b" (.int 2) false := by
      intro blank s steps ready
      cases ready
      decide +kernel
    have agree := equal_definitions_agree_where_choices_do a b _ _ [] [] (.inl read_crossing)
      (.inl read_crossing_turned) same
    exact ⟨read_crossing, read_crossing_turned, same, alike, agree.2.1 "b" (.int 2) false alike⟩
  · intro text turned a b
    have readA : ofText text = .ok a := by decide +kernel
    have readB : ofText turned = .ok b := by decide +kernel
    have same : a.same b = true := by decide +kernel
    have unambiguous : a.configuration.Unambiguous := by decide +kernel
    have agree :=
      (equal_definitions_agree_where_choices_do a b _ _ [] [] (.inl readA) (.inl readB) same).2.2 unambiguous
    exact ⟨readA, readB, same, unambiguous, agree.1 (.bool false) (.text "a"), agree.2 "a" (.int 10) false⟩

end Definition

end TapeMachine
