import TapeMachine.Proofs.Merging
import TapeMachine.Proofs.WrittenDefinition

set_option autoImplicit false

namespace TapeMachine

theorem first_seen_snoc {α : Type} [DecidableEq α] (xs : List α) (a : α) :
    firstSeen (xs ++ [a]) = if a ∈ xs then firstSeen xs else firstSeen xs ++ [a] := by
  induction xs with
  | nil => simp [firstSeen]
  | cons x xs ih =>
      rw [List.cons_append, firstSeen, firstSeen, ih]
      by_cases old : a ∈ xs
      · simp [old]
      · by_cases same : a = x
        · subst same
          simp [old]
        · simp [old, same]

namespace Transition

theorem gather_snoc (ts : List Transition) (t : Transition) : gather (ts ++ [t]) = t.deduplicated.file (gather ts) := by
  rw [← file_all_gather, ← file_all_gather, List.map_append, fileAll, List.foldl_append]
  rfl

def toward? (ts : List Transition) (target : Nat) : Option Transition :=
  match ts.filter fun t => t.target = target with
  | [] => none
  | t :: us => some { t with inputs := firstSeen ((t :: us).flatMap inputs) }

def joined (ts : List Transition) : List Transition := (firstSeen (ts.map target)).filterMap (toward? ts)

theorem toward_target (ts : List Transition) (target : Nat) (u : Transition) (found : toward? ts target = some u) :
    u.target = target := by
  rw [toward?] at found
  split at found
  · simp at found
  · rename_i t us chosen
    cases found
    have mem : t ∈ ts.filter fun t => t.target = target := by rw [chosen]; exact List.mem_cons_self
    simpa using (List.mem_filter.mp mem).2

theorem toward_cons_other (t : Transition) (ts : List Transition) (target : Nat) (different : target ≠ t.target) :
    toward? (t :: ts) target = toward? ts target := by
  rw [toward?, toward?, List.filter_cons_of_neg (by simpa using Ne.symm different)]

theorem joined_gather (ts : List Transition) : joined ts = gather ts := by
  induction ts with
  | nil => rfl
  | cons t rest ih =>
      have first : toward? (t :: rest) t.target = some
          { t with inputs := firstSeen (t.inputs ++ (rest.filter fun u => u.target = t.target).flatMap inputs) } := by
        rw [toward?, List.filter_cons_of_pos (by simp)]
        rfl
      have others : ((firstSeen (rest.map target)).filter (· ≠ t.target)).filterMap (toward? (t :: rest)) =
          ((firstSeen (rest.map target)).filter (· ≠ t.target)).filterMap (toward? rest) := by
        apply List.filterMap_congr
        intro target mem
        exact toward_cons_other t rest target (by simpa using (List.mem_filter.mp mem).2)
      have kept (targets : List Nat) : (targets.filter (· ≠ t.target)).filterMap (toward? rest) =
          (targets.filterMap (toward? rest)).filter fun u => u.target ≠ t.target := by
        induction targets with
        | nil => rfl
        | cons n ns more =>
            cases found : toward? rest n with
            | none => by_cases same : n = t.target <;> simp_all
            | some u =>
                have at_target := toward_target rest n u found
                by_cases same : n = t.target <;> simp_all
      rw [gather, ← ih, joined, joined, List.map_cons, firstSeen, List.filterMap_cons, first, others, kept]

end Transition

namespace Line

def symbols : Line → List CodePoint
  | .charset symbols => symbols
  | _ => []

def blankSymbol? : Line → Option Text
  | .blank c => some [c]
  | _ => none

def word? : Line → Option Text
  | .memory word => some word
  | _ => none

def startId? : Line → Option Nat
  | .state true id _ => some (numeralValue id)
  | _ => none

/-- The state that a line declares or that its transition leaves. -/
def stateId? : Line → Option Nat
  | .state _ id _ => some (numeralValue id)
  | .transition source _ _ _ _ => some (numeralValue source)
  | _ => none

def tagOf? (id : Nat) : Line → Option Acceptance
  | .state _ digits acceptance => if numeralValue digits = id then some acceptance else none
  | _ => none

def leaving? (id : Nat) : Line → Option Transition
  | .transition source inputs output action target =>
      if numeralValue source = id then some ⟨numeralValue target, action, .char output,
        inputs.map Symbol.char⟩ else none
  | _ => none

theorem nothing_of (line : Line) (id : Nat) (other : line.stateId? ≠ some id) :
    line.tagOf? id = none ∧ line.leaving? id = none := by
  cases line <;> simp_all [stateId?, tagOf?, leaving?]

end Line

namespace Definition

def stateOf (lines : List Line) (id : Nat) : State where
  id := id
  acceptance := ((lines.filterMap (Line.tagOf? id)).getLast?).getD .none
  transitions := Transition.joined (lines.filterMap (Line.leaving? id))

def meaning (lines : List Line) : Definition where
  charset := (firstSeen (lines.flatMap Line.symbols)).map ([·])
  blank := (lines.filterMap Line.blankSymbol?).getLast?
  memory := (lines.filterMap Line.word?).getLast?
  configuration := {
    states := (firstSeen (lines.filterMap Line.stateId?)).map (stateOf lines)
    start := Label.ofId (((lines.filterMap Line.startId?).getLast?).getD 0) }

theorem read_id_value (digits : Text) (id : Nat) (read : readId digits = .ok id) : id = numeralValue digits := by
  rw [readId] at read
  split at read
  · simp at read
  · cases read
    rfl

theorem declare_meaning (configuration : Configuration) (blank memory : Option Text) (known symbols : List CodePoint) :
    declare { configuration, blank, memory, charset := (firstSeen known).map ([·]) } symbols =
      { configuration, blank, memory, charset := (firstSeen (known ++ symbols)).map ([·]) } := by
  simp only [declare]
  induction symbols generalizing known with
  | nil => simp
  | cons c cs ih =>
      have next : (if ((firstSeen known).map ([·])).contains [c] then (firstSeen known).map ([·])
          else (firstSeen known).map ([·]) ++ [[c]]) = (firstSeen (known ++ [c])).map ([·]) := by
        by_cases old : c ∈ known <;> simp [first_seen_snoc, old]
      rw [List.foldl_cons, next, ih]
      simp

theorem state_of_absent (lines : List Line) (id : Nat) (absent : id ∉ lines.filterMap Line.stateId?) :
    stateOf lines id = ⟨id, .none, []⟩ := by
  have silent (line : Line) (mem : line ∈ lines) : line.tagOf? id = none ∧ line.leaving? id = none := by
    apply line.nothing_of id
    intro same
    exact absent (List.mem_filterMap.mpr ⟨line, mem, same⟩)
  have tags : lines.filterMap (Line.tagOf? id) = [] := List.filterMap_eq_nil_iff.mpr fun line mem => (silent line mem).1
  have leavings : lines.filterMap (Line.leaving? id) = [] := List.filterMap_eq_nil_iff.mpr
    fun line mem => (silent line mem).2
  rw [stateOf, tags, leavings]
  rfl

theorem find_named (lines : List Line) (id : Nat) (named : id ∈ lines.filterMap Line.stateId?) :
    (meaning lines).configuration.find? id = some (stateOf lines id) := by
  apply find_keyed State.id (meaning lines).configuration.states (stateOf lines id)
  · simpa [meaning, Function.comp_def, stateOf] using first_seen_nodup (lines.filterMap Line.stateId?)
  · exact List.mem_map_of_mem ((mem_first_seen id _).mpr named)

theorem find_meaning (lines : List Line) (id : Nat) :
    ((meaning lines).configuration.find? id).getD ⟨id, .none, []⟩ = stateOf lines id := by
  by_cases named : id ∈ lines.filterMap Line.stateId?
  · rw [find_named lines id named, Option.getD_some]
  · have missing := Configuration.find_none (meaning lines).configuration id
      (by simpa [meaning, Function.comp_def, stateOf] using named)
    rw [missing, Option.getD_none, state_of_absent lines id named]

theorem place_meaning (before after : Nat → State) (ids : List Nat) (id : Nat) (keyed : ∀ n, (before n).id = n)
    (own : (after id).id = id) (others : ∀ n, n ≠ id → after n = before n) :
    Configuration.place (after id) ((firstSeen ids).map before) = (firstSeen (ids ++ [id])).map after := by
  have distinct := first_seen_nodup ids
  have member := mem_first_seen id ids
  rw [first_seen_snoc]
  by_cases old : id ∈ ids
  · rw [if_pos old]
    obtain ⟨front, back, split⟩ := List.append_of_mem (member.mpr old)
    rw [split] at distinct ⊢
    have apart := List.nodup_middle.mp distinct
    rw [List.nodup_cons, List.mem_append, not_or] at apart
    have same (ns : List Nat) (absent : id ∉ ns) : ns.map before = ns.map after := by
      apply List.map_congr_left
      intro n mem
      exact (others n fun same => absent (same ▸ mem)).symm
    have new : (after id).id ∉ (front.map before).map State.id := by
      simpa [own, Function.comp_def, keyed] using apart.1.1
    rw [List.map_append, List.map_cons, Configuration.place_split _ _ (after id) (before id) (by rw [keyed, own]) new,
      same front apart.1.1, same back apart.1.2, List.map_append, List.map_cons]
  · rw [if_neg old]
    have new : (after id).id ∉ ((firstSeen ids).map before).map State.id := by
      simpa [own, Function.comp_def, keyed] using old
    rw [Configuration.place_new _ _ new, List.map_append, List.map_singleton]
    congr 1
    apply List.map_congr_left
    intro n mem
    exact (others n fun same => old ((mem_first_seen n ids).mp mem |> (same ▸ ·))).symm

theorem last_snoc {α β : Type} (f : α → Option β) (xs : List α) (a : α) :
    ((xs ++ [a]).filterMap f).getLast? = (f a).or (xs.filterMap f).getLast? := by
  cases found : f a <;> simp [found]

theorem state_of_snoc (lines : List Line) (line : Line) (id : Nat) (silent : line.stateId? ≠ some id) :
    stateOf (lines ++ [line]) id = stateOf lines id := by
  obtain ⟨tag, leaving⟩ := Line.nothing_of line id silent
  simp [stateOf, tag, leaving]

theorem meaning_snoc (lines : List Line) (line : Line) :
    meaning (lines ++ [line]) = {
      charset := (firstSeen (lines.flatMap Line.symbols ++ line.symbols)).map ([·])
      blank := line.blankSymbol?.or (meaning lines).blank
      memory := line.word?.or (meaning lines).memory
      configuration := {
        states := (firstSeen (lines.filterMap Line.stateId? ++ line.stateId?.toList)).map (stateOf (lines ++ [line]))
        start := Label.ofId ((line.startId?.or (lines.filterMap Line.startId?).getLast?).getD 0) } } := by
  have ids : (lines ++ [line]).filterMap Line.stateId? = lines.filterMap Line.stateId? ++ line.stateId?.toList := by
    cases named : line.stateId? <;> simp [named]
  simp only [meaning, last_snoc, ids, List.flatMap_append, List.flatMap_singleton]

theorem meaning_snoc_header (lines : List Line) (line : Line) (header : line.stateId? = none)
    (unmarked : line.startId? = none) :
    meaning (lines ++ [line]) = { meaning lines with
      charset := (firstSeen (lines.flatMap Line.symbols ++ line.symbols)).map ([·])
      blank := line.blankSymbol?.or (meaning lines).blank
      memory := line.word?.or (meaning lines).memory } := by
  have states : stateOf (lines ++ [line]) = stateOf lines :=
    funext fun id => state_of_snoc lines line id (by simp [header])
  rw [meaning_snoc, states, header, unmarked]
  simp [meaning]

theorem meaning_snoc_state (lines : List Line) (line : Line) (id : Nat) (names : line.stateId? = some id) :
    meaning (lines ++ [line]) = { meaning lines with
      configuration := { (meaning lines).configuration.add (stateOf (lines ++ [line]) id) with
        start := Label.ofId ((line.startId?.or (lines.filterMap Line.startId?).getLast?).getD 0) } } := by
  have plain : line.symbols = [] ∧ line.blankSymbol? = none ∧ line.word? = none := by
    cases line <;> simp_all [Line.stateId?, Line.symbols, Line.blankSymbol?, Line.word?]
  have placed : Configuration.place (stateOf (lines ++ [line]) id)
    ((firstSeen (lines.filterMap Line.stateId?)).map (stateOf lines)) =
      (firstSeen (lines.filterMap Line.stateId? ++ [id])).map (stateOf (lines ++ [line])) := by
    refine place_meaning (stateOf lines) _ _ id (fun _ => rfl) rfl ?_
    intro n different
    exact state_of_snoc lines line n (by simpa [names] using Ne.symm different)
  rw [meaning_snoc, names, plain.1, plain.2.1, plain.2.2, Option.toList_some, ← placed]
  simp [meaning, Configuration.add]

theorem enter_meaning (lines : List Line) (line : Line) (d : Definition)
    (entered : (meaning lines).enter line = .ok d) :
    d = meaning (lines ++ [line]) := by
  cases line with
  | empty =>
      cases entered
      rw [meaning_snoc_header lines .empty rfl rfl]
      simp [meaning, Line.symbols, Line.blankSymbol?, Line.word?]
  | comment =>
      cases entered
      rw [meaning_snoc_header lines .comment rfl rfl]
      simp [meaning, Line.symbols, Line.blankSymbol?, Line.word?]
  | charset symbols =>
      cases entered
      rw [meaning_snoc_header lines (.charset symbols) rfl rfl]
      exact declare_meaning (meaning lines).configuration (meaning lines).blank (meaning lines).memory _ symbols
  | blank c =>
      rw [enter] at entered
      split at entered
      · cases entered
        rw [meaning_snoc_header lines (.blank c) rfl rfl]
        simp [meaning, Line.symbols, Line.blankSymbol?, Line.word?]
      · simp at entered
  | memory word =>
      obtain ⟨⟨⟩, checked, done⟩ := (bind_ok _ _ _).mp entered
      cases done
      rw [meaning_snoc_header lines (.memory word) rfl rfl]
      simp [meaning, Line.symbols, Line.blankSymbol?, Line.word?]
  | state isStart digits acceptance =>
      obtain ⟨id, named, done⟩ := (bind_ok _ _ _).mp entered
      obtain rfl := read_id_value digits id named
      -- A state that is named again keeps its transitions, which are those of all lines so far.
      have kept : (((meaning lines).configuration.find? (numeralValue digits)).map State.transitions).getD [] =
          (stateOf lines (numeralValue digits)).transitions := by
        rw [← find_meaning lines (numeralValue digits)]
        cases (meaning lines).configuration.find? (numeralValue digits) <;> rfl
      have declared : stateOf (lines ++ [.state isStart digits acceptance]) (numeralValue digits) =
          ⟨numeralValue digits, acceptance, (stateOf lines (numeralValue digits)).transitions⟩ := by
        simp [stateOf, List.filterMap_cons, Line.tagOf?, Line.leaving?]
      rw [meaning_snoc_state lines _ (numeralValue digits) rfl, declared, ← kept]
      cases isStart with
      | false =>
          cases done
          simp [declareState, Configuration.add, meaning, Line.startId?]
      | true =>
          cases done
          simp [declareState, Line.startId?]
  | transition source inputs output action target =>
      obtain ⟨sourceId, sourced, entered⟩ := (bind_ok _ _ _).mp entered
      obtain ⟨⟨⟩, checked, entered⟩ := (bind_ok _ _ _).mp entered
      obtain ⟨targetId, targeted, done⟩ := (bind_ok _ _ _).mp entered
      obtain rfl := read_id_value source sourceId sourced
      obtain rfl := read_id_value target targetId targeted
      cases done
      let t : Transition := ⟨numeralValue target, action, .char output, inputs.map Symbol.char⟩
      have filed : stateOf (lines ++ [.transition source inputs output action target]) (numeralValue source) =
          (stateOf lines (numeralValue source)).withTransition t.deduplicated := by
        simp [stateOf, State.withTransition, List.filterMap_cons, Line.tagOf?, Line.leaving?, Transition.joined_gather,
          Transition.gather_snoc, t]
      rw [meaning_snoc_state lines _ (numeralValue source) rfl, filed, ← find_meaning]
      rfl

/-- The lines of a source, each by its form. -/
def Reads (source : List Text) (lines : List Line) : Prop :=
  source.map (fun raw => Line.read? (Line.trimmed raw)) = lines.map some

theorem reads_forms (source : List Text) (lines : List Line) (reads : Reads source lines) :
    List.Forall₂ (fun raw line => Line.Form (Line.trimmed raw) line) source lines := by
  induction source generalizing lines with
  | nil =>
      cases lines with
      | nil => exact .nil
      | cons line lines => simp [Reads] at reads
  | cons raw rest ih =>
      cases lines with
      | nil => simp [Reads] at reads
      | cons line lines =>
          obtain ⟨first, others⟩ := List.cons_eq_cons.mp reads
          exact .cons (Line.read_form (Line.trimmed raw) line first) (ih lines others)

theorem reads_unique (source : List Text) (lines others : List Line) (first : Reads source lines)
    (second : Reads source others) :
    lines = others :=
  List.map_injective_iff.mpr (fun _ _ => Option.some.inj) (first.symm.trans second)

theorem read_from_meaning (known : List Line) (number : Nat) (source : List Text) (d : Definition)
    (read : (meaning known).readFrom number source = .ok d) : ∃ lines, Reads source lines ∧ d = meaning
    (known ++ lines) := by
  induction source generalizing known number with
  | nil =>
      cases read
      exact ⟨[], rfl, by rw [List.append_nil]⟩
  | cons raw rest ih =>
      rw [readFrom, enterText] at read
      cases formed : Line.read? (Line.trimmed raw) with
      | none => simp [formed] at read
      | some line =>
          cases entered : (meaning known).enter line with
          | error fault => simp [formed, entered] at read
          | ok next =>
              simp only [formed, entered] at read
              rw [enter_meaning known line next entered] at read
              obtain ⟨lines, reads, same⟩ := ih (known ++ [line]) (number + 1) read
              refine ⟨line :: lines, ?_, by rw [same, List.append_assoc, List.singleton_append]⟩
              rw [Reads, List.map_cons, formed, reads, List.map_cons]

theorem of_lines_meaning (source : List Text) (d : Definition) (read : ofLines source = .ok d) :
    ∃ lines, Reads source lines ∧ d = meaning lines := read_from_meaning [] 1 source d read

theorem of_source_meaning (text : Text) (source : List Text) (d : Definition)
    (read : (ofText text = .ok d ∧ source = Text.splitLines text) ∨ ofLines source = .ok d) :
    ∃ lines, Reads source lines ∧ d = meaning lines := by
  rcases read with ⟨read, rfl⟩ | read
  · exact of_lines_meaning _ d read
  · exact of_lines_meaning source d read

/-- A text or lines that are taken are read as the definition that all their lines together mean. -/
theorem accepted_source_is_read_by_its_meaning (text : Text) (source : List Text) (d : Definition)
    (read : (ofText text = .ok d ∧ source = Text.splitLines text) ∨ ofLines source = .ok d) :
    ∃ lines, Reads source lines ∧ List.Forall₂ (fun raw line => Line.Form (Line.trimmed raw) line) source lines ∧
      d = meaning lines := by
  obtain ⟨lines, reads, meant⟩ := of_source_meaning text source d read
  exact ⟨lines, reads, reads_forms source lines reads, meant⟩

theorem scattered_source_is_read_by_its_meaning :
    let text : Text :=
  "%charset ab b _\n7 a -> b r 3\n%charset a cd\n> 7 A\n%blank b\n7 bb -> a l 7\n; 9\n\n3\n7 cac -> c l 3\n7 r\n%blank _"
    let lines : List Line := [.charset ['a', 'b', '_'], .transition "7" "a" 'b' .right "3", .charset ['a', 'c'],
      .state true "7" .accept, .blank 'b', .transition "7" "bb" 'a' .left "7", .comment, .empty, .state false "3" .none,
      .transition "7" "cac" 'c' .left "3", .state false "7" .reject, .blank '_']
    let d : Definition := {
      configuration := {
        states := [
          ⟨7, .reject, [⟨3, .right, .text "b", [.text "a", .text "c"]⟩, ⟨7, .left, .text "a", [.text "b"]⟩]⟩,
          ⟨3, .none, []⟩]
        start := Label.ofId 7 }
      charset := ["a", "b", "_", "c"]
      blank := some "_" }
    ofText text = .ok d ∧ Reads (Text.splitLines text) lines ∧
      List.Forall₂ (fun raw line => Line.Form (Line.trimmed raw) line) (Text.splitLines text) lines ∧
        d = meaning lines := by
  intro text lines d
  have read : ofText text = .ok d := by decide +kernel
  have reads : Reads (Text.splitLines text) lines := by
    unfold Reads
    decide +kernel
  obtain ⟨others, same, forms, meant⟩ := accepted_source_is_read_by_its_meaning text _ d (.inl ⟨read, rfl⟩)
  have one := reads_unique _ others lines same reads
  exact ⟨read, reads, one ▸ forms, one ▸ meant⟩

end Definition

end TapeMachine
