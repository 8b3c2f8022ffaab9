import TapeMachine.Proofs.Meaning

set_option autoImplicit false

namespace TapeMachine

theorem find_first_seen {α : Type} [DecidableEq α] (p : α → Bool) (xs : List α) :
    (firstSeen xs).find? p = xs.find? p := by
  induction xs with
  | nil => rfl
  | cons a rest ih =>
      rw [firstSeen, List.find?_cons, List.find?_cons]
      cases hit : p a with
      | true => rfl
      | false =>
          have apart : (fun b => decide (decide (b ≠ a) = true ∧ p b = true)) = p := by
            funext b
            by_cases same : b = a <;> simp [same, hit]
          rw [List.find?_filter, apart, ih]

namespace Transition

def readAlong (ts : List Transition) (x : Symbol) (t : Transition) : Bool :=
  ts.any fun u => u.target = t.target && u.reads x

theorem toward_reads (ts : List Transition) (x : Symbol) (target : Nat) :
    (toward? ts target).any (fun u => u.reads x) = ts.any fun u => u.target = target && u.reads x := by
  have chosen : (ts.any fun u => decide (u.target = target) && u.reads x) =
      (ts.filter fun u => u.target = target).any fun u => u.reads x := by rw [List.any_filter]
  rw [chosen, toward?]
  cases (ts.filter fun u => u.target = target) with
  | nil => rfl
  | cons t us =>
      rw [Option.any_some, Bool.eq_iff_iff]
      simp [reads]

theorem find_joined (ts : List Transition) (x : Symbol) :
    (joined ts).find? (fun u => u.reads x) = (ts.find? (readAlong ts x)).bind fun t => toward? ts t.target := by
  rw [joined, List.find?_filterMap]
  simp only [toward_reads]
  rw [find_first_seen, List.find?_map, Option.bind_map]
  rfl

theorem toward_first (ts : List Transition) (t : Transition) (p : Transition → Bool)
    (alike : ∀ u, u.target = t.target → p u = p t)
    (first : ts.find? p = some t) :
    ∃ u, toward? ts t.target = some u ∧ u.target = t.target ∧ u.action = t.action ∧ u.output = t.output := by
  obtain ⟨hit, before, after, rfl, others⟩ := List.find?_eq_some_iff_append.mp first
  have apart : before.filter (fun u => u.target = t.target) = [] := by
    apply List.filter_eq_nil_iff.mpr
    intro u mem same
    have missed := others u mem
    rw [alike u (by simpa using same), hit] at missed
    simp at missed
  rw [toward?, List.filter_append, apart, List.nil_append, List.filter_cons_of_pos (by simp)]
  exact ⟨_, rfl, rfl, rfl, rfl⟩

theorem find_joined_read (ts : List Transition) (x : Symbol) (listed : ∃ u ∈ ts, x ∈ u.inputs) :
    ∃ t u, ts.find? (readAlong ts x) = some t ∧ (joined ts).find? (fun u => u.reads x) = some u ∧
      u.target = t.target ∧ u.action = t.action ∧ u.output = t.output := by
  obtain ⟨v, mem, member⟩ := listed
  have some_hit : (ts.find? (readAlong ts x)).isSome = true := by
    rw [List.find?_isSome]
    refine ⟨v, mem, List.any_eq_true.mpr ⟨v, mem, ?_⟩⟩
    simpa [reads] using member
  obtain ⟨t, first⟩ := Option.isSome_iff_exists.mp some_hit
  have alike (u : Transition) (same : u.target = t.target) : readAlong ts x u = readAlong ts x t := by
    rw [readAlong, readAlong, same]
  obtain ⟨u, found, fields⟩ := toward_first ts t (readAlong ts x) alike first
  refine ⟨t, u, first, ?_, fields⟩
  rw [find_joined, first, Option.bind_some, found]

theorem find_joined_unread (ts : List Transition) (x : Symbol) (unlisted : ∀ u ∈ ts, x ∉ u.inputs) :
    (joined ts).find? (fun u => u.reads x) = none := by
  rw [List.find?_eq_none, joined_gather]
  intro u mem hit
  obtain ⟨t, within, used⟩ := (mem_gather u ts mem).2 x (by simpa [reads] using hit)
  exact unlisted t within used

end Transition

namespace Definition

theorem get_transition_meaning (lines : List Line) (id : Nat) (x : Symbol)
    (named : id ∈ lines.filterMap Line.stateId?) :
    (meaning lines).configuration.getTransition (Label.ofId id) x =
      match (Transition.joined (lines.filterMap (Line.leaving? id))).find? (fun t => t.reads x) with
      | some t => .ok t
      | none => .error (.noTransition (Label.ofId id) x) := by
  have got : (meaning lines).configuration.get (Label.ofId id) = .ok (stateOf lines id) := by
    rw [Configuration.get_id, find_named lines id named]
  rw [Configuration.getTransition, got]
  simp only [ok_bind, State.next?, stateOf]
  cases (Transition.joined (lines.filterMap (Line.leaving? id))).find? (fun t => t.reads x) <;> rfl

/-- A state answers with what is written on the first of its lines that goes to the target of some
line with the symbol, and has no answer when no line of it lists the symbol. -/
theorem state_answers_by_first_line_toward_target (text : Text) (source : List Text) (d : Definition)
    (read : (ofText text = .ok d ∧ source = Text.splitLines text) ∨ ofLines source = .ok d) :
    ∃ lines, Reads source lines ∧ ∀ id ∈ lines.filterMap Line.stateId?, ∀ x : Symbol,
      let written := lines.filterMap (Line.leaving? id)
      ((∃ t ∈ written, x ∈ t.inputs) → ∃ t u, written.find? (Transition.readAlong written x) = some t ∧
        d.configuration.getTransition (Label.ofId id) x = .ok u ∧
        u.output = t.output ∧ u.action = t.action ∧ u.target = t.target) ∧
      ((∀ t ∈ written, x ∉ t.inputs) →
        d.configuration.getTransition (Label.ofId id) x = .error (.noTransition (Label.ofId id) x)) := by
  obtain ⟨lines, reads, rfl⟩ := of_source_meaning text source d read
  refine ⟨lines, reads, ?_⟩
  intro id named x written
  have answer := get_transition_meaning lines id x named
  constructor
  · intro listed
    obtain ⟨t, u, first, found, target, action, output⟩ := Transition.find_joined_read written x listed
    rw [found] at answer
    exact ⟨t, u, first, answer, output, action, target⟩
  · intro unlisted
    rw [Transition.find_joined_unread written x unlisted] at answer
    exact answer

def FollowsFirstLines (lines : List Line) (d : Definition) : Prop :=
  ∀ id ∈ lines.filterMap Line.stateId?, ∀ c, [c] ∈ d.charset → ∀ t,
    (lines.filterMap (Line.leaving? id)).find? (fun t => t.reads (.char c)) = some t →
      ∃ u, d.configuration.getTransition (Label.ofId id) (.char c) = .ok u ∧
        u.output = t.output ∧ u.action = t.action ∧ u.target = t.target

def overruledText : Text := "%charset a b c d\n0 a -> a r 1\n0 b -> b l 1\n0 c -> c l 2\n0 c -> b - 1"

def overruledLines : List Line :=
  [.charset ['a', 'b', 'c', 'd'], .transition "0" "a" 'a' .right "1", .transition "0" "b" 'b' .left "1",
  .transition "0" "c" 'c' .left "2", .transition "0" "c" 'b' .stay "1"]

def overruled : Definition where
  configuration := { states := [
    ⟨0, .none, [⟨1, .right, .text "a", [.text "a", .text "b", .text "c"]⟩, ⟨2, .left, .text "c", [.text "c"]⟩]⟩] }
  charset := ["a", "b", "c", "d"]

theorem first_line_is_overruled :
    ofText overruledText = .ok overruled ∧ Reads (Text.splitLines overruledText) overruledLines ∧
      ¬ FollowsFirstLines overruledLines overruled ∧
      overruled.configuration.getTransition (Label.ofId 0) (.text "b") =
        .ok ⟨1, .right, .text "a", [.text "a", .text "b", .text "c"]⟩ ∧
      overruled.configuration.getTransition (Label.ofId 0) (.text "c") =
        .ok ⟨1, .right, .text "a", [.text "a", .text "b", .text "c"]⟩ := by
  refine ⟨rfl, rfl, ?_, rfl, rfl⟩
  intro follows
  obtain ⟨u, found, output, _⟩ := follows 0 (by decide) 'b' (by decide) ⟨1, .left, .text "b", [.text "b"]⟩ rfl
  cases found
  exact absurd output (by decide)

theorem overruled_state_answers_by_first_line_toward_target :
    let b : Symbol := .text "b"
    let e : Symbol := .text "d"
    let written := overruledLines.filterMap (Line.leaving? 0)
    ofText overruledText = .ok overruled ∧
      (∃ t ∈ written, b ∈ t.inputs) ∧ (∃ t u, written.find? (Transition.readAlong written b) = some t ∧
        overruled.configuration.getTransition (Label.ofId 0) b = .ok u ∧
        u.output = t.output ∧ u.action = t.action ∧ u.target = t.target) ∧
      (∀ t ∈ written, e ∉ t.inputs) ∧
        overruled.configuration.getTransition (Label.ofId 0) e = .error (.noTransition (Label.ofId 0) e) := by
  intro b e written
  have read : ofText overruledText = .ok overruled := rfl
  have reads : Reads (Text.splitLines overruledText) overruledLines := rfl
  have listed : ∃ t ∈ written, b ∈ t.inputs := by decide
  have unlisted : ∀ t ∈ written, e ∉ t.inputs := by decide
  obtain ⟨lines, same, answers⟩ :=
    state_answers_by_first_line_toward_target overruledText _ overruled (.inl ⟨read, rfl⟩)
  obtain rfl := reads_unique _ lines overruledLines same reads
  exact ⟨read, listed, (answers 0 (by decide) b).1 listed, unlisted, (answers 0 (by decide) e).2 unlisted⟩

end Definition

end TapeMachine
