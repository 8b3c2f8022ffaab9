import TapeMachine.Control.Given
import TapeMachine.Proofs.Meaning

set_option autoImplicit false

namespace TapeMachine

namespace Transition

def Built (t : Transition) : Prop := ∃ target action output source, ofGiven target action output source = .ok t

theorem of_given_inputs {target action : Json} {output : Symbol} {source : SymbolSource} {t : Transition}
    (built : ofGiven target action output source = .ok t) : t.inputs = source.symbols ∧ t.inputs ≠ [] := by
  rw [ofGiven] at built
  obtain ⟨target, _, built⟩ := (bind_ok _ _ _).mp built
  obtain ⟨action, _, built⟩ := (bind_ok _ _ _).mp built
  by_cases empty : source.symbols = []
  · simp [empty] at built
  · simp only [if_neg empty, pure_ok, Except.ok.injEq] at built
    subst built
    exact ⟨rfl, empty⟩

theorem built_well_formed (t : Transition) (built : t.Built) : t.WellFormed := by
  obtain ⟨target, action, output, source, given⟩ := built
  obtain ⟨inputs, filled⟩ := of_given_inputs given
  refine ⟨filled, ?_⟩
  rw [inputs]
  exact first_seen_nodup source.all

theorem of_given_fields (t : Transition) (good : t.WellFormed) :
    ofGiven (.int t.target) (.int t.action.tag) t.output (.listed t.inputs) = .ok t := by
  have target : givenId .target (.int t.target) = .ok t.target := by simp [givenId]
  have action : givenAction (.int t.action.tag) = .ok t.action := by simp [givenAction, Json.asInt?]
  have inputs : (SymbolSource.listed t.inputs).symbols = t.inputs := first_seen_of_nodup t.inputs good.distinct
  simp only [ofGiven, target, action, inputs, good.filled, ok_bind, pure_ok, if_false]

theorem built_iff (t : Transition) : t.Built ↔ t.WellFormed :=
  ⟨t.built_well_formed,
    fun good => ⟨.int t.target, .int t.action.tag, t.output, .listed t.inputs, t.of_given_fields good⟩⟩

theorem file_all_well_formed (ts : List Transition) (good : ∀ t ∈ ts, t.WellFormed) : fileAll ts [] = gather ts := by
  have same : ts.map deduplicated = ts := by
    refine (List.map_congr_left ?_).trans (List.map_id ts)
    intro t mem
    rw [deduplicated, first_seen_of_nodup t.inputs (good t mem).distinct]
    rfl
  rw [← file_all_gather, same]

@[simp] theorem gather_targets (ts : List Transition) : (gather ts).map target = firstSeen (ts.map target) := by
  induction ts with
  | nil => rfl
  | cons t rest ih =>
      rw [gather, List.map_cons, List.map_cons, firstSeen, ← ih, List.filter_map]
      rfl

theorem toward_found (ts : List Transition) (target : Nat) :
    toward? ts target = (ts.find? fun t => t.target = target).map fun t =>
      { t with inputs := firstSeen ((ts.filter fun u => u.target = target).flatMap inputs) } := by
  rw [toward?, ← List.head?_filter]
  cases ts.filter fun t => t.target = target <;> rfl

theorem gathered_first (ts : List Transition) (u : Transition) (mem : u ∈ gather ts) :
    ∃ first, ts.find? (fun t => t.target = u.target) = some first ∧ u.action = first.action ∧ u.output = first.output ∧
      u.inputs = firstSeen ((ts.filter fun t => t.target = u.target).flatMap inputs) := by
  rw [← joined_gather, joined] at mem
  obtain ⟨target, _, found⟩ := List.mem_filterMap.mp mem
  obtain rfl := toward_target ts target u found
  rw [toward_found] at found
  obtain ⟨first, here, same⟩ := Option.map_eq_some_iff.mp found
  have actions := congrArg action same
  have outputs := congrArg output same
  have joint := congrArg inputs same
  exact ⟨first, here, actions.symm, outputs.symm, joint.symm⟩

end Transition

/-- The transitions of a source, in whatever way they are given. -/
def TransitionSource.transitions : TransitionSource → List Transition
  | .listed ts => ts
  | .keyed pairs => pairs.map Prod.snd

def KeysApart (keys : List Json) : Prop := keys.Pairwise fun a b => a.sameKey b = false

def placeAll (pairs filed : List (Json × Transition)) : List (Json × Transition) :=
  pairs.foldl (fun acc pair => placePair pair.1 pair.2 acc) filed

section Pairs

variable (key : Json) (t : Transition) (pairs filed : List (Json × Transition))

theorem place_pair_old (old : ∃ p ∈ filed, p.1.sameKey key = true) :
    (placePair key t filed).map Prod.fst = filed.map Prod.fst := by
  induction filed with
  | nil => simp at old
  | cons pair rest ih =>
      obtain ⟨k, u⟩ := pair
      by_cases same : k.sameKey key = true
      · simp [placePair, same]
      · obtain ⟨p, mem, hit⟩ := old
        rcases List.mem_cons.mp mem with rfl | later
        · exact absurd hit same
        · simp [placePair, same, ih ⟨p, later, hit⟩]

theorem place_pair_new (new : ∀ p ∈ filed, p.1.sameKey key = false) : placePair key t filed = filed ++ [(key, t)] := by
  induction filed with
  | nil => rfl
  | cons pair rest ih =>
      obtain ⟨here, later⟩ := List.forall_mem_cons.mp new
      simp [placePair, here, ih later]

theorem mem_place_pair (p : Json × Transition) (mem : p ∈ placePair key t filed) : p.2 = t ∨ p ∈ filed := by
  induction filed with
  | nil => exact .inl (congrArg Prod.snd (List.mem_singleton.mp mem))
  | cons pair rest ih =>
      obtain ⟨k, u⟩ := pair
      rw [placePair] at mem
      split at mem
      · rcases List.mem_cons.mp mem with rfl | old
        · exact .inl rfl
        · exact .inr (List.mem_cons_of_mem (k, u) old)
      · rcases List.mem_cons.mp mem with rfl | old
        · exact .inr List.mem_cons_self
        · exact (ih old).imp_right (List.mem_cons_of_mem (k, u))

theorem place_pair_apart (apart : KeysApart (filed.map Prod.fst)) :
    KeysApart ((placePair key t filed).map Prod.fst) := by
  by_cases old : ∃ p ∈ filed, p.1.sameKey key = true
  · rwa [place_pair_old key t filed old]
  · have new : ∀ p ∈ filed, p.1.sameKey key = false := by simpa using old
    rw [place_pair_new key t filed new, List.map_append, KeysApart, List.pairwise_append]
    refine ⟨apart, List.pairwise_singleton _ _, ?_⟩
    simpa using new

theorem place_all_apart (apart : KeysApart (filed.map Prod.fst)) : KeysApart ((placeAll pairs filed).map Prod.fst) := by
  induction pairs generalizing filed with
  | nil => exact apart
  | cons pair rest ih => exact ih _ (place_pair_apart pair.1 pair.2 filed apart)

theorem mem_place_all (p : Json × Transition) (mem : p ∈ placeAll pairs filed) :
    p.2 ∈ pairs.map Prod.snd ∨ p ∈ filed := by
  induction pairs generalizing filed with
  | nil => exact .inr mem
  | cons pair rest ih =>
      rcases ih _ mem with later | here
      · exact .inl (List.mem_cons_of_mem pair.2 later)
      · rcases mem_place_pair pair.1 pair.2 filed p here with new | old
        · exact .inl (new ▸ List.mem_cons_self)
        · exact .inr old

theorem place_all_new (apart : KeysApart ((filed ++ pairs).map Prod.fst)) : placeAll pairs filed = filed ++ pairs := by
  induction pairs generalizing filed with
  | nil => exact (List.append_nil filed).symm
  | cons pair rest ih =>
      have new : ∀ p ∈ filed, p.1.sameKey pair.1 = false := by
        rw [List.map_append, KeysApart, List.pairwise_append] at apart
        intro p mem
        exact apart.2.2 p.1 (List.mem_map_of_mem mem) pair.1 List.mem_cons_self
      have placed : placeAll (pair :: rest) filed = placeAll rest (filed ++ [pair]) := by
        rw [placeAll, List.foldl_cons, place_pair_new pair.1 pair.2 filed new]
        rfl
      rw [placed, ih (filed ++ [pair]) (by simpa using apart), List.append_assoc, List.singleton_append]

theorem checked_iff (ts : List Transition) : checkedPairs pairs = .ok ts ↔
    pairs.map Prod.snd = ts ∧ ∀ p ∈ pairs, p.1.asInt? = some (p.2.target : Int) := by
  induction pairs generalizing ts with
  | nil => simp [checkedPairs]
  | cons pair rest ih =>
      obtain ⟨k, u⟩ := pair
      by_cases fits : k.asInt? = some (u.target : Int)
      · rw [checkedPairs, if_pos fits, map_ok, List.forall_mem_cons]
        constructor
        · rintro ⟨us, checked, rfl⟩
          obtain ⟨rfl, each⟩ := (ih us).mp checked
          exact ⟨rfl, fits, each⟩
        · rintro ⟨rfl, _, each⟩
          exact ⟨_, (ih _).mpr ⟨rfl, each⟩, rfl⟩
      · simp [checkedPairs, fits]

theorem keys_apart_iff (fits : ∀ p ∈ pairs, p.1.asInt? = some (p.2.target : Int)) :
    KeysApart (pairs.map Prod.fst) ↔ ((pairs.map Prod.snd).map Transition.target).Nodup := by
  rw [KeysApart, List.Nodup, List.pairwise_map, List.map_map, List.pairwise_map]
  apply List.Pairwise.iff_of_mem
  intro p q left right
  simp only [Json.sameKey, fits p left, fits q right, decide_eq_false_iff_not, Int.ofNat_inj,
    Function.comp_apply, ne_eq]

end Pairs

namespace State

theorem with_all (ts : List Transition) (s : State) :
    ts.foldl withTransition s = { s with transitions := Transition.fileAll ts s.transitions } := by
  induction ts generalizing s with
  | nil => rfl
  | cons t rest ih => exact ih (s.withTransition t)

def Built (s : State) : Prop :=
  ∃ id acceptance source, (∀ t ∈ source.transitions, t.Built) ∧ ofGiven id acceptance source = .ok s

theorem of_given_ok (id acceptance : Json) (source : TransitionSource) (s : State)
    (given : ofGiven id acceptance source = .ok s) :
    source.filed = .ok s.transitions := by
  rw [ofGiven] at given
  obtain ⟨_, _, given⟩ := (bind_ok _ _ _).mp given
  obtain ⟨_, _, given⟩ := (bind_ok _ _ _).mp given
  obtain ⟨ts, filed, given⟩ := (bind_ok _ _ _).mp given
  cases given
  exact filed

theorem of_given_filed (id : Nat) (acceptance : Acceptance) (source : TransitionSource) (ts : List Transition)
    (filed : source.filed = .ok ts) : ofGiven (.int id) (.int acceptance.tag) source = .ok ⟨id, acceptance, ts⟩ := by
  have numbered : givenId .state (.int id) = .ok id := by simp [givenId]
  have tagged : givenAcceptance (.int acceptance.tag) = .ok acceptance := by simp [givenAcceptance, Json.asInt?]
  rw [ofGiven, numbered, tagged, filed]
  rfl

theorem built_well_formed (s : State) (built : s.Built) : s.WellFormed := by
  obtain ⟨id, acceptance, source, sound, given⟩ := built
  have filed := of_given_ok id acceptance source s given
  cases source with
  | listed ts =>
      have good (t : Transition) (mem : t ∈ ts) : t.WellFormed := t.built_well_formed (sound t mem)
      have same : Transition.fileAll ts [] = s.transitions := Except.ok.inj filed
      obtain ⟨targets, each⟩ := of_transitions_well_formed s.id s.acceptance ts good
      rw [ofTransitions, same] at targets each
      exact ⟨targets, each⟩
  | keyed pairs =>
      obtain ⟨same, fits⟩ := (checked_iff (placeAll pairs []) s.transitions).mp filed
      have apart : KeysApart ((placeAll pairs []).map Prod.fst) := place_all_apart pairs [] List.Pairwise.nil
      constructor
      · rw [← same]
        exact (keys_apart_iff _ fits).mp apart
      · intro t mem
        rw [← same] at mem
        obtain ⟨p, placed, rfl⟩ := List.mem_map.mp mem
        apply p.2.built_well_formed
        exact sound p.2 ((mem_place_all pairs [] p placed).resolve_right List.not_mem_nil)

def ownPairs (s : State) : List (Json × Transition) := s.transitions.map fun t => (.int t.target, t)

theorem rebuilt (s : State) (good : s.WellFormed) :
    ofGiven (.int s.id) (.int s.acceptance.tag) (.listed s.transitions) = .ok s ∧
      ofGiven (.int s.id) (.int s.acceptance.tag) (.keyed s.ownPairs) = .ok s := by
  constructor
  · apply of_given_filed
    rw [TransitionSource.filed, Transition.file_all_well_formed _ good.transitions,
      Transition.gather_of_well_formed _ good.targets good.transitions]
  · apply of_given_filed
    have own : s.ownPairs.map Prod.snd = s.transitions := by simp [ownPairs, Function.comp_def]
    have fits : ∀ p ∈ s.ownPairs, p.1.asInt? = some (p.2.target : Int) := by simp [ownPairs, Json.asInt?]
    have apart : KeysApart (s.ownPairs.map Prod.fst) := by
      rw [keys_apart_iff _ fits, own]
      exact good.targets
    have placed : placeAll s.ownPairs [] = s.ownPairs := place_all_new s.ownPairs [] apart
    have filed : (TransitionSource.keyed s.ownPairs).filed = checkedPairs (placeAll s.ownPairs []) := rfl
    rw [filed, placed, checked_iff]
    exact ⟨own, fits⟩

theorem built_iff (s : State) : s.Built ↔ s.WellFormed := by
  constructor
  · exact s.built_well_formed
  · intro good
    refine ⟨.int s.id, .int s.acceptance.tag, .listed s.transitions, ?_, (s.rebuilt good).1⟩
    intro t mem
    exact t.built_iff.mpr (good.transitions t mem)

theorem with_transition_built (s : State) (t : Transition) (built : s.Built) (fresh : t.Built) :
    (s.withTransition t).Built := by
  rw [built_iff] at built ⊢
  exact with_transition_well_formed s t built (t.built_iff.mp fresh)

end State

namespace Configuration

/-- A state has come in the place of the one with its id, and nothing else is different. -/
structure Replaces (c : Configuration) (s : State) (c' : Configuration) : Prop where
  found : c'.find? s.id = some s
  others : ∀ id : Int, id ≠ s.id → c'.find? id = c.find? id
  ids : c'.states.map State.id = c.states.map State.id
  start : c'.start = c.start
  labels : c'.labels = c.labels

/-- Adds what transitions hold, one after another, to the state with an id. -/
def addTransitions (c : Configuration) (id : Nat) (ts : List Transition) : Except FilingFault Configuration :=
  ts.foldlM (fun c t => c.addTransition (Label.ofId id) (.int t.target) (.int t.action.tag) t.output
    (.listed t.inputs)) c

variable (c c' c'' : Configuration) (s u : State)

theorem add_replaces (known : s.id ∈ c.states.map State.id) : c.Replaces s (c.add s) where
  found := c.find_add_same s
  others := c.find_add_other s
  ids := place_ids_old s c.states known
  start := rfl
  labels := rfl

theorem replaces_again (same : u.id = s.id) (first : c.Replaces s c') (second : c'.Replaces u c'') :
    c.Replaces u c'' where
  found := second.found
  others := by
    intro id different
    rw [second.others id different, first.others id (same ▸ different)]
  ids := second.ids.trans first.ids
  start := second.start.trans first.start
  labels := second.labels.trans first.labels

theorem add_transition_found (t : Transition) (found : c.find? s.id = some s) (good : t.WellFormed) :
    c.addTransition (Label.ofId s.id) (.int t.target) (.int t.action.tag) t.output (.listed t.inputs) =
      .ok (c.add (s.withTransition t)) := by
  rw [addTransition, get_id, found, t.of_given_fields good]
  rfl

theorem add_transitions_found (ts : List Transition) (found : c.find? s.id = some s) (good : ∀ t ∈ ts, t.WellFormed) :
    ∃ c', c.addTransitions s.id ts = .ok c' ∧ c.Replaces (ts.foldl State.withTransition s) c' := by
  induction ts generalizing c s with
  | nil => exact ⟨c, rfl, found, fun _ _ => rfl, rfl, rfl, rfl⟩
  | cons t rest ih =>
      obtain ⟨here, later⟩ := List.forall_mem_cons.mp good
      have known : s.id ∈ c.states.map State.id := List.mem_map_of_mem (c.find_mem s.id s found).1
      have first := c.add_replaces (s.withTransition t) known
      obtain ⟨c', added, more⟩ := ih (c.add (s.withTransition t)) (s.withTransition t) first.found later
      refine ⟨c', ?_, replaces_again c _ c' (s.withTransition t) _ ?_ first more⟩
      · rw [addTransitions, List.foldlM_cons, c.add_transition_found s t found here]
        exact added
      · rw [List.foldl_cons, State.with_all]

end Configuration

namespace State

/-- A state with transitions is the same whether it is built from them, or collects them one after
another, alone or in a configuration. It has one transition for each target, in the order in which
the targets were first given: the first that was given, with the inputs of all. A state that is
built from its own transitions, listed or keyed, is that state; that goes for every state that can
be built, and collecting another transition gives one of these. -/
theorem transitions_accumulate_alike :
    (∀ (id : Nat) (acceptance : Acceptance) (ts : List Transition), (∀ t ∈ ts, t.Built) →
      ∃ bare s, ofGiven (.int id) (.int acceptance.tag) (.keyed []) = .ok bare ∧
        ofGiven (.int id) (.int acceptance.tag) (.listed ts) = .ok s ∧
        ts.foldl withTransition bare = s ∧
        (∀ c : Configuration, c.find? id = some bare → ∃ c', c.addTransitions id ts = .ok c' ∧ c.Replaces s c') ∧
        s.id = id ∧ s.acceptance = acceptance ∧
        s.transitions.map Transition.target = firstSeen (ts.map Transition.target) ∧
        ∀ u ∈ s.transitions, ∃ first, ts.find? (fun t => t.target = u.target) = some first ∧
          u.action = first.action ∧ u.output = first.output ∧
          u.inputs = firstSeen ((ts.filter fun t => t.target = u.target).flatMap Transition.inputs)) ∧
    ∀ s : State, s.Built →
      ofGiven (.int s.id) (.int s.acceptance.tag) (.listed s.transitions) = .ok s ∧
      ofGiven (.int s.id) (.int s.acceptance.tag) (.keyed s.ownPairs) = .ok s ∧
      ∀ t : Transition, t.Built → (s.withTransition t).Built := by
  constructor
  · intro id acceptance ts built
    have good (t : Transition) (mem : t ∈ ts) : t.WellFormed := t.built_iff.mp (built t mem)
    have collected : Transition.fileAll ts [] = Transition.gather ts := Transition.file_all_well_formed ts good
    refine ⟨⟨id, acceptance, []⟩, ⟨id, acceptance, Transition.gather ts⟩, ?_, ?_, ?_, ?_, rfl, rfl,
      Transition.gather_targets ts, ?_⟩
    · exact of_given_filed id acceptance (.keyed []) [] rfl
    · exact of_given_filed id acceptance (.listed ts) _ (congrArg Except.ok collected)
    · rw [with_all, collected]
    · intro c found
      have added := c.add_transitions_found ⟨id, acceptance, []⟩ ts found good
      rwa [with_all, collected] at added
    · exact fun u mem => Transition.gathered_first ts u mem
  · intro s built
    obtain ⟨listed, keyed⟩ := s.rebuilt (s.built_iff.mp built)
    exact ⟨listed, keyed, fun t fresh => s.with_transition_built t built fresh⟩

def crossedTransitions : List Transition :=
  [⟨3, .right, .text "x", [.text "a", .text "b"]⟩, ⟨1, .left, .text "y", [.text "a"]⟩,
    ⟨3, .left, .text "z", [.text "c", .text "b"]⟩, ⟨1, .stay, .text "y", [.null, .text "a"]⟩]

def crossedState : State where
  id := 7
  acceptance := .accept
  transitions := [⟨3, .right, .text "x", [.text "a", .text "b", .text "c"]⟩, ⟨1, .left, .text "y", [.text "a", .null]⟩]

theorem crossed_transitions_accumulate_alike :
    let c : Configuration := { states := [{ id := 3 }, { id := 7, acceptance := .accept }, { id := 1 }] }
    ofGiven (.int 7) (.int 1) (.listed crossedTransitions) = .ok crossedState ∧
      crossedTransitions.foldl withTransition { id := 7, acceptance := .accept } = crossedState ∧
      (∃ c', c.addTransitions 7 crossedTransitions = .ok c' ∧ c'.find? 7 = some crossedState ∧
        c'.find? 1 = some { id := 1 }) ∧
      crossedState.transitions.map Transition.target = firstSeen (crossedTransitions.map Transition.target) ∧
      ofGiven (.int 7) (.int 1) (.keyed crossedState.ownPairs) = .ok crossedState := by
  intro c
  have built : ∀ t ∈ crossedTransitions, t.Built := by
    simp only [crossedTransitions, List.forall_mem_cons]
    exact ⟨⟨.int 3, .int 2, .text "x", .word "abba", rfl⟩, ⟨.int 1, .bool true, .text "y", .single (.text "a"), rfl⟩,
      ⟨.int 3, .int 1, .text "z", .word "cb", rfl⟩, ⟨.int 1, .int 0, .text "y", .listed [.null, .text "a"], rfl⟩, by simp⟩
  have whole : ofGiven (.int 7) (.int 1) (.listed crossedTransitions) = .ok crossedState := rfl
  obtain ⟨alike, again⟩ := transitions_accumulate_alike
  obtain ⟨bare, s, first, given, folded, added, _, _, targets, _⟩ := alike 7 .accept crossedTransitions built
  cases first
  obtain rfl : s = crossedState := Except.ok.inj (given.symm.trans whole)
  obtain ⟨c', ended, replaced⟩ := added c rfl
  refine ⟨whole, folded, ⟨c', ended, replaced.found, replaced.others 1 (by decide)⟩, targets, ?_⟩
  exact (again _ ⟨.int 7, .int 1, .listed crossedTransitions, built, whole⟩).2.1

end State

end TapeMachine
