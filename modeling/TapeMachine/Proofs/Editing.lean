import TapeMachine.Fault
import TapeMachine.Proofs.Accumulation
import TapeMachine.Proofs.FiledStates

set_option autoImplicit false

namespace TapeMachine

theorem given_id_fault (role : IdRole) (value : Json) (fault : GivenFault)
    (failed : givenId role value = .error fault) :
    (Fault.given fault).kind = .badValue := by
  cases value with
  | int i =>
      rw [givenId] at failed
      split at failed
      · cases failed
      · cases failed
        rfl
  | _ =>
      cases failed
      rfl

theorem given_action_fault (value : Json) (fault : GivenFault) (failed : givenAction value = .error fault) :
    (Fault.given fault).kind = .badValue := by
  rw [givenAction] at failed
  split at failed
  · cases failed
  · cases failed
    rfl

theorem Transition.of_given_fault (target action : Json) (output : Symbol) (inputs : SymbolSource) (fault : GivenFault)
    (given : ofGiven target action output inputs = .error fault) : (Fault.given fault).kind = .badValue := by
  rw [ofGiven] at given
  rcases (bind_error _ _ _).mp given with failed | ⟨n, _, given⟩
  · exact given_id_fault .target target fault failed
  rcases (bind_error _ _ _).mp given with failed | ⟨a, _, given⟩
  · exact given_action_fault action fault failed
  split at given
  · cases given
    rfl
  · cases given

namespace Edit

def key : Edit → Nat → Label
  | .setItem key _, _ => key
  | _, id => Label.ofId id

def removes : Edit → Nat → Bool
  | .removeState label, id => label.names id
  | .clear, _ => true
  | _, _ => false

/-- What an edit leaves of the state with an id. -/
def left : Edit → Nat → Option State → Option State
  | .removeState label, id, old => if label.names id then none else old
  | .addTransition source target action output inputs, id, old =>
      if source.names id then
        old.map fun s => ((Transition.ofGiven target action output inputs).toOption.map s.withTransition).getD s
      else old
  | .removeTransition source target, id, old =>
      if source.names id then
        old.map fun s => { s with transitions := s.transitions.filter fun t => target.names t.target = false }
      else old
  | .clearTransitions label, id, old =>
      if label = .null ∨ label.names id = true then old.map fun s => { s with transitions := [] } else old
  | .clear, _, _ => none
  | _, _, old => old

def effect (e : Edit) (id : Nat) (old : Option State) : Option State :=
  ((e.states.filter fun s => s.id = id).getLast?).or (e.left id old)

/-- The ids that an edit is about. -/
def names (e : Edit) (id : Nat) : Bool :=
  match e with
  | .removeState label => label.names id
  | .addTransition source _ _ _ _ => source.names id
  | .removeTransition source _ => source.names id
  | .clearTransitions label => label = .null || label.names id
  | .clear => true
  | _ => e.states.any fun s => s.id = id

def startAfter : Edit → Label → Label
  | .setStart label, _ => label
  | _, start => start

def labels : Edit → List Label
  | .removeState label => [label]
  | .addTransition source _ _ _ _ => [source]
  | .removeTransition source target => [source, target]
  | .clearTransitions label => [label]
  | _ => []

def Fits (e : Edit) (c : Configuration) : Prop :=
  match e with
  | .setItem key s => key.names s.id = true
  | .removeState label => ∃ s ∈ c.states, label.names s.id = true
  | .addTransition source target action output inputs =>
      (∃ s ∈ c.states, source.names s.id = true) ∧ ∃ t, Transition.ofGiven target action output inputs = .ok t
  | .removeTransition source target =>
      ∃ s ∈ c.states, source.names s.id = true ∧ ∃ t ∈ s.transitions, target.names t.target = true
  | .clearTransitions label => label = .null ∨ ∃ s ∈ c.states, label.names s.id = true
  | _ => True

structure Done (e : Edit) (c c' : Configuration) : Prop where
  found : ∀ id : Nat, c'.find? id = e.effect id (c.find? id)
  keys : c'.keys = (c.keys.filter fun k => !e.removes k.1) ++ (c.newIds e.states).map fun id => (id, e.key id)
  start : c'.start = e.startAfter c.start

/-- The kinds of faults that refuse an edit. Only a label that can be no key is refused for its type. -/
def Refused (e : Edit) (fault : FilingFault) : Prop :=
  (Fault.ofFiling fault).kind ∈ [.unknownState, .badValue, .unknownKey] ∨
    (Fault.ofFiling fault).kind = .badType ∧ ∃ label ∈ e.labels, Json.isKey label = false

theorem unknown_refused (e : Edit) (label : Label) (fault : LookupFault) (asked : label ∈ e.labels)
    (unknown : (fault = .noState label ∨ ∃ id, fault = .noTarget id label) ∨ fault = .noKey label ∧
      Json.isKey label = false) :
    e.Refused (.lookup fault) := by
  rcases unknown with (rfl | ⟨id, rfl⟩) | ⟨rfl, noKey⟩
  · exact .inl (by simp [Fault.ofFiling, Fault.ofLookup, Fault.kind, Fault.lookupKind])
  · exact .inl (by simp [Fault.ofFiling, Fault.ofLookup, Fault.kind, Fault.lookupKind])
  · exact .inr ⟨by simp [Fault.ofFiling, Fault.ofLookup, Fault.kind, Fault.lookupKind], label, asked, noKey⟩

theorem effect_unnamed (e : Edit) (id : Nat) (old : Option State) (unnamed : e.names id = false) :
    e.effect id old = old := by
  cases e with
  | addStates ss =>
      have none : ss.filter (fun s => s.id = id) = [] := by simpa [names, states] using unnamed
      rw [effect, states, none]
      rfl
  | _ => simp_all [effect, left, names, states]

section Effects

variable (e : Edit) (c : Configuration)

theorem write_done (key : Label) (s : State) (kept : c.Kept) (given : e.states = [s]) (label : e.key s.id = key)
    (stays : ∀ id old, e.left id old = old) (keeps : ∀ id, e.removes id = false)
    (start : ∀ label, e.startAfter label = label) :
    e.Done c (c.write key s) where
  found := by
    intro id
    rw [c.find_write key s id, effect, given, stays]
    by_cases same : id = s.id
    · simp [same]
    · simp [same, Ne.symm same]
  keys := by
    have all : c.keys.filter (fun k => !e.removes k.1) = c.keys := by simp [keeps]
    rw [all, given]
    by_cases known : s.id ∈ c.states.map State.id
    · rw [c.keys_write_known key s known, c.new_ids_single s, if_pos known, List.map_nil, List.append_nil]
    · rw [c.keys_write_new key s kept known, c.new_ids_single s, if_neg known, List.map_singleton, label]
  start := (start c.start).symm

theorem replace_done (s u : State) (here : s ∈ c.states) (same : u.id = s.id) (given : e.states = [])
    (keeps : ∀ id, e.removes id = false) (start : ∀ label, e.startAfter label = label)
    (left : ∀ id : Nat, e.left id (c.find? id) = if id = s.id then some u else c.find? id) : e.Done c (c.add u) := by
  have known : u.id ∈ c.states.map State.id := same ▸ List.mem_map_of_mem here
  rw [← c.write_own u]
  refine ⟨?_, ?_, (start c.start).symm⟩
  · intro id
    rw [c.find_write _ u id, effect, given, left, same]
    rfl
  · rw [c.keys_write_known _ u known, given]
    simp [keeps]

theorem add_state_done (s : State) (kept : c.Kept) : (addState s).Done c (c.add s) := by
  rw [← c.write_own s]
  exact write_done (.addState s) c (Label.ofId s.id) s kept rfl rfl (fun _ _ => rfl) (fun _ => rfl) fun _ => rfl

theorem add_states_done (ss : List State) (kept : c.Kept) (good : ∀ s ∈ ss, s.WellFormed) :
    (addStates ss).Done c (c.addAll ss) := by
  induction ss generalizing c with
  | nil => exact ⟨fun id => rfl, by simp [removes, states, Configuration.addAll], rfl⟩
  | cons s ss ih =>
      obtain ⟨here, later⟩ := List.forall_mem_cons.mp good
      have first := add_state_done c s kept
      have others := ih (c.add s) (c.add_kept s kept here) later
      have cut : c.addAll (s :: ss) = (c.add s).addAll ss := rfl
      rw [cut]
      refine ⟨?_, ?_, others.start.trans first.start⟩
      · intro id
        rw [others.found, first.found]
        simp only [effect, left, states, List.filter_cons, List.filter_nil]
        by_cases same : s.id = id
        · simp only [same, decide_true, if_true, List.getLast?_cons, List.getLast?_nil,
            Option.getD_none, Option.some_or]
          cases (ss.filter fun s => s.id = id).getLast? <;> rfl
        · simp only [same, decide_false, Bool.false_eq_true, if_false, List.getLast?_nil, Option.none_or]
      · have keys := others.keys
        rw [first.keys] at keys
        simpa [removes, key, states, Configuration.new_ids_cons c s ss] using keys

theorem without_done (label : Label) (s : State) (named : label.names s.id = true) :
    (removeState label).Done c (c.without s.id) where
  found := by
    intro id
    rw [c.find_without s.id id]
    simp [effect, left, states, label.names_only s.id named id]
  keys := by
    rw [c.keys_without s.id]
    simp [removes, states, label.names_only s.id named]
  start := rfl

theorem left_replaced (label : Label) (s : State) (found : c.find? s.id = some s) (named : label.names s.id = true)
    (change : State → State) (id : Nat) :
    (if label.names id = true then (c.find? id).map change else c.find? id) =
      if id = s.id then some (change s) else c.find? id := by
  simp only [label.names_only s.id named id, decide_eq_true_eq]
  by_cases same : id = s.id
  · rw [if_pos same, if_pos same, same, found, Option.map_some]
  · rw [if_neg same, if_neg same]

def Settled (e : Edit) (c : Configuration) : Prop :=
  (∃ c', c.edited e = .ok c' ∧ e.Fits c ∧ e.Done c c' ∧ c'.Kept) ∨
    ∃ fault, c.edited e = .error fault ∧ ¬ e.Fits c ∧ e.Refused fault

variable (kept : c.Kept)

include kept

theorem set_item_settled (key : Label) (s : State) (good : s.WellFormed) : (setItem key s).Settled c := by
  by_cases names : key.names s.id = true
  · refine .inl ⟨c.write key s, by rw [Configuration.edited, Configuration.addUnder, if_pos names]; rfl, names, ?_, ?_⟩
    · exact write_done (setItem key s) c key s kept rfl rfl (fun _ _ => rfl) (fun _ => rfl) fun _ => rfl
    · exact c.write_kept key s kept good names
  · refine .inr ⟨.given (.foreignKey s.id key), ?_, names, .inl (by simp [Fault.ofFiling, Fault.kind])⟩
    rw [Configuration.edited, Configuration.addUnder, if_neg names]
    rfl

theorem looked_up_settled (e : Edit) (label : Label) (asked : label ∈ e.labels)
    (needs : e.Fits c → ∃ s ∈ c.states, label.names s.id = true)
    (missing : ∀ fault, c.get label = .error fault → c.edited e = .error (.lookup fault))
    (found : ∀ s ∈ c.states, label.names s.id = true → c.find? s.id = some s → c.get label = .ok s →
      e.Settled c) : e.Settled c := by
  rcases c.get_cases label kept.control.ids with ⟨s, here, named, known, got⟩ | ⟨fault, failed, unnamed, unknown⟩
  · exact found s here named known got
  · refine .inr ⟨.lookup fault, missing fault failed, ?_, unknown_refused e label fault asked (unknown.imp_left .inl)⟩
    intro fits
    obtain ⟨s, here, named⟩ := needs fits
    simp [unnamed s here] at named

theorem remove_state_settled (label : Label) : (removeState label).Settled c := by
  apply looked_up_settled c kept (removeState label) label List.mem_cons_self fun fits => fits
  · intro fault missing
    rw [Configuration.edited, Configuration.remove, missing]
    rfl
  · intro s here named _ got
    refine .inl ⟨c.without s.id, ?_, ⟨s, here, named⟩, without_done c label s named, c.without_kept s.id kept⟩
    rw [Configuration.edited, Configuration.remove, got]
    rfl

theorem add_transition_settled (source : Label) (target action : Json) (output : Symbol) (inputs : SymbolSource) :
    (addTransition source target action output inputs).Settled c := by
  apply looked_up_settled c kept
    (addTransition source target action output inputs) source List.mem_cons_self fun fits => fits.1
  · intro fault missing
    rw [Configuration.edited, Configuration.addTransition, missing]
    rfl
  · intro s here named found got
    cases given : Transition.ofGiven target action output inputs with
    | ok t =>
        have good : t.WellFormed := t.built_well_formed ⟨target, action, output, inputs, given⟩
        refine .inl ⟨c.add (s.withTransition t), ?_, ⟨⟨s, here, named⟩, t, given⟩, ?_, ?_⟩
        · rw [Configuration.edited, Configuration.addTransition, got, given]
          rfl
        · apply replace_done _ c s (s.withTransition t) here rfl rfl (fun _ => rfl) fun _ => rfl
          intro id
          simp only [left, given]
          exact left_replaced c source s found named (fun u => u.withTransition t) id
        · exact c.add_kept _ kept (s.with_transition_well_formed t (kept.control.states s here) good)
    | error fault =>
        refine .inr ⟨.given fault, by rw [Configuration.edited, Configuration.addTransition, got, given]; rfl, ?_, ?_⟩
        · intro fits
          obtain ⟨_, t, built⟩ := fits
          rw [given] at built
          cases built
        · have value := Transition.of_given_fault target action output inputs fault given
          exact .inl (by simp [Fault.ofFiling, value])

theorem remove_transition_settled (source target : Label) : (removeTransition source target).Settled c := by
  apply looked_up_settled c kept (removeTransition source target) source List.mem_cons_self
  · intro fits
    obtain ⟨s, here, named, _⟩ := fits
    exact ⟨s, here, named⟩
  · intro fault missing
    rw [Configuration.edited, Configuration.removeTransition, missing]
    rfl
  · intro s here named found got
    have good := kept.control.states s here
    rcases s.without_cases target good.targets with ⟨t, within, toward, rest⟩ | ⟨fault, absent, apart, unknown⟩
    · refine .inl ⟨c.add (s.withoutTarget t.target), ?_, ⟨s, here, named, t, within, toward⟩, ?_, ?_⟩
      · rw [Configuration.edited, Configuration.removeTransition, got]
        simp only [ok_bind, rest]
        rfl
      · apply replace_done _ c s (s.withoutTarget t.target) here rfl rfl (fun _ => rfl) fun _ => rfl
        intro id
        have same : s.withoutTarget t.target =
            { s with transitions := s.transitions.filter fun u => target.names u.target = false } := by
          rw [State.withoutTarget]
          congr 1
          apply List.filter_congr
          intro u _
          simp [target.names_only t.target toward u.target]
        rw [same]
        exact left_replaced c source s found named
          (fun s => { s with transitions := s.transitions.filter fun u => target.names u.target = false }) id
      · exact c.add_kept _ kept (s.without_target_well_formed good t.target)
    · refine .inr ⟨.lookup fault, ?_, ?_, ?_⟩
      · rw [Configuration.edited, Configuration.removeTransition, got]
        simp only [ok_bind, error_bind, absent]
        rfl
      · intro fits
        obtain ⟨u, there, names, t, within, toward⟩ := fits
        have again : c.find? u.id = some u := find_keyed State.id c.states u kept.control.ids there
        rw [source.names_unique u.id s.id names named, found] at again
        cases again
        simp [apart t within] at toward
      · apply unknown_refused (removeTransition source target) target fault (by simp [labels])
        exact unknown.imp_left fun absent => .inr ⟨s.id, absent⟩

theorem clear_transitions_settled (label : Label) : (clearTransitions label).Settled c := by
  by_cases all : label = .null
  · refine .inl ⟨c.clearTransitions, by rw [Configuration.edited, if_pos all], .inl all, ?_, c.cleared_kept kept⟩
    refine ⟨?_, ?_, rfl⟩
    · intro id
      rw [c.find_cleared id, effect, left, if_pos (.inl all)]
      rfl
    · rw [c.keys_cleared]
      simp [removes, states]
  · apply looked_up_settled c kept (clearTransitions label) label List.mem_cons_self fun fits => fits.resolve_left all
    · intro fault missing
      rw [Configuration.edited, if_neg all, Configuration.clearTransitionsOf, missing]
      rfl
    · intro s here named found got
      refine .inl ⟨c.add { s with transitions := [] }, ?_, .inr ⟨s, here, named⟩, ?_, ?_⟩
      · rw [Configuration.edited, if_neg all, Configuration.clearTransitionsOf, got]
        rfl
      · apply replace_done _ c s { s with transitions := [] } here rfl rfl (fun _ => rfl) fun _ => rfl
        intro id
        simp only [left, all, false_or]
        exact left_replaced c label s found named (fun u => { u with transitions := [] }) id
      · exact c.add_kept _ kept (Configuration.cleared_well_formed s)

theorem edited_settled (e : Edit) (good : ∀ s ∈ e.states, s.WellFormed) : e.Settled c := by
  cases e with
  | addState s =>
      exact .inl ⟨c.add s, rfl, trivial, add_state_done c s kept, c.add_kept s kept (good s List.mem_cons_self)⟩
  | addStates ss => exact .inl ⟨c.addAll ss, rfl, trivial, add_states_done c ss kept good, c.add_all_kept ss kept good⟩
  | setItem key s => exact set_item_settled c kept key s (good s List.mem_cons_self)
  | removeState label => exact remove_state_settled c kept label
  | addTransition source target action output inputs =>
      exact add_transition_settled c kept source target action output inputs
  | removeTransition source target => exact remove_transition_settled c kept source target
  | clearTransitions label => exact clear_transitions_settled c kept label
  | clear =>
      refine .inl ⟨c.clear, rfl, trivial, ⟨fun _ => rfl, ?_, rfl⟩,
        ⟨⟨List.nodup_nil, by simp [Configuration.clear]⟩, ?_, ?_⟩⟩
      · simp [Configuration.keys, Configuration.clear, removes, states]
      · simp [Configuration.clear]
      · simp [Configuration.clear]
  | setStart label =>
      refine .inl ⟨{ c with start := label }, rfl, trivial, ⟨fun _ => rfl, ?_, rfl⟩,
        ⟨kept.control.ids, kept.control.states⟩, kept.known, kept.named⟩
      simp [removes, states, Configuration.keys, Configuration.labelOf]

end Effects

end Edit

end TapeMachine
