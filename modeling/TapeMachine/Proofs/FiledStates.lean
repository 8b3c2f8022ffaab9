import TapeMachine.Control.Editing
import TapeMachine.Proofs.WellFormed

set_option autoImplicit false

namespace TapeMachine

namespace Label

theorem names_unique (label : Label) (a b : Nat) (first : label.names a = true)
    (second : label.names b = true) : a = b := by
  simp only [names, decide_eq_true_eq] at first second
  rw [first] at second
  exact Int.ofNat_inj.mp (Option.some.inj second)

theorem names_only (label : Label) (n : Nat) (named : label.names n = true) (id : Nat) :
    label.names id = decide (id = n) := by
  by_cases same : id = n
  · rw [same, named, decide_eq_true rfl]
  · rw [decide_eq_false same, ← Bool.not_eq_true]
    intro names
    exact same (label.names_unique id n names named)

theorem names_key (label : Label) (id : Nat) (named : label.names id = true) : Json.isKey label = true := by
  simp only [names, id?] at named
  cases label <;> first | rfl | cases named

theorem look_up_cases {α : Type} (label : Label) (number : α → Nat) (items : List α)
    (distinct : (items.map number).Nodup) :
    let found : Except LookupFault (Option α) :=
      if Json.isKey label then .ok (label.id?.bind fun id => items.find? fun a => decide ((number a : Int) = id))
      else .error (.noKey label)
    (∃ a ∈ items, label.names (number a) = true ∧ found = .ok (some a)) ∨
      (∀ a ∈ items, label.names (number a) = false) ∧
        (found = .ok none ∨ found = .error (.noKey label) ∧ Json.isKey label = false) := by
  intro found
  by_cases key : Json.isKey label = true
  · have asked :
        found = .ok (label.id?.bind fun id => items.find? fun a => decide ((number a : Int) = id)) := if_pos key
    rw [asked]
    cases answer : label.id?.bind fun id => items.find? fun a => decide ((number a : Int) = id) with
    | some a =>
        obtain ⟨id, named, here⟩ := Option.bind_eq_some_iff.mp answer
        have own : (number a : Int) = id := by simpa using List.find?_some here
        exact .inl ⟨a, List.mem_of_find?_eq_some here, by simp [names, named, own], rfl⟩
    | none =>
        refine .inr ⟨?_, .inl rfl⟩
        intro a mem
        by_contra named
        rw [Bool.not_eq_false, names, decide_eq_true_eq] at named
        rw [named, Option.bind_some, find_keyed number items a distinct mem] at answer
        cases answer
  · refine .inr ⟨?_, .inr ⟨if_neg key, by simpa using key⟩⟩
    intro a mem
    by_contra named
    exact key (label.names_key (number a) (by simpa using named))

end Label

namespace State

variable (s : State) (target : Label)

theorem without_cases (distinct : (s.transitions.map Transition.target).Nodup) :
    (∃ t ∈ s.transitions, target.names t.target = true ∧ s.without target = .ok (s.withoutTarget t.target, t)) ∨
      ∃ fault, s.without target = .error fault ∧ (∀ t ∈ s.transitions, target.names t.target = false) ∧
        (fault = .noTarget s.id target ∨ fault = .noKey target ∧ Json.isKey target = false) := by
  rcases target.look_up_cases Transition.target s.transitions distinct with ⟨t, mem, named, found⟩ | ⟨unnamed, missing⟩
  · have asked : s.toward? target = .ok (some t) := found
    exact .inl ⟨t, mem, named, by rw [without, asked]; rfl⟩
  · rcases missing with missing | ⟨missing, noKey⟩
    · have asked : s.toward? target = .ok none := missing
      exact .inr ⟨.noTarget s.id target, by rw [without, asked]; rfl, unnamed, .inl rfl⟩
    · have asked : s.toward? target = .error (.noKey target) := missing
      exact .inr ⟨.noKey target, by rw [without, asked]; rfl, unnamed, .inr ⟨rfl, noKey⟩⟩

theorem without_target_well_formed (good : s.WellFormed) (n : Nat) : (s.withoutTarget n).WellFormed where
  targets := good.targets.sublist (List.filter_sublist.map Transition.target)
  transitions := fun t mem => good.transitions t (List.mem_of_mem_filter mem)

end State

namespace Configuration

def keys (c : Configuration) : List (Nat × Label) := c.states.map fun s => (s.id, c.labelOf s)

def newIds (c : Configuration) (ss : List State) : List Nat :=
  (firstSeen (ss.map State.id)).filter fun id => id ∉ c.states.map State.id

structure Kept (c : Configuration) : Prop where
  control : c.WellFormed
  known : ∀ l ∈ c.labels, l.1 ∈ c.states.map State.id
  named : ∀ l ∈ c.labels, l.2.names l.1 = true

def labelAt (labels : List (Nat × Label)) (id : Nat) : Label :=
  ((labels.find? fun l => l.1 = id).map Prod.snd).getD (Label.ofId id)

theorem keys_ids (c : Configuration) : c.keys = (c.states.map State.id).map fun id => (id, labelAt c.labels id) := by
  simp [keys, labelAt, labelOf]

variable (c : Configuration)

theorem label_names (kept : c.Kept) (id : Nat) : (labelAt c.labels id).names id = true := by
  cases found : c.labels.find? fun l => l.1 = id with
  | none =>
      rw [labelAt, found]
      exact (Label.names_of_id id id).mpr rfl
  | some l =>
      have own : l.1 = id := by simpa using List.find?_some found
      have names := kept.named l (List.mem_of_find?_eq_some found)
      rw [labelAt, found, ← own]
      exact names

theorem get_cases (label : Label) (distinct : (c.states.map State.id).Nodup) :
    (∃ s ∈ c.states, label.names s.id = true ∧ c.find? s.id = some s ∧ c.get label = .ok s) ∨
      ∃ fault, c.get label = .error fault ∧ (∀ s ∈ c.states, label.names s.id = false) ∧
        (fault = .noState label ∨ fault = .noKey label ∧ Json.isKey label = false) := by
  rcases label.look_up_cases State.id c.states distinct with ⟨s, mem, named, found⟩ | ⟨unnamed, missing⟩
  · have asked : c.named? label = .ok (some s) := found
    exact .inl ⟨s, mem, named, find_keyed State.id c.states s distinct mem, by rw [get, asked]; rfl⟩
  · rcases missing with missing | ⟨missing, noKey⟩
    · have asked : c.named? label = .ok none := missing
      exact .inr ⟨.noState label, by rw [get, asked]; rfl, unnamed, .inl rfl⟩
    · have asked : c.named? label = .error (.noKey label) := missing
      exact .inr ⟨.noKey label, by rw [get, asked]; rfl, unnamed, .inr ⟨rfl, noKey⟩⟩

section Write

variable (key : Label) (s : State)

theorem find_write (id : Nat) : (c.write key s).find? id = if id = s.id then some s else c.find? id := by
  by_cases same : id = s.id
  · rw [if_pos same, same]
    exact c.find_add_same s
  · rw [if_neg same]
    exact c.find_add_other s id fun equal => same (Int.ofNat_inj.mp equal)

theorem write_known (known : s.id ∈ c.states.map State.id) : c.write key s = c.add s := by
  rw [write, labelsWith, if_pos (.inl ((c.find_some_iff s.id).mpr known))]
  rfl

@[simp] theorem write_own : c.write (Label.ofId s.id) s = c.add s := by
  rw [write, labelsWith, if_pos (.inr rfl)]
  rfl

theorem keys_write_known (known : s.id ∈ c.states.map State.id) : (c.write key s).keys = c.keys := by
  have ids : (c.add s).states.map State.id = c.states.map State.id := place_ids_old s c.states known
  rw [c.write_known key s known, keys_ids, keys_ids, ids]
  rfl

theorem keys_write_new (kept : c.Kept) (new : s.id ∉ c.states.map State.id) :
    (c.write key s).keys = c.keys ++ [(s.id, key)] := by
  have unlabelled : c.labels.find? (fun l => l.1 = s.id) = none := by
    rw [List.find?_eq_none]
    intro l mem same
    exact new (by simpa [← of_decide_eq_true same] using kept.known l mem)
  have others (id : Nat) (mem : id ∈ c.states.map State.id) :
      labelAt (c.labelsWith key s) id = labelAt c.labels id := by
    have apart : s.id ≠ id := fun same => new (same ▸ mem)
    rw [labelsWith]
    split
    · rfl
    · simp [labelAt, apart]
  have own : labelAt (c.labelsWith key s) s.id = key := by
    have absent : ¬ (c.find? s.id).isSome = true := fun found => new ((c.find_some_iff s.id).mp found)
    rw [labelsWith]
    by_cases plain : key = Label.ofId s.id
    · rw [if_pos (.inr plain), labelAt, unlabelled, plain]
      rfl
    · rw [if_neg (by simp [absent, plain])]
      simp [labelAt]
  have states : (c.write key s).states = c.states ++ [s] := place_new s c.states new
  have labels : (c.write key s).labels = c.labelsWith key s := rfl
  rw [keys_ids, keys_ids, states, labels, List.map_append, List.map_append, List.map_singleton, List.map_singleton, own]
  congr 1
  apply List.map_congr_left
  intro id mem
  rw [others id mem]

theorem mem_labels_with (l : Nat × Label) (mem : l ∈ c.labelsWith key s) : l = (s.id, key) ∨ l ∈ c.labels := by
  rw [labelsWith] at mem
  split at mem
  · exact .inr mem
  · exact List.mem_cons.mp mem

theorem write_kept (kept : c.Kept) (good : s.WellFormed) (names : key.names s.id = true) : (c.write key s).Kept where
  control := by
    obtain ⟨ids, states⟩ := c.add_well_formed s kept.control good
    exact ⟨ids, states⟩
  known := by
    intro l mem
    apply (place_id_mem s c.states l.1).mpr
    rcases c.mem_labels_with key s l mem with rfl | old
    · exact .inl rfl
    · exact .inr (kept.known l old)
  named := by
    intro l mem
    rcases c.mem_labels_with key s l mem with rfl | old
    · exact names
    · exact kept.named l old

end Write

section Without

variable (n : Nat)

@[simp] theorem find_without (id : Nat) : (c.without n).find? id = if id = n then none else c.find? id := by
  rw [find?, without, List.find?_filter]
  by_cases same : id = n
  · rw [if_pos same, List.find?_eq_none]
    intro s _ hit
    simp only [same, Int.ofNat_inj, decide_eq_true_eq] at hit
    exact hit.1 hit.2
  · rw [if_neg same, find?]
    congr 1
    funext s
    by_cases hit : s.id = id
    · simp [hit, same]
    · have apart : (s.id : Int) ≠ id := fun equal => hit (Int.ofNat_inj.mp equal)
      simp [apart]

@[simp] theorem keys_without : (c.without n).keys = c.keys.filter fun k => k.1 ≠ n := by
  have kept (id : Nat) (different : id ≠ n) : labelAt (c.without n).labels id = labelAt c.labels id := by
    rw [labelAt, labelAt, without, List.find?_filter]
    congr 3
    funext l
    by_cases hit : l.1 = id
    · simp [hit, different]
    · simp [hit]
  have ids : (c.without n).states.map State.id = (c.states.map State.id).filter fun id => id ≠ n := by
    rw [without, List.filter_map]
    rfl
  have turned (items : List Nat) : (items.map fun id => (id, labelAt c.labels id)).filter (fun k => k.1 ≠ n) =
      (items.filter fun id => id ≠ n).map fun id => (id, labelAt c.labels id) := by
    rw [List.filter_map]
    rfl
  rw [keys_ids, keys_ids, ids, turned]
  apply List.map_congr_left
  intro id mem
  rw [kept id (by simpa using (List.mem_filter.mp mem).2)]

theorem without_kept (kept : c.Kept) : (c.without n).Kept where
  control := by
    constructor
    · exact kept.control.ids.sublist (List.filter_sublist.map State.id)
    · exact fun s mem => kept.control.states s (List.mem_of_mem_filter mem)
  known := by
    intro l mem
    obtain ⟨old, different⟩ := List.mem_filter.mp mem
    obtain ⟨s, here, same⟩ := List.mem_map.mp (kept.known l old)
    rw [← same] at different ⊢
    exact List.mem_map_of_mem (List.mem_filter.mpr ⟨here, different⟩)
  named := fun l mem => kept.named l (List.mem_of_mem_filter mem)

end Without

theorem find_cleared (id : Int) :
    c.clearTransitions.find? id = (c.find? id).map fun s => { s with transitions := [] } := by
  rw [find?, clearTransitions, List.find?_map]
  rfl

@[simp] theorem keys_cleared : c.clearTransitions.keys = c.keys := by
  simp [keys, clearTransitions, labelOf]

theorem cleared_well_formed (s : State) : ({ s with transitions := [] } : State).WellFormed := ⟨List.nodup_nil, by simp⟩

theorem cleared_kept (kept : c.Kept) : c.clearTransitions.Kept where
  control := by
    have ids : c.clearTransitions.states.map State.id = c.states.map State.id := by simp [clearTransitions]
    refine ⟨ids ▸ kept.control.ids, ?_⟩
    intro s mem
    obtain ⟨u, _, rfl⟩ := List.mem_map.mp mem
    exact cleared_well_formed u
  known := by
    intro l mem
    simpa [clearTransitions] using kept.known l mem
  named := kept.named

@[simp]
theorem new_ids_nil : c.newIds [] = [] := rfl

theorem new_ids_single (s : State) : c.newIds [s] = if s.id ∈ c.states.map State.id then [] else [s.id] := by
  have alone : firstSeen ([s].map State.id) = [s.id] := by simp [firstSeen]
  rw [newIds, alone, List.filter_cons, List.filter_nil]
  by_cases known : s.id ∈ c.states.map State.id
  · rw [if_pos known, if_neg (by rw [decide_eq_true_eq]; exact not_not_intro known)]
  · rw [if_neg known, if_pos (decide_eq_true known)]

theorem new_ids_cons (s : State) (ss : List State) :
    c.newIds (s :: ss) = c.newIds [s] ++ (c.add s).newIds ss := by
  have ids (id : Nat) : id ∈ (c.add s).states.map State.id ↔ id = s.id ∨ id ∈ c.states.map State.id :=
    place_id_mem s c.states id
  have rest : ((firstSeen (ss.map State.id)).filter (· ≠ s.id)).filter
    (fun id => id ∉ c.states.map State.id) = (c.add s).newIds ss := by
    rw [List.filter_filter, newIds]
    apply List.filter_congr
    intro id _
    simp only [ids, not_or, ne_eq, Bool.decide_and, Bool.and_comm]
  rw [newIds, List.map_cons, firstSeen, List.filter_cons, rest, c.new_ids_single s]
  by_cases known : s.id ∈ c.states.map State.id
  · rw [if_pos known, if_neg (by rw [decide_eq_true_eq]; exact not_not_intro known)]
    rfl
  · rw [if_neg known, if_pos (decide_eq_true known)]
    rfl

theorem add_kept (s : State) (kept : c.Kept) (good : s.WellFormed) : (c.add s).Kept := by
  rw [← c.write_own s]
  exact c.write_kept (Label.ofId s.id) s kept good ((Label.names_of_id s.id s.id).mpr rfl)

theorem add_all_kept (ss : List State) (kept : c.Kept) (good : ∀ s ∈ ss, s.WellFormed) : (c.addAll ss).Kept := by
  induction ss generalizing c with
  | nil => exact kept
  | cons s ss ih =>
      obtain ⟨here, later⟩ := List.forall_mem_cons.mp good
      exact ih (c.add s) (c.add_kept s kept here) later

end Configuration

end TapeMachine
