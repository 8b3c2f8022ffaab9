import Mathlib.Data.List.Induction
import Mathlib.Data.List.Nodup
import TapeMachine.Control.Configuration
import TapeMachine.Definition.Basic

set_option autoImplicit false

namespace TapeMachine

structure Transition.WellFormed (t : Transition) : Prop where
  filled : t.inputs ≠ []
  distinct : t.inputs.Nodup

structure State.WellFormed (s : State) : Prop where
  targets : (s.transitions.map Transition.target).Nodup
  transitions : ∀ t ∈ s.transitions, t.WellFormed

structure Configuration.WellFormed (c : Configuration) : Prop where
  ids : (c.states.map State.id).Nodup
  states : ∀ s ∈ c.states, s.WellFormed

structure Definition.Covered (d : Definition) : Prop where
  blank : ∀ t, d.blank = some t → t ∈ d.charset
  memory : ∀ word, d.memory = some word → ∀ c ∈ word, [c] ∈ d.charset
  symbols : ∀ s ∈ d.configuration.states, ∀ t ∈ s.transitions, ∀ x ∈ t.output :: t.inputs, ∃ c,
    x = .char c ∧ [c] ∈ d.charset

/-- The charset holds single code points, none twice, and everything that is used is in it. -/
structure Definition.Closed (d : Definition) : Prop extends Covered d where
  single : ∀ t ∈ d.charset, ∃ c, t = [c]
  distinct : d.charset.Nodup

theorem Definition.charset_points (d : Definition) (closed : d.Closed) : ∃ cs :
    List CodePoint, d.charset = cs.map ([·]) ∧ cs.Nodup := by
  have single := closed.single
  have distinct := closed.distinct
  generalize d.charset = charset at single distinct
  induction charset with
  | nil => exact ⟨[], rfl, List.nodup_nil⟩
  | cons t ts ih =>
      obtain ⟨absent, tail⟩ := List.nodup_cons.mp distinct
      obtain ⟨c, rfl⟩ := single t List.mem_cons_self
      obtain ⟨cs, rfl, rest⟩ := ih (fun u mem => single u (List.mem_cons_of_mem [c] mem)) tail
      exact ⟨c :: cs, rfl, List.nodup_cons.mpr ⟨fun mem => absent (List.mem_map_of_mem mem), rest⟩⟩

theorem first_seen_of_nodup {α : Type} [DecidableEq α] (xs : List α) (distinct : xs.Nodup) : firstSeen xs = xs := by
  induction xs with
  | nil => rfl
  | cons a rest ih =>
      obtain ⟨absent, tail⟩ := List.nodup_cons.mp distinct
      rw [firstSeen, ih tail, List.filter_eq_self.mpr]
      intro b mem
      simpa using fun same : b = a => absent (same ▸ mem)

theorem key_new {α : Type} (key : α → Nat) (before after : List α) (a : α)
    (distinct : ((before ++ a :: after).map key).Nodup) :
    key a ∉ before.map key := by
  intro old
  rw [List.map_append, List.nodup_append] at distinct
  exact distinct.2.2 (key a) old (key a) (by simp) rfl

theorem find_keyed {α : Type} (key : α → Nat) (items : List α) (a : α)
    (distinct : (items.map key).Nodup) (mem : a ∈ items) :
    items.find? (fun b => decide ((key b : Int) = key a)) = some a := by
  induction items with
  | nil => simp at mem
  | cons b rest ih =>
      obtain ⟨absent, tail⟩ := List.nodup_cons.mp distinct
      rcases List.mem_cons.mp mem with rfl | later
      · simp
      · have apart : (key b : Int) ≠ key a := by
          intro same
          exact absent (Int.ofNat_inj.mp same ▸ List.mem_map_of_mem later)
        rw [List.find?_cons, decide_eq_false apart]
        exact ih tail later

namespace Transition

theorem merge_well_formed (t : Transition) (symbols : List Symbol) (good : t.WellFormed) :
    (t.merge symbols).WellFormed where
  filled := by
    rw [merge, ne_eq, first_seen_eq_nil_iff, List.append_eq_nil_iff]
    exact fun empty => good.filled empty.1
  distinct := first_seen_nodup (t.inputs ++ symbols)

theorem file_new (t : Transition) (ts : List Transition) (new : t.target ∉ ts.map target) : t.file ts = ts ++ [t] := by
  induction ts with
  | nil => rfl
  | cons u us ih =>
      simp only [List.map_cons, List.mem_cons, not_or] at new
      rw [file, if_neg (Ne.symm new.1), ih new.2]
      rfl

theorem file_targets_old (t : Transition) (ts : List Transition) (old : t.target ∈ ts.map target) :
    (t.file ts).map target = ts.map target := by
  induction ts with
  | nil => simp at old
  | cons u us ih =>
      rw [file]
      split
      · rfl
      · rename_i different
        have rest : t.target ∈ us.map target := by
          simpa [Ne.symm different] using old
        rw [List.map_cons, ih rest, List.map_cons]

theorem file_targets_nodup (t : Transition) (ts : List Transition) (distinct : (ts.map target).Nodup) :
    ((t.file ts).map target).Nodup := by
  by_cases old : t.target ∈ ts.map target
  · rwa [file_targets_old t ts old]
  · rw [file_new t ts old, List.map_append, List.map_singleton, ← List.concat_eq_append]
    exact List.Nodup.concat old distinct

theorem mem_file (t u : Transition) (ts : List Transition) (mem : u ∈ t.file ts) :
    u ∈ ts ∨ u = t ∨ ∃ v ∈ ts, v.target = t.target ∧ u = v.merge t.inputs := by
  induction ts with
  | nil => exact .inr (.inl (List.mem_singleton.mp mem))
  | cons v vs ih =>
      rw [file] at mem
      split at mem
      · rename_i same
        rcases List.mem_cons.mp mem with rfl | mem
        · exact .inr (.inr ⟨v, List.mem_cons_self, same, rfl⟩)
        · exact .inl (List.mem_cons_of_mem v mem)
      · rcases List.mem_cons.mp mem with rfl | mem
        · exact .inl List.mem_cons_self
        · rcases ih mem with old | rfl | ⟨w, within, same, rfl⟩
          · exact .inl (List.mem_cons_of_mem v old)
          · exact .inr (.inl rfl)
          · exact .inr (.inr ⟨w, List.mem_cons_of_mem v within, same, rfl⟩)

end Transition

namespace State

theorem with_transition_well_formed (s : State) (t : Transition) (good : s.WellFormed) (fresh : t.WellFormed) :
    (s.withTransition t).WellFormed where
  targets := Transition.file_targets_nodup t s.transitions good.targets
  transitions := by
    intro u mem
    rcases Transition.mem_file t u s.transitions mem with old | rfl | ⟨v, within, _, rfl⟩
    · exact good.transitions u old
    · exact fresh
    · exact Transition.merge_well_formed v t.inputs (good.transitions v within)

theorem of_transitions_well_formed (id : Nat) (acceptance : Acceptance) (ts : List Transition)
    (each : ∀ t ∈ ts, t.WellFormed) :
    (ofTransitions id acceptance ts).WellFormed := by
  induction ts using List.reverseRecOn with
  | nil => exact ⟨List.nodup_nil, by simp [ofTransitions, Transition.fileAll]⟩
  | append_singleton ts t ih =>
      rw [of_transitions_cons]
      apply with_transition_well_formed _ t
      · exact ih fun u mem => each u (List.mem_append_left [t] mem)
      · exact each t (by simp)

theorem same_self (s : State) (good : s.WellFormed) : s.same s = true := by
  have each (t : Transition) (mem : t ∈ s.transitions) : s.towardId? t.target = some t :=
    find_keyed Transition.target s.transitions t good.targets mem
  simp only [same, decide_true, Bool.true_and, List.all_eq_true, decide_eq_true_eq]
  exact each

end State

namespace Configuration

theorem place_new (s : State) (us : List State) (new : s.id ∉ us.map State.id) : place s us = us ++ [s] := by
  induction us with
  | nil => rfl
  | cons u us ih =>
      simp only [List.map_cons, List.mem_cons, not_or] at new
      rw [place, if_neg (Ne.symm new.1), ih new.2]
      rfl

theorem place_ids_old (s : State) (us : List State) (old : s.id ∈ us.map State.id) :
    (place s us).map State.id = us.map State.id := by
  induction us with
  | nil => simp at old
  | cons u us ih =>
      rw [place]
      split
      · rename_i same
        rw [List.map_cons, List.map_cons, same]
      · rename_i different
        have rest : s.id ∈ us.map State.id := by
          simpa [Ne.symm different] using old
        rw [List.map_cons, ih rest, List.map_cons]

theorem place_ids_nodup (s : State) (us : List State) (distinct : (us.map State.id).Nodup) :
    ((place s us).map State.id).Nodup := by
  by_cases old : s.id ∈ us.map State.id
  · rwa [place_ids_old s us old]
  · rw [place_new s us old, List.map_append, List.map_singleton, ← List.concat_eq_append]
    exact List.Nodup.concat old distinct

theorem mem_place (s u : State) (us : List State) (mem : u ∈ place s us) : u = s ∨ u ∈ us := by
  induction us with
  | nil => exact .inl (List.mem_singleton.mp mem)
  | cons v vs ih =>
      rw [place] at mem
      split at mem
      · rcases List.mem_cons.mp mem with rfl | mem
        · exact .inl rfl
        · exact .inr (List.mem_cons_of_mem v mem)
      · rcases List.mem_cons.mp mem with rfl | mem
        · exact .inr List.mem_cons_self
        · rcases ih mem with rfl | old
          · exact .inl rfl
          · exact .inr (List.mem_cons_of_mem v old)

theorem place_id_mem (s : State) (us : List State) (id : Nat) :
    id ∈ (place s us).map State.id ↔ id = s.id ∨ id ∈ us.map State.id := by
  by_cases old : s.id ∈ us.map State.id
  · rw [place_ids_old s us old]
    refine ⟨.inr, ?_⟩
    rintro (rfl | mem)
    · exact old
    · exact mem
  · rw [place_new s us old]
    simp only [List.map_append, List.map_singleton, List.mem_append, List.mem_singleton]
    exact or_comm

theorem add_well_formed (c : Configuration) (s : State) (good : c.WellFormed) (fresh : s.WellFormed) :
    (c.add s).WellFormed where
  ids := place_ids_nodup s c.states good.ids
  states := by
    intro u mem
    rcases mem_place s u c.states mem with rfl | old
    · exact fresh
    · exact good.states u old

theorem find_mem (c : Configuration) (id : Int) (s : State) (found : c.find? id = some s) :
    s ∈ c.states ∧ (s.id : Int) = id := by
  have hit := List.find?_some found
  exact ⟨List.mem_of_find?_eq_some found, by simpa using hit⟩

theorem find_some_iff (c : Configuration) (id : Nat) : (c.find? id).isSome = true ↔ id ∈ c.states.map State.id := by
  rw [find?, List.find?_isSome, List.mem_map]
  simp only [decide_eq_true_eq, Int.ofNat_inj]

theorem find_none (c : Configuration) (id : Nat) (absent : id ∉ c.states.map State.id) : c.find? id = none := by
  rw [← Option.not_isSome_iff_eq_none, find_some_iff]
  exact absent

theorem get_id (c : Configuration) (id : Nat) : c.get (Label.ofId id) = match c.find? id with
    | some s => .ok s
    | none => .error (.noState (Label.ofId id)) := by
  have key : Json.isKey (Label.ofId id) = true := rfl
  have named : (Label.ofId id).id?.bind c.find? = c.find? id := rfl
  rw [get, named?, if_pos key, named]
  cases c.find? id <;> rfl

theorem find_split (before after : List State) (s : State) (new : s.id ∉ before.map State.id) (start : Label)
    (labels : List (Nat × Label)) : find? ⟨before ++ s :: after, start, labels⟩ s.id = some s := by
  have skipped : before.find? (fun u => decide ((u.id : Int) = s.id)) = none :=
    find_none ⟨before, start, labels⟩ s.id new
  simp only [find?, List.find?_append, skipped, Option.none_or, List.find?_cons, decide_true]

theorem place_split (before after : List State) (s u : State) (same : u.id = s.id) (new : s.id ∉ before.map State.id) :
    place s (before ++ u :: after) = before ++ s :: after := by
  induction before with
  | nil => rw [List.nil_append, place, if_pos same, List.nil_append]
  | cons v vs ih =>
      simp only [List.map_cons, List.mem_cons, not_or] at new
      rw [List.cons_append, place, if_neg (Ne.symm new.1), ih new.2, List.cons_append]

theorem same_states (c c' : Configuration) (good : c.WellFormed) (states : c'.states = c.states)
    (starts : c.start.same c'.start = true) : c.same c' = true := by
  have each (s : State) (mem : s ∈ c.states) : c'.find? s.id = some s := by
    rw [find?, states]
    exact find_keyed State.id c.states s good.ids mem
  rw [same, starts, states, decide_eq_true rfl, Bool.true_and, Bool.true_and, List.all_eq_true]
  intro s mem
  rw [each s mem]
  exact State.same_self s (good.states s mem)

end Configuration

end TapeMachine
